import Honyar.LocalScene.Bindings

/-!
# Integrity of the index

`Indexed` says that what a scene has is filed.  Here is the other half: every
node of the hash table leads to a scene of the list and to a condition or a panel
of that scene, and every condition and panel has one node.

Three things break it: a condition that is refused is filed all the same, with
no pointer; a condition that is deleted through a list that is not its own makes
both lists count their sets wrong, and a list that counts too few is not emptied
with its scene; `scene_bind_clear` frees the panels of a scene and leaves them in
it.
-/

namespace Honyar.LocalScene

open CText Option List CondList SceneInfo SceneList Keyed

variable {l : Logic} {k : Kind}
variable {n : CondSetNode k} {d : CondNode k} {key : CText} {q : AnyPtr}

/-! ## Lists -/

namespace CondList

variable {x y : CondList l k} {heap : Nat} {c : Cond k} {p : CondPtr k}

/-- The link list counts its sets. -/
def Counted (x : CondList l k) : Prop := x.iNodeNum = x.stList.length

theorem length_updateIndex (x : CondList l k) : x.updateIndex.stList.length = x.stList.length := by
  rw [updateIndex]
  split
  · rfl
  · have hlen := congrArg List.length
      (map_updateIndexFrom (g := CondSetNode.addr) (fun _ _ => rfl) x.stList 0)
    simpa only [length_map] using hlen

theorem iNodeNum_updateIndex (x : CondList l k) : x.updateIndex.iNodeNum = x.iNodeNum := by
  rw [updateIndex]
  split <;> rfl

theorem Counted.condAdd (hx : x.Counted) (h : x.condAdd heap c = some (y, p)) : y.Counted := by
  rw [CondList.condAdd] at h
  split at h
  · simp only [some.injEq, Prod.mk.injEq] at h
    rw [← h.1, Counted]
    simp only [addCond, modifySet, length_map]
    exact hx
  · split at h
    · cases h
    · simp only [some.injEq, Prod.mk.injEq] at h
      rw [← h.1, Counted]
      simp only [addCond, modifySet, length_map, instSet, length_updateIndex,
        iNodeNum_updateIndex]
      rw [hx, (k.perm_instSet _ _).length_eq, length_cons]
      rfl

theorem Counted.clear (hx : x.Counted) : x.clear.stList = [] ∧ x.clear.iNodeNum = 0 := by
  have hnum : x.iNodeNum = x.stList.length := hx
  have hpos : (0 : Int) ≤ x.iNodeNum := by omega
  have hn : min x.iNodeNum.toNat x.stList.length = x.stList.length := by omega
  simp only [CondList.clear, if_pos hpos, hn]
  exact ⟨drop_length, by omega⟩

theorem Counted.mem_conds (hx : x.Counted) (hn : n ∈ x.stList) (hd : d ∈ n.pstCond) :
    d.stCond ∈ x.conds := by
  have hnum : x.iNodeNum = x.stList.length := hx
  have hpos := length_pos_of_mem hn
  refine mem_flatMap.mpr ⟨n, ?_, List.mem_map_of_mem hd⟩
  rw [walk, if_neg (by omega)]
  exact hn

theorem Counted.withoutSet (hcount : x.Counted) (hx : x.Placed heap) (hn : n ∈ x.stList) :
    (x.withoutSet n.addr).Counted := by
  have hnum : x.iNodeNum = x.stList.length := hcount
  have hlen : (x.stList.filter (·.addr != n.addr)).length + 1 = x.stList.length :=
    length_filter_key hx.addr hn
  rw [Counted, CondList.withoutSet, iNodeNum_updateIndex, length_updateIndex]
  show x.iNodeNum - 1 = (x.stList.filter (·.addr != n.addr)).length
  omega

theorem bare_updateIndex (x : CondList l k) :
    x.updateIndex.stList.map CondSetNode.bare = x.stList.map CondSetNode.bare := by
  rw [updateIndex]
  split
  · rfl
  · exact map_updateIndexFrom (fun _ _ => rfl) _ _

theorem Has.of_bare_eq (h : y.stList.map CondSetNode.bare = x.stList.map CondSetNode.bare)
    {a b : Nat} (hx : x.Has a b key) : y.Has a b key := by
  obtain ⟨n, hn, hna, hc⟩ := hx
  obtain ⟨m, hm, hmn⟩ := List.mem_map.mp (h.symm ▸ List.mem_map_of_mem hn)
  have haddr : m.bare.addr = n.bare.addr := by rw [hmn]
  have hconds : m.bare.pstCond = n.bare.pstCond := by rw [hmn]
  exact ⟨m, hm, haddr.trans hna, (show m.pstCond = n.pstCond from hconds) ▸ hc⟩

theorem modifySet_delNode_has (hx : x.Placed heap) (hn : n ∈ x.stList) (hd : d ∈ n.pstCond)
    {a b : Nat} (hne : ¬ (a = n.addr ∧ b = d.addr)) (h : x.Has a b key) :
    (x.modifySet n.addr fun n => n.delNode d.addr).Has a b key := by
  obtain ⟨m, hm, rfl, c, hc, rfl, hkey⟩ := h
  by_cases hma : m.addr = n.addr
  · obtain rfl := eq_of_key_eq hx.addr hm hn hma
    have hcd : c.addr ≠ d.addr := fun heq => hne ⟨rfl, heq⟩
    refine ⟨m.delNode d.addr, mem_modifySet.mpr (.inl ⟨m, hm, rfl, rfl⟩), rfl, ?_⟩
    obtain ⟨bs, as, hsplit, -, -, htake, hdrop⟩ := (hx.sets m hm).split hd
    rw [CondSetNode.delNode_eq, htake, hdrop]
    rw [hsplit, mem_append, mem_cons] at hc
    rcases hc with hc | rfl | hc
    · exact ⟨c, mem_append_left _ hc, rfl, hkey⟩
    · exact absurd rfl hcd
    · exact ⟨c.down, mem_append_right _ (List.mem_map_of_mem hc), rfl, hkey⟩
  · exact ⟨m, mem_modifySet.mpr (.inr ⟨hm, hma⟩), rfl, c, hc, rfl, hkey⟩

end CondList

theorem CondSetNode.Wf.eq_of_count_one (h : n.Wf) (hone : n.ucCondCount = 1) {c : CondNode k}
    (hc : c ∈ n.pstCond) (hd : d ∈ n.pstCond) : c = d := by
  have hlen : n.pstCond.length = 1 := h.count.symm.trans hone
  obtain ⟨b, hb⟩ := length_eq_one_iff.mp hlen
  rw [hb, mem_singleton] at hc hd
  rw [hc, hd]

/-! ## Scenes -/

namespace SceneInfo

variable {s s' : SceneInfo} {p : CondPtr k} {heap : Nat}

/-- All four lists count their sets. -/
def Counted (s : SceneInfo) : Prop := ∀ l k, (s.list l k).Counted

theorem Counted.setList (hs : s.Counted) {y : CondList l k} (hy : y.Counted) :
    (s.setList l k y).Counted := by
  intro l' k'
  by_cases hl : l' = l ∧ k' = k
  · obtain ⟨rfl, rfl⟩ := hl
    rw [list_setList_self]
    exact hy
  · rw [list_setList_of_ne _ _ hl]
    exact hs l' k'

theorem Frames.counted (h : s.Frames s') (hs : s.Counted) : s'.Counted := by
  intro l k
  rw [CondList.Counted, h.iNodeNum, h.length]
  exact hs l k

/-- The deletion of a condition leaves the lists counted: it goes through its
own list, or its set keeps others. -/
def DelAimed (s : SceneInfo) (l : Logic) (p : CondPtr k) : Prop :=
  p.acLogic = l ∨ ∀ n ∈ s.set? p, n.ucCondCount ≠ 1

instance (s : SceneInfo) (l : Logic) (p : CondPtr k) : Decidable (s.DelAimed l p) :=
  inferInstanceAs (Decidable (p.acLogic = l ∨ ∀ n ∈ s.set? p, n.ucCondCount ≠ 1))

theorem Has.modifyList {f : CondList l k → CondList l k}
    (hf : (f (s.list l k)).stList.map CondSetNode.bare =
      (s.list l k).stList.map CondSetNode.bare) (hq : s.Has q key) :
    (s.modifyList l k f).Has q key := by
  obtain ⟨k', l', a, b⟩ := q
  by_cases hl : l' = l ∧ k' = k
  · obtain ⟨rfl, rfl⟩ := hl
    rw [Has, modifyList, list_setList_self]
    exact CondList.Has.of_bare_eq hf hq
  · rw [Has, modifyList, list_setList_of_ne _ _ hl]
    exact hq

/-- A deletion takes no other condition away, whichever list it goes through. -/
theorem condDel_others (hs : s.Placed heap) (h : s.condDel l p = some s') (hne : q ≠ ⟨k, p⟩)
    (hq : s.Has q key) : s'.Has q key := by
  have hw := hs.chained
  simp only [condDel, bind_eq_bind, bind_eq_some_iff] at h
  obtain ⟨n, hn, c, hc, h⟩ := h
  obtain ⟨hnm, hna⟩ := mem_and_key_of_find? hn
  have hnw := (hw _ _).sets n hnm
  obtain ⟨hcm, hca⟩ := hnw.node?_eq_some.mp hc
  obtain ⟨k', l', a, b⟩ := q
  split at h
  · -- the set goes with its condition, and it has no other
    rename_i hone
    split at h
    · cases h
    · simp only [Option.pure_def, some.injEq] at h
      subst h
      apply Has.modifyList
      · exact bare_updateIndex _
      have hcount : (s.modifyList l k countDown).Has ⟨k', l', a, b⟩ key :=
        hq.modifyList rfl
      by_cases hl : l' = p.acLogic ∧ k' = k
      · obtain ⟨rfl, rfl⟩ := hl
        rw [Has, modifyList, list_setList_self]
        obtain ⟨m, hm, hma, hd⟩ := hcount
        refine ⟨m, mem_filter.mpr ⟨hm, ?_⟩, hma, hd⟩
        simp only [bne_iff_ne, ne_eq]
        intro hmn
        obtain ⟨m', hm', hma', d, hd, hda, -⟩ := hq
        obtain rfl := eq_of_key_eq (hw _ _).addr hm' hnm (hma'.trans (hma.symm.trans hmn))
        have hsame := hnw.eq_of_count_one hone.symm hd hcm
        refine hne ?_
        obtain ⟨l', a', b'⟩ := p
        have hset : a' = a := hna.symm.trans hma'
        have hnode : b' = b := hca.symm.trans (hsame ▸ hda)
        rw [hset, hnode]
      · rw [Has, modifyList, list_setList_of_ne _ _ hl]
        exact hcount
  · -- others stay in the set
    simp only [Option.pure_def, some.injEq] at h
    subst h
    refine Has.modifyList rfl ?_
    by_cases hl : l' = p.acLogic ∧ k' = k
    · obtain ⟨rfl, rfl⟩ := hl
      rw [Has, list_modifySet_self, ← hna]
      refine modifySet_delNode_has (hs _ _) hnm hcm (fun hab => hne ?_) hq
      obtain ⟨l', a', b'⟩ := p
      rw [show a' = a from hna.symm.trans hab.1.symm, show b' = b from hca.symm.trans hab.2.symm]
    · rw [Has, list_modifySet_of_ne _ _ _ hl]
      exact hq

theorem Has.setList_condAdd {y : CondList l k} {c : Cond k} (hs : s.Placed heap)
    (h : (s.list l k).condAdd heap c = some (y, p)) (hq : s.Has q key) :
    (s.setList l k y).Has q key := by
  obtain ⟨-, -, hkeeps⟩ := condAdd_has (hs l k) h
  obtain ⟨k', l', a, b⟩ := q
  by_cases hl : l' = l ∧ k' = k
  · obtain ⟨rfl, rfl⟩ := hl
    rw [Has, list_setList_self]
    exact hkeeps _ _ _ hq
  · rw [Has, list_setList_of_ne _ _ hl]
    exact hq

theorem condDel_counted (hs : s.Placed heap) (hcount : s.Counted) (haimed : s.DelAimed l p)
    (h : s.condDel l p = some s') : s'.Counted ∧ s'.pstPanel = s.pstPanel := by
  have hdel := h
  simp only [condDel, bind_eq_bind, bind_eq_some_iff] at h
  obtain ⟨n, hn, c, hc, h⟩ := h
  obtain ⟨hnm, -⟩ := mem_and_key_of_find? hn
  split at h
  · rename_i hone
    obtain rfl : p.acLogic = l := haimed.resolve_right fun hmany => hmany n hn hone.symm
    rw [condDel_last hn hc hone.symm, some.injEq] at hdel
    subst hdel
    exact ⟨hcount.setList ((hcount p.acLogic k).withoutSet (hs p.acLogic k) hnm),
      pstPanel_setList ..⟩
  · simp only [Option.pure_def, some.injEq] at h
    subst h
    have hset : (s.modifySet p fun n => n.delNode c.addr).Counted := by
      refine hcount.setList ?_
      rw [CondList.Counted, CondList.modifySet, length_map]
      exact hcount _ _
    exact ⟨hset.setList (hset l k), (pstPanel_setList ..).trans (pstPanel_setList ..)⟩

end SceneInfo

/-! ## The index -/

/-- A node filed under `key` leads to a condition or a panel of the scene, which
is filed under that text. -/
def PtrNode.LeadsIn (s : SceneInfo) (key : CText) (e : PtrNode) : Prop :=
  match e.target with
  | .cond p => s.Has p key
  | .panel b => ∃ m ∈ s.pstPanel, m.addr = b ∧ m.stPanel.hashKey = key
  | .null => False

/-- The hash table and the scenes refer to each other, one node for each
condition and each panel. -/
structure Integrity (x : SceneList) : Prop where
  alive : ∀ e ∈ x.pHashTable, ∃ n ∈ x.stList, n.addr = e.2.pstScene ∧
    e.2.LeadsIn n.stSceneInfo e.1
  conds : ∀ n ∈ x.stList, ∀ p key, n.stSceneInfo.Has p key →
    ∃ e, x.pHashTable.filter (PtrNode.isFor key n.stSceneInfo.acSceneId) = [(key, e)] ∧
      e.pstScene = n.addr ∧ e.target = .cond p
  panels : ∀ n ∈ x.stList, ∀ m ∈ n.stSceneInfo.pstPanel,
    ∃ e, x.pHashTable.filter
        (PtrNode.isFor m.stPanel.hashKey n.stSceneInfo.acSceneId) = [(m.stPanel.hashKey, e)] ∧
      e.pstScene = n.addr ∧ e.target = .panel m.addr

/-- What the operations keep. -/
structure Alive (x : SceneList) : Prop where
  indexed : Indexed x
  counted : ∀ n ∈ x.stList, n.stSceneInfo.Counted
  alive : ∀ e ∈ x.pHashTable, ∃ n ∈ x.stList, n.addr = e.2.pstScene ∧
    e.2.LeadsIn n.stSceneInfo e.1
  panels : ∀ n ∈ x.stList, ∀ m ∈ n.stSceneInfo.pstPanel,
    ∃ e, (m.stPanel.hashKey, e) ∈ x.pHashTable ∧ e.pstScene = n.addr ∧ e.target = .panel m.addr
  panelAddrs : ∀ n ∈ x.stList, (n.stSceneInfo.pstPanel.map ScenePanelNode.addr).Nodup ∧
    ∀ m ∈ n.stSceneInfo.pstPanel, m.addr < x.heap

section

variable {x x' : SceneList} {a : Nat} {s s' : SceneInfo}

theorem Indexed.filter_isFor (hx : Indexed x) {n : SceneNode} (hn : n ∈ x.stList) {e : PtrNode}
    (he : (key, e) ∈ x.pHashTable) (hen : e.pstScene = n.addr) :
    x.pHashTable.filter (PtrNode.isFor key n.stSceneInfo.acSceneId) = [(key, e)] := by
  have hfor : PtrNode.isFor key n.stSceneInfo.acSceneId = fun f =>
      decide (filedAs f = filedAs (key, e)) := by
    funext f
    rw [Bool.eq_iff_iff, decide_eq_true_iff, PtrNode.isFor_iff, filedAs, filedAs,
      (hx.owner _ he).2 n hn hen.symm]
  rw [hfor]
  exact filter_key_eq hx.unique he

theorem Alive.integrity (hx : Alive x) : Integrity x where
  alive := hx.alive
  conds n hn p key hp := by
    obtain ⟨e, he, hen, hep⟩ := hx.indexed.filed n hn p key hp
    exact ⟨e, hx.indexed.filter_isFor hn he hen, hen, hep⟩
  panels n hn m hm := by
    obtain ⟨e, he, hen, hep⟩ := hx.panels n hn m hm
    exact ⟨e, hx.indexed.filter_isFor hn he hen, hen, hep⟩

/-- The half of `Alive` that is not about the panels. -/
structure Led (x : SceneList) : Prop where
  counted : ∀ n ∈ x.stList, n.stSceneInfo.Counted
  nodes : ∀ e ∈ x.pHashTable, e.2.target ≠ .null ∧ ∀ q, e.2.target = .cond q →
    ∃ n ∈ x.stList, n.addr = e.2.pstScene ∧ n.stSceneInfo.Has q e.1

theorem led_init : Led .init where
  counted := by simp [init]
  nodes := by simp [init]

theorem alive_iff : Alive x ↔ Bindings x ∧ Led x := by
  have hfst : ∀ s : SceneInfo, s.panelKeys.map Prod.fst = s.pstPanel.map ScenePanelNode.addr :=
    fun s => List.map_map
  constructor
  · intro hx
    refine ⟨⟨hx.indexed, fun n hn => ?_, fun e he p hp => ?_, fun n hn q hq => ?_⟩,
      hx.counted, fun e he => ?_⟩
    · obtain ⟨hnodup, hbelow⟩ := hx.panelAddrs n hn
      refine ⟨hfst _ ▸ hnodup, fun q hq => ?_⟩
      obtain ⟨m, hm, haddr, -⟩ := mem_panelKeys.mp hq
      exact haddr ▸ hbelow m hm
    · obtain ⟨n, hn, hna, hleads⟩ := hx.alive e he
      rw [PtrNode.LeadsIn, hp] at hleads
      exact ⟨n, hn, hna, mem_panelKeys.mpr hleads⟩
    · obtain ⟨m, hm, rfl⟩ := List.mem_map.mp hq
      exact hx.panels n hn m hm
    · obtain ⟨n, hn, hna, hleads⟩ := hx.alive e he
      rw [PtrNode.LeadsIn] at hleads
      refine ⟨fun hnull => ?_, fun q hq => ⟨n, hn, hna, ?_⟩⟩
      · rwa [hnull] at hleads
      · rwa [hq] at hleads
  · rintro ⟨hb, hx⟩
    refine ⟨hb.indexed, hx.counted, fun e he => ?_, fun n hn m hm => ?_, fun n hn => ?_⟩
    · obtain ⟨hnull, hcond⟩ := hx.nodes e he
      simp only [PtrNode.LeadsIn]
      cases htarget : e.2.target with
      | cond q => exact hcond q htarget
      | panel p =>
        obtain ⟨n, hn, hna, hkeys⟩ := hb.sound e he p htarget
        exact ⟨n, hn, hna, mem_panelKeys.mp hkeys⟩
      | null => exact absurd htarget hnull
    · exact hb.filed n hn _ (List.mem_map_of_mem hm)
    · obtain ⟨hnodup, hbelow⟩ := hb.addrs n hn
      exact ⟨hfst _ ▸ hnodup, fun m hm => hbelow _ (List.mem_map_of_mem hm)⟩

theorem alive_init : Alive .init := alive_iff.mpr ⟨bindings_init, led_init⟩

theorem Led.has (hx : Led x) (hind : Indexed x) (hs : x.scene? a = some s) {e : CText × PtrNode}
    (he : e ∈ x.pHashTable) (hea : e.2.pstScene = a) (hq : e.2.target = .cond q) : s.Has q e.1 := by
  obtain ⟨n, hn, hna, hhas⟩ := (hx.nodes e he).2 q hq
  have hsame := eq_of_key_eq hind.addrs hn (mem_of_scene? hs) (hna.trans hea)
  rw [hsame] at hhas
  exact hhas

theorem Led.touches (hx : Led x) (hind : Indexed x) (h : x.Touches x') : Led x' where
  counted m hm := by
    obtain ⟨n, hn, -, hframes⟩ := h.exists_before hm
    exact hframes.counted (hx.counted n hn)
  nodes e he := by
    rw [h.pHashTable] at he
    obtain ⟨hnull, hcond⟩ := hx.nodes e he
    refine ⟨hnull, fun q hq => ?_⟩
    obtain ⟨n, hn, hna, hhas⟩ := hcond q hq
    obtain ⟨m, hm, hma, hframes⟩ := h.exists_after hn
    exact ⟨m, hm, hma.trans hna, hframes.keeps (hind.placed n hn) q _ hhas⟩

theorem Led.write (hx : Led x) (hind : Indexed x) (hs : x.scene? a = some s)
    (hlist : x'.stList = (x.setScene a s').stList) (hcount : s'.Counted)
    (hnodes : ∀ e ∈ x'.pHashTable, e ∈ x.pHashTable ∨ e.2.pstScene = a ∧ e.2.target ≠ .null ∧
      ∀ q, e.2.target = .cond q → s'.Has q e.1)
    (hown : ∀ e ∈ x'.pHashTable, e ∈ x.pHashTable → e.2.pstScene = a →
      ∀ q, e.2.target = .cond q → s.Has q e.1 → s'.Has q e.1) : Led x' := by
  have hself : (⟨a, s'⟩ : SceneNode) ∈ x'.stList := by
    rw [hlist]
    exact mem_write_iff.mpr (.inl ⟨⟨a, s⟩, mem_of_scene? hs, rfl, rfl⟩)
  refine ⟨fun m hm => ?_, fun e he => ?_⟩
  · rcases mem_setScene (hlist ▸ hm) with rfl | ⟨hm, -⟩
    · exact hcount
    · exact hx.counted m hm
  · rcases hnodes e he with hold | ⟨hea, hnull, hcond⟩
    · refine ⟨(hx.nodes e hold).1, fun q hq => ?_⟩
      by_cases hea : e.2.pstScene = a
      · exact ⟨_, hself, hea.symm, hown e he hold hea q hq (hx.has hind hs hold hea hq)⟩
      · obtain ⟨n, hn, hna, hhas⟩ := (hx.nodes e hold).2 q hq
        refine ⟨n, ?_, hna, hhas⟩
        rw [hlist]
        exact mem_write_iff.mpr (.inr ⟨hn, hna ▸ hea⟩)
    · exact ⟨hnull, fun q hq => ⟨_, hself, hea.symm, hcond q hq⟩⟩

/-! ## Conditions -/

/-- The table takes the condition: it is filed already, or there is room for it
in the list. -/
def AddRoom (x : SceneList) (s : SceneInfo) (l : Logic) (c : Cond k) : Prop :=
  ptrHashFind x.pHashTable c.hashKey s.acSceneId = none →
    (∃ n ∈ (s.list l k).walk, n.ucCondCount < 32) ∨ (s.list l k).iNodeNum < 32

instance (x : SceneList) (s : SceneInfo) (l : Logic) (c : Cond k) : Decidable (AddRoom x s l c) :=
  inferInstanceAs (Decidable (ptrHashFind x.pHashTable c.hashKey s.acSceneId = none →
    (∃ n ∈ (s.list l k).walk, n.ucCondCount < 32) ∨ (s.list l k).iNodeNum < 32))

theorem AddRoom.condAdd_isSome {c : Cond k} (h : AddRoom x s l c)
    (hfind : ptrHashFind x.pHashTable c.hashKey s.acSceneId = none) (heap : Nat) :
    (s.list l k).condAdd heap c ≠ none := by
  rw [CondList.condAdd]
  rcases h hfind with ⟨n, hn, hroom⟩ | hroom
  · split
    · exact some_ne_none _
    · rename_i hnone
      rw [find?_eq_none] at hnone
      exact absurd (by simpa using hroom) (hnone n hn)
  · split
    · exact some_ne_none _
    · rw [if_neg (by omega)]
      exact some_ne_none _

theorem fileCond_led {c : Cond k} {iRet : ErrNo} {e : PtrNode} (hx : Led x) (hind : Indexed x)
    (hs : x.scene? a = some s) (hroom : AddRoom x s l c)
    (h : fileCond x a l c = some (x', iRet, e)) : Led x' := by
  have hmem := mem_of_scene? hs
  have hplaced := hind.placed _ hmem
  rcases fileCond_cases hs h with ⟨p, t, d, -, -, ht, -, -, rfl⟩ |
    ⟨y, p, -, hadd, -, rfl, rfl⟩ | ⟨hfind, hfull, -, -, -⟩
  · exact hx.touches hind (.setScene hind ht (.modifyCond fun d _ => d.stCond.hashKey_set c))
  · obtain ⟨hl, ⟨n, hn, hna, d, hd, hda, hdc⟩, -⟩ := condAdd_has (hplaced l k) hadd
    refine hx.write hind hs rfl
      ((hx.counted _ hmem).setList ((hx.counted _ hmem l k).condAdd hadd)) ?_ ?_
    · intro f hf
      rcases mem_cons.mp hf with rfl | hf
      · refine .inr ⟨rfl, nofun, ?_⟩
        rintro _ ⟨⟩
        subst hl
        rw [SceneInfo.Has, list_setList_self]
        exact ⟨n, hn, hna, d, hd, hda, by rw [hdc]⟩
      · exact .inl hf
    · exact fun f _ _ _ q _ hq => hq.setList_condAdd hplaced hadd
  · exact absurd hfull (hroom.condAdd_isSome hfind x.heap)

theorem Led.setManual (hx : Led x) (hind : Indexed x) (hs : x.scene? a = some s) (b : Bool) :
    Led (x.setScene a { s with cManualTriggerFlag := b }) :=
  hx.touches hind (.setScene hind hs
    (.of_list_eq rfl (fun l k => list_setManual s b l k) rfl))

theorem sceneCondAdd_led {c : Cond k} {r : ErrNo} (hx : Led x) (hind : Indexed x)
    (hs : x.scene? a = some s) (hroom : c.isManual l = false → AddRoom x s l c)
    (h : sceneCondAdd x a l c = some (x', r)) : Led x' := by
  rcases sceneCondAdd_cases h with ⟨-, s', hs', rfl⟩ | ⟨hm, x₁, e, hfile, hrest⟩
  · exact hx.setManual hind hs' true
  · have hx₁ := fileCond_led hx hind hs (hroom hm) hfile
    have hind₁ := fileCond_indexed hind hfile
    rcases hrest with ⟨-, rfl⟩ | ⟨-, ⟨b, htrue⟩ | ⟨s₁, hs₁, rfl⟩⟩
    · exact hx₁
    · exact hx₁.touches hind₁ (condTrueInit_touches hind₁ htrue)
    · exact hx₁.touches hind₁
        (.setScene hind₁ hs₁ (.of_eraseTruth_eq (eraseTruth_setListTrue ..)))

end

end Honyar.LocalScene
