import Honyar.LocalScene.Touch

/-!
# The bindings of the scenes

A panel is bound to a scene by its place in the list of the scene and by the node
the hash table keeps for it.  In every state the engine reaches the two lead to
each other (`Bindings`), whatever was refused, or deleted through whichever list:
unlike the nodes for conditions, those for panels never dangle.
-/

namespace Honyar.LocalScene

open CText Option List SceneInfo SceneList Keyed

variable {l : Logic} {k : Kind} {x x' x'' : SceneList} {a : Nat} {s s' : SceneInfo}
variable {key : CText} {e : CText × PtrNode} {c : Cond k} {r : ErrNo}

/-! ## Nodes that go -/

theorem notMem_ptrHashDel {t : PtrHash} (ht : (t.map filedAs).Nodup) {paId : CText}
    (hfor : filedAs e = (key, paId.take indexMaxLen)) : e ∉ ptrHashDel t key paId := by
  refine notMem_eraseP ht fun f => ?_
  rw [PtrNode.isFor_iff, hfor]

theorem filedAs_ne_of_mem_foldl {α : Type} {f : α → CText} {xs : List α} {t : PtrHash}
    (ht : (t.map filedAs).Nodup) {paId : CText}
    (he : e ∈ xs.foldl (fun t x => ptrHashDel t (f x) paId) t) :
    ∀ y ∈ xs, filedAs e ≠ (f y, paId.take indexMaxLen) := by
  induction xs generalizing t with
  | nil => exact fun y hy => absurd hy not_mem_nil
  | cons z zs ih =>
    have hsub := ptrHashDel_sublist t (f z) paId
    intro y hy hfor
    rcases mem_cons.mp hy with rfl | hy
    · exact notMem_ptrHashDel ht hfor ((foldl_ptrHashDel_sublist f zs _).subset he)
    · exact ih ((hsub.map _).nodup ht) he y hy hfor

theorem Indexed.target_of_has (hx : Indexed x) (hs : x.scene? a = some s) {q : AnyPtr}
    (hq : s.Has q key) (he : e ∈ x.pHashTable)
    (hfor : filedAs e = (key, s.acSceneId.take indexMaxLen)) : e.2.target = .cond q := by
  have hmem := mem_of_scene? hs
  obtain ⟨f, hf, hfa, hfq⟩ := hx.filed _ hmem q key hq
  have hsame := eq_of_key_eq hx.unique he hf (by
    rw [hfor, filedAs, (hx.owner _ hf).2 _ hmem hfa.symm])
  rw [hsame, hfq]

theorem Indexed.filedAs_eq (hx : Indexed x) (hs : x.scene? a = some s) (he : e ∈ x.pHashTable)
    (hea : e.2.pstScene = a) : filedAs e = (e.1, s.acSceneId.take indexMaxLen) := by
  rw [filedAs, (hx.owner e he).2 _ (mem_of_scene? hs) hea.symm]

/-! ## What is bound -/

/-- The text a panel is filed under. -/
def ScenePanel.hashKey (n : ScenePanel) : CText := panelHashKey n.acDevId n.acKey n.acValue

/-- The panels of a scene, by the addresses of their nodes and the texts they are
filed under. -/
def SceneInfo.panelKeys (s : SceneInfo) : List (Nat × CText) :=
  s.pstPanel.map fun m => (m.addr, m.stPanel.hashKey)

theorem SceneInfo.mem_panelKeys {p : Nat} :
    (p, key) ∈ s.panelKeys ↔ ∃ m ∈ s.pstPanel, m.addr = p ∧ m.stPanel.hashKey = key := by
  simp only [panelKeys, List.mem_map, Prod.mk.injEq]

theorem SceneInfo.panelKeys_congr (h : s'.pstPanel = s.pstPanel) :
    s'.panelKeys = s.panelKeys := by
  rw [panelKeys, panelKeys, h]

/-- The nodes for panels and the panels of the scenes lead to each other. -/
structure Bindings (x : SceneList) : Prop where
  indexed : Indexed x
  addrs : ∀ n ∈ x.stList, (n.stSceneInfo.panelKeys.map Prod.fst).Nodup ∧
    ∀ q ∈ n.stSceneInfo.panelKeys, q.1 < x.heap
  sound : ∀ e ∈ x.pHashTable, ∀ p, e.2.target = .panel p → ∃ n ∈ x.stList,
    n.addr = e.2.pstScene ∧ (p, e.1) ∈ n.stSceneInfo.panelKeys
  filed : ∀ n ∈ x.stList, ∀ q ∈ n.stSceneInfo.panelKeys,
    ∃ e, (q.2, e) ∈ x.pHashTable ∧ e.pstScene = n.addr ∧ e.target = .panel q.1

theorem bindings_init : Bindings .init where
  indexed := indexed_init
  addrs := by simp [init]
  sound := by simp [init]
  filed := by simp [init]

/-! ## Operations on something else -/

/-- The panels of every scene and the nodes for panels are the same; a scene that
is new has no panels. -/
structure SceneList.KeepsPanels (x x' : SceneList) : Prop where
  heap : x.heap ≤ x'.heap
  before : ∀ m ∈ x'.stList, m.stSceneInfo.panelKeys = [] ∨
    ∃ n ∈ x.stList, n.addr = m.addr ∧ n.stSceneInfo.panelKeys = m.stSceneInfo.panelKeys
  after : ∀ n ∈ x.stList,
    ∃ m ∈ x'.stList, m.addr = n.addr ∧ m.stSceneInfo.panelKeys = n.stSceneInfo.panelKeys
  nodes : ∀ e p, e.2.target = .panel p → (e ∈ x'.pHashTable ↔ e ∈ x.pHashTable)

namespace SceneList.KeepsPanels

theorem refl (x : SceneList) : x.KeepsPanels x where
  heap := le_rfl
  before m hm := .inr ⟨m, hm, rfl, rfl⟩
  after n hn := ⟨n, hn, rfl, rfl⟩
  nodes _ _ _ := .rfl

theorem trans (h : x.KeepsPanels x') (h' : x'.KeepsPanels x'') : x.KeepsPanels x'' where
  heap := h.heap.trans h'.heap
  before o ho := by
    rcases h'.before o ho with hnil | ⟨m, hm, hmo, hpanel⟩
    · exact .inl hnil
    · rcases h.before m hm with hnil | ⟨n, hn, hnm, hpanel'⟩
      · exact .inl (hpanel ▸ hnil)
      · exact .inr ⟨n, hn, hnm.trans hmo, hpanel'.trans hpanel⟩
  after n hn := by
    obtain ⟨m, hm, hmn, hpanel⟩ := h.after n hn
    obtain ⟨o, ho, hom, hpanel'⟩ := h'.after m hm
    exact ⟨o, ho, hom.trans hmn, hpanel'.trans hpanel⟩
  nodes e p hp := (h'.nodes e p hp).trans (h.nodes e p hp)

theorem write (hx : Indexed x) (hs : x.scene? a = some s)
    (hlist : x'.stList = (x.setScene a s').stList) (hheap : x.heap ≤ x'.heap)
    (hpanel : s'.panelKeys = s.panelKeys)
    (hnodes : ∀ e p, e.2.target = .panel p → (e ∈ x'.pHashTable ↔ e ∈ x.pHashTable)) :
    x.KeepsPanels x' where
  heap := hheap
  before m hm := by
    rw [hlist] at hm
    rcases mem_write_iff.mp hm with ⟨n, hn, hna, rfl⟩ | ⟨hm, -⟩
    · have hsame := eq_of_key_eq hx.addrs hn (mem_of_scene? hs) hna
      exact .inr ⟨n, hn, rfl, by rw [hsame, hpanel]⟩
    · exact .inr ⟨m, hm, rfl, rfl⟩
  after n hn := by
    rw [hlist]
    by_cases hna : n.addr = a
    · have hsame := eq_of_key_eq hx.addrs hn (mem_of_scene? hs) hna
      refine ⟨_, mem_write_iff.mpr (.inl ⟨n, hn, hna, rfl⟩), rfl, ?_⟩
      rw [hpanel, hsame]
    · exact ⟨n, mem_write_iff.mpr (.inr ⟨hn, hna⟩), rfl, rfl⟩
  nodes := hnodes

theorem setScene (hx : Indexed x) (hs : x.scene? a = some s)
    (hpanel : s'.panelKeys = s.panelKeys) : x.KeepsPanels (x.setScene a s') :=
  write hx hs rfl le_rfl hpanel fun _ _ _ => .rfl

end SceneList.KeepsPanels

theorem SceneList.Touches.keepsPanels (h : x.Touches x') : x.KeepsPanels x' where
  heap := h.heap.ge
  before m hm := by
    obtain ⟨n, hn, hmn, hframes⟩ := h.exists_before hm
    exact .inr ⟨n, hn, hmn.symm, panelKeys_congr hframes.pstPanel.symm⟩
  after n hn := by
    obtain ⟨m, hm, hmn, hframes⟩ := h.exists_after hn
    exact ⟨m, hm, hmn, panelKeys_congr hframes.pstPanel⟩
  nodes _ _ _ := by rw [h.pHashTable]

theorem Bindings.keeps (hx : Bindings x) (hind : Indexed x') (h : x.KeepsPanels x') :
    Bindings x' where
  indexed := hind
  addrs m hm := by
    rcases h.before m hm with hnil | ⟨n, hn, -, hpanel⟩
    · rw [hnil]
      exact ⟨nodup_nil, fun _ hq => absurd hq not_mem_nil⟩
    · obtain ⟨hnodup, hbelow⟩ := hx.addrs n hn
      rw [← hpanel]
      exact ⟨hnodup, fun q hq => (hbelow q hq).trans_le h.heap⟩
  sound e he p hp := by
    obtain ⟨n, hn, hne, hkeys⟩ := hx.sound e ((h.nodes e p hp).mp he) p hp
    obtain ⟨m, hm, hmn, hpanel⟩ := h.after n hn
    exact ⟨m, hm, hmn.trans hne, hpanel ▸ hkeys⟩
  filed m hm q hq := by
    rcases h.before m hm with hnil | ⟨n, hn, hnm, hpanel⟩
    · rw [hnil] at hq
      cases hq
    · rw [← hpanel] at hq
      obtain ⟨e, he, hen, hep⟩ := hx.filed n hn q hq
      exact ⟨e, (h.nodes (_, e) _ hep).mpr he, hen.trans hnm, hep⟩

/-! ## Conditions -/

theorem CondList.exists_of_mem_conds {x : CondList l k} (h : c ∈ x.conds) :
    ∃ n ∈ x.stList, ∃ d ∈ n.pstCond, d.stCond = c := by
  obtain ⟨n, hn, hc⟩ := mem_flatMap.mp h
  obtain ⟨d, hd, rfl⟩ := List.mem_map.mp hc
  refine ⟨n, ?_, d, hd, rfl⟩
  rw [walk] at hn
  split at hn
  · cases hn
  · exact hn

theorem SceneInfo.pstPanel_condDel {p : CondPtr k} (h : s.condDel l p = some s') :
    s'.pstPanel = s.pstPanel := by
  simp only [condDel, bind_eq_bind, bind_eq_some_iff] at h
  obtain ⟨n, -, c, -, h⟩ := h
  split at h
  · split at h
    · cases h
    · simp only [Option.pure_def, some.injEq] at h
      simp only [← h, modifyList, pstPanel_setList]
  · simp only [Option.pure_def, some.injEq] at h
    simp only [← h, modifySet, modifyList, pstPanel_setList]

theorem fileCond_keepsPanels {iRet : ErrNo} {e : PtrNode} (hx : Indexed x)
    (hs : x.scene? a = some s) (h : fileCond x a l c = some (x', iRet, e)) : x.KeepsPanels x' := by
  have hfiled : ∀ f p, f.2.target = .panel p → (∀ q, e.target ≠ .panel q) →
      (f ∈ ptrHashInst x.pHashTable c.hashKey e ↔ f ∈ x.pHashTable) := by
    intro f p hf he
    refine ⟨fun hmem => ?_, mem_cons_of_mem _⟩
    rcases mem_cons.mp hmem with rfl | hmem
    · exact absurd hf (he p)
    · exact hmem
  rcases fileCond_cases hs h with ⟨p, t, d, -, -, ht, -, -, rfl⟩ |
    ⟨y, p, -, -, -, rfl, rfl⟩ | ⟨-, -, -, rfl, rfl⟩
  · exact .setScene hx ht (panelKeys_congr (pstPanel_setList ..))
  · refine .write hx hs rfl (Nat.le_add_right _ 3)
      (panelKeys_congr (pstPanel_setList ..)) ?_
    exact fun f p hf => hfiled f p hf fun q hq => by cases hq
  · refine ⟨Nat.le_add_right _ 3, fun m hm => .inr ⟨m, hm, rfl, rfl⟩,
      fun n hn => ⟨n, hn, rfl, rfl⟩, ?_⟩
    exact fun f p hf => hfiled f p hf fun q hq => by cases hq

theorem sceneCondAdd_keepsPanels (hx : Indexed x) (hs : x.scene? a = some s)
    (h : sceneCondAdd x a l c = some (x', r)) : x.KeepsPanels x' := by
  rcases sceneCondAdd_cases h with ⟨-, s', hs', rfl⟩ | ⟨-, x₁, e, hfile, hrest⟩
  · exact .setScene hx hs' rfl
  · have hx₁ := fileCond_indexed hx hfile
    have hfiled := fileCond_keepsPanels hx hs hfile
    rcases hrest with ⟨-, rfl⟩ | ⟨-, ⟨b, htrue⟩ | ⟨s₁, hs₁, rfl⟩⟩
    · exact hfiled
    · exact hfiled.trans (condTrueInit_touches hx₁ htrue).keepsPanels
    · refine hfiled.trans (.setScene hx₁ hs₁ (panelKeys_congr ?_))
      exact pstPanel_of_eraseTruth_eq (eraseTruth_setListTrue ..)

theorem condDel_keepsPanels {bit : Kind} (hx : Indexed x) (hs : x.scene? a = some s)
    (h : condDel x a l k bit key = some (x', r)) : x.KeepsPanels x' := by
  obtain ⟨-, -, rfl⟩ | ⟨e, p, s₁, s', hfind, hp, -, hdel, htrue, -, rfl⟩ := condDel_eq_some hs h
  · exact .refl x'
  · have hwords := pstPanel_of_eraseTruth_eq (condDelTrue_eraseTruth htrue)
    refine .write hx hs rfl le_rfl
      (panelKeys_congr (hwords.trans (pstPanel_condDel hdel))) ?_
    -- the node that goes leads to a condition
    intro f q hf
    refine ⟨fun hmem => (ptrHashDel_sublist _ _ _).subset hmem, fun hmem => ?_⟩
    refine mem_ptrHashDel hmem fun hfor => ?_
    obtain ⟨he, hid⟩ := mem_of_ptrHashFind hfind
    have hsame := eq_of_key_eq hx.unique hmem he (by rw [hfor, filedAs, hid])
    rw [hsame, e.target_of_condPtr? hp] at hf
    cases hf

theorem sceneCondDel_keepsPanels (hx : Indexed x) (hs : x.scene? a = some s)
    (h : sceneCondDel x a l c = some (x', r)) : x.KeepsPanels x' := by
  rcases sceneCondDel_cases h with ⟨-, s', hs', rfl⟩ | ⟨-, hdel⟩
  · exact .setScene hx hs' rfl
  · exact condDel_keepsPanels hx hs hdel

theorem condClear_keepsPanels (hx : Indexed x) (h : condClear x a l k = some x') :
    x.KeepsPanels x' := by
  obtain ⟨s, hs, -, rfl⟩ := condClear_eq_some h
  refine .write hx hs rfl le_rfl (panelKeys_congr (pstPanel_setList ..))
    fun f q hf => ⟨fun hmem => (foldl_ptrHashDel_sublist _ _ _).subset hmem, fun hmem => ?_⟩
  -- what is cleared are conditions, and their nodes lead to them
  refine mem_foldl_ptrHashDel _ hmem fun c hc hfor => ?_
  obtain ⟨n, hn, d, hd, rfl⟩ := CondList.exists_of_mem_conds hc
  have hhas : s.Has ⟨k, l, n.addr, d.addr⟩ d.stCond.hashKey := ⟨n, hn, rfl, d, hd, rfl, rfl⟩
  rw [hx.target_of_has hs hhas hmem hfor] at hf
  cases hf

theorem sceneCondClear_keepsPanels (hx : Indexed x) (h : sceneCondClear x a l k = some x') :
    x.KeepsPanels x' := by
  cases l <;> cases k <;> exact condClear_keepsPanels hx h

theorem hySceneAdd_keepsPanels {i : SceneText} : x.KeepsPanels (hySceneAdd x i) := by
  cases hget : sceneListGet x i.acSceneId with
  | some b => exact (hySceneAdd_touches hget).keepsPanels
  | none =>
    simp only [hySceneAdd, hget]
    refine ⟨Nat.le_succ _, fun m hm => ?_, fun n hn => ⟨n, mem_cons_of_mem _ hn, rfl, rfl⟩,
      fun _ _ _ => .rfl⟩
    rcases mem_cons.mp hm with rfl | hm
    · exact .inl rfl
    · exact .inr ⟨m, hm, rfl, rfl⟩

/-! ## Panels -/

theorem PtrNode.target_of_panelPtr? {n : PtrNode} {b : Nat} (h : n.panelPtr? = some b) :
    n.target = .panel b := by
  rw [panelPtr?] at h
  split at h
  · rename_i b' htarget
    rw [htarget, some.inj h]
  · cases h

theorem Bindings.write (hx : Bindings x) (hs : x.scene? a = some s) (hind : Indexed x')
    (hlist : x'.stList = (x.setScene a s').stList) (hheap : x.heap ≤ x'.heap)
    (haddrs : (s'.panelKeys.map Prod.fst).Nodup ∧ ∀ q ∈ s'.panelKeys, q.1 < x'.heap)
    (hsub : ∀ e ∈ x'.pHashTable, e ∈ x.pHashTable ∨ e.2.pstScene = a)
    (hown : ∀ e ∈ x'.pHashTable, e.2.pstScene = a → ∀ p, e.2.target = .panel p →
      (p, e.1) ∈ s'.panelKeys)
    (hkeep : ∀ e ∈ x.pHashTable, e.2.acId.take indexMaxLen ≠ s.acSceneId.take indexMaxLen →
      e ∈ x'.pHashTable)
    (hfiled : ∀ q ∈ s'.panelKeys, ∃ e, (q.2, e) ∈ x'.pHashTable ∧ e.pstScene = a ∧
      e.target = .panel q.1) : Bindings x' := by
  have hmem := mem_of_scene? hs
  have hnodes : ∀ m ∈ x'.stList, m = ⟨a, s'⟩ ∨ m ∈ x.stList ∧ m.addr ≠ a :=
    fun m hm => mem_setScene (hlist ▸ hm)
  refine ⟨hind, fun m hm => ?_, fun e he p hp => ?_, fun m hm q hq => ?_⟩
  · rcases hnodes m hm with rfl | ⟨hm, -⟩
    · exact haddrs
    · exact ⟨(hx.addrs m hm).1, fun q hq => ((hx.addrs m hm).2 q hq).trans_le hheap⟩
  · by_cases hea : e.2.pstScene = a
    · refine ⟨⟨a, s'⟩, ?_, hea.symm, hown e he hea p hp⟩
      rw [hlist]
      exact mem_write_iff.mpr (.inl ⟨⟨a, s⟩, hmem, rfl, rfl⟩)
    · obtain ⟨n, hn, hne, hkeys⟩ := hx.sound e ((hsub e he).resolve_right hea) p hp
      refine ⟨n, ?_, hne, hkeys⟩
      rw [hlist]
      exact mem_write_iff.mpr (.inr ⟨hn, hne ▸ hea⟩)
  · rcases hnodes m hm with rfl | ⟨hm, hne⟩
    · exact hfiled q hq
    · obtain ⟨e, he, hem, hep⟩ := hx.filed m hm q hq
      refine ⟨e, hkeep _ he fun hid => hne ?_, hem, hep⟩
      rw [(hx.indexed.owner _ he).2 m hm hem.symm] at hid
      exact congrArg SceneNode.addr (eq_of_key_eq hx.indexed.ids hm hmem hid)

theorem Bindings.mem_panelKeys (hx : Bindings x) (hs : x.scene? a = some s) (he : e ∈ x.pHashTable)
    (hea : e.2.pstScene = a) {p : Nat} (hp : e.2.target = .panel p) : (p, e.1) ∈ s.panelKeys := by
  obtain ⟨n, hn, hne, hkeys⟩ := hx.sound e he p hp
  have hsame := eq_of_key_eq hx.indexed.addrs hn (mem_of_scene? hs)
    (hne.trans hea)
  rw [hsame] at hkeys
  exact hkeys

theorem SceneInfo.panelKeys_setEnable (s : SceneInfo) (b : Nat) (acEnable : CText) :
    ({ s with
      pstPanel := s.pstPanel.map fun m =>
        if m.addr = b then { m with stPanel := { m.stPanel with acEnable := acEnable } }
        else m } : SceneInfo).panelKeys = s.panelKeys := by
  rw [panelKeys, panelKeys, List.map_map]
  refine map_congr_left fun m _ => ?_
  rw [Function.comp_apply]
  split <;> rfl

theorem sceneBind_bindings {i : ScenePanel} (hx : Bindings x) (h : sceneBind x a i = some x') :
    Bindings x' := by
  have hind := sceneBind_indexed hx.indexed h
  obtain ⟨s, hs, ⟨e, b, t, -, -, ht, rfl⟩ | ⟨-, rfl⟩⟩ := sceneBind_eq_some h
  · exact hx.keeps hind (.setScene hx.indexed ht (t.panelKeys_setEnable b _))
  · have hmem := mem_of_scene? hs
    have hkeys : ({ s with pstPanel := s.pstPanel ++ [⟨x.heap, i⟩] } : SceneInfo).panelKeys =
        s.panelKeys ++ [(x.heap, i.hashKey)] := map_append
    refine hx.write hs hind rfl (Nat.le_add_right _ 2) ?_ ?_ ?_
      (fun e he _ => mem_cons_of_mem _ he) ?_
    · -- the address of the new panel is above all others
      obtain ⟨hnodup, hbelow⟩ := hx.addrs _ hmem
      rw [hkeys]
      refine ⟨?_, fun q hq => ?_⟩
      · rw [map_append, nodup_append]
        refine ⟨hnodup, nodup_singleton _, ?_⟩
        rintro b hb c hc rfl
        obtain ⟨q, hq, rfl⟩ := List.mem_map.mp hb
        rw [map_singleton, mem_singleton] at hc
        exact absurd hc (hbelow q hq).ne
      · rcases mem_append.mp hq with hq | hq
        · exact (hbelow q hq).trans_le (Nat.le_add_right _ 2)
        · rw [mem_singleton.mp hq]
          exact Nat.lt_add_of_pos_right two_pos
    · intro e he
      rcases mem_cons.mp he with rfl | he
      · exact .inr rfl
      · exact .inl he
    · intro e he hea p hp
      rw [hkeys]
      rcases mem_cons.mp he with rfl | he
      · cases hp
        exact mem_append_right _ mem_cons_self
      · exact mem_append_left _ (hx.mem_panelKeys hs he hea hp)
    · intro q hq
      rw [hkeys] at hq
      rcases mem_append.mp hq with hq | hq
      · obtain ⟨e, he, hea, hep⟩ := hx.filed _ hmem q hq
        exact ⟨e, mem_cons_of_mem _ he, hea, hep⟩
      · rw [mem_singleton.mp hq]
        exact ⟨_, mem_cons_self, rfl, rfl⟩

theorem SceneInfo.mem_panelKeys_filter {b : Nat} {q : Nat × CText} :
    q ∈ ({ s with pstPanel := s.pstPanel.filter (·.addr != b) } : SceneInfo).panelKeys ↔
      q ∈ s.panelKeys ∧ q.1 ≠ b := by
  obtain ⟨p, key⟩ := q
  simp only [mem_panelKeys, mem_filter, bne_iff_ne, ne_eq]
  constructor
  · rintro ⟨m, ⟨hm, hne⟩, rfl, hkey⟩
    exact ⟨⟨m, hm, rfl, hkey⟩, hne⟩
  · rintro ⟨⟨m, hm, rfl, hkey⟩, hne⟩
    exact ⟨m, ⟨hm, hne⟩, rfl, hkey⟩

theorem sceneUnbind_bindings {i : ScenePanel} (hx : Bindings x)
    (h : sceneUnbind x a i = some (x', r)) : Bindings x' := by
  have hind := sceneUnbind_indexed hx.indexed h
  obtain ⟨s, hs, ⟨e, b, hfind, hb, hea, rfl⟩ | rfl⟩ := sceneUnbind_eq_some h
  · have hmem := mem_of_scene? hs
    obtain ⟨he, hid⟩ := mem_of_ptrHashFind hfind
    have htarget := e.target_of_panelPtr? hb
    obtain ⟨hnodup, hbelow⟩ := hx.addrs _ hmem
    have hbound := hx.mem_panelKeys hs he hea htarget
    refine hx.write hs hind rfl le_rfl ⟨?_, fun q hq => ?_⟩
      (fun f hf => .inl ((ptrHashDel_sublist _ _ _).subset hf)) ?_
      (fun f hf hne => mem_ptrHashDel hf (filedAs_ne_of_id hne)) ?_
    · exact ((filter_sublist.map _).map _).nodup hnodup
    · exact hbelow q (mem_panelKeys_filter.mp hq).1
    · intro f hf hfa p hp
      have hf' := (ptrHashDel_sublist _ _ _).subset hf
      have hfp := hx.mem_panelKeys hs hf' hfa hp
      refine mem_panelKeys_filter.mpr ⟨hfp, fun hpb : p = b => ?_⟩
      -- the panel that goes is filed under one text
      have hkey : f.1 = panelHashKey i.acDevId i.acKey i.acValue :=
        congrArg Prod.snd (eq_of_key_eq hnodup hfp hbound hpb)
      refine notMem_ptrHashDel hx.indexed.unique ?_ hf
      rw [hx.indexed.filedAs_eq hs hf' hfa, hkey]
    · intro q hq
      obtain ⟨hq, hne⟩ := mem_panelKeys_filter.mp hq
      obtain ⟨f, hf, hfa, hfq⟩ := hx.filed _ hmem q hq
      refine ⟨f, mem_ptrHashDel hf fun hfor => hne ?_, hfa, hfq⟩
      have hsame := eq_of_key_eq hx.indexed.unique hf he (by rw [hfor, filedAs, hid])
      rw [congrArg (fun g => g.2.target) hsame, htarget, PtrTarget.panel.injEq] at hfq
      exact hfq.symm
  · exact hx

/-! ## Scenes -/

theorem Bindings.filter (hx : Bindings x) (hs : x.scene? a = some s) (hind : Indexed x')
    (hlist : x'.stList = x.stList.filter (·.addr != a)) (hheap : x'.heap = x.heap)
    (hhash : x'.pHashTable = s.pstPanel.foldl (fun h n =>
      ptrHashDel h (panelHashKey n.stPanel.acDevId n.stPanel.acKey n.stPanel.acValue)
        s.acSceneId) x.pHashTable) : Bindings x' := by
  have hnodes : ∀ n, n ∈ x'.stList ↔ n ∈ x.stList ∧ n.addr ≠ a := by
    intro n
    rw [hlist, mem_filter]
    simp
  refine ⟨hind, fun n hn => ?_, fun e he p hp => ?_, fun n hn q hq => ?_⟩
  · rw [hheap]
    exact hx.addrs n ((hnodes n).mp hn).1
  · rw [hhash] at he
    have hold := (foldl_ptrHashDel_sublist _ _ _).subset he
    obtain ⟨n, hn, hne, hkeys⟩ := hx.sound e hold p hp
    refine ⟨n, (hnodes n).mpr ⟨hn, fun hna => ?_⟩, hne, hkeys⟩
    -- the panel of a node of the scene is one that was deleted
    have hea : e.2.pstScene = a := hne.symm.trans hna
    obtain ⟨m, hm, -, hkey⟩ := SceneInfo.mem_panelKeys.mp (hx.mem_panelKeys hs hold hea hp)
    refine filedAs_ne_of_mem_foldl hx.indexed.unique he m hm ?_
    rw [hx.indexed.filedAs_eq hs hold hea, ← hkey]
    rfl
  · obtain ⟨hn, hne⟩ := (hnodes n).mp hn
    obtain ⟨e, he, hen, heq⟩ := hx.filed n hn q hq
    refine ⟨e, ?_, hen, heq⟩
    rw [hhash]
    refine mem_foldl_ptrHashDel _ he fun _ _ => filedAs_ne_of_id fun hid => hne ?_
    rw [(hx.indexed.owner _ he).2 n hn hen.symm] at hid
    exact congrArg SceneNode.addr
      (eq_of_key_eq hx.indexed.ids hn (mem_of_scene? hs) hid)

theorem sceneListDel_bindings {i : CText} (hx : Bindings x) (h : sceneListDel x i = some (x', r)) :
    Bindings x' := by
  have hind := sceneListDel_indexed hx.indexed h
  obtain rfl | ⟨a, x₁, x₂, x₃, x₄, s, -, h₁, h₂, h₃, h₄, hs, rfl⟩ := sceneListDel_eq_some h
  · exact hx
  · have hclear : ∀ {z z' : SceneList} {l : Logic} {k : Kind}, Bindings z →
        condClear z a l k = some z' → Bindings z' := fun hz hclear =>
      hz.keeps (condClear_indexed hz.indexed hclear) (condClear_keepsPanels hz.indexed hclear)
    have hx₄ := hclear (hclear (hclear (hclear hx h₁) h₂) h₃) h₄
    exact hx₄.filter hs hind rfl rfl rfl

/-! ## Runs -/

section

variable {y y' : Engine} {os : List Effect}

theorem Requested.bindings {act : Act} (hx : Bindings x) (h : Requested x act x') :
    Bindings x' := by
  have hind := h.indexed hx.indexed
  cases h with
  | absent => exact hx
  | sceneAdd i => exact hx.keeps hind hySceneAdd_keepsPanels
  | sceneDel h => exact sceneListDel_bindings hx h
  | condAdd _ hs h => exact hx.keeps hind (sceneCondAdd_keepsPanels hx.indexed hs h)
  | condDel _ hs h => exact hx.keeps hind (sceneCondDel_keepsPanels hx.indexed hs h)
  | condClear _ _ h => exact hx.keeps hind (sceneCondClear_keepsPanels hx.indexed h)
  | bind h => exact sceneBind_bindings hx h
  | unbind h => exact sceneUnbind_bindings hx h

theorem step_bindings {act : Act} (hy : Bindings y.list) (h : y.step act = some (y', os)) :
    Bindings y'.list := by
  cases hact : act.isRequest with
  | true => exact (step_requested hy.indexed hact h).bindings hy
  | false =>
    exact hy.keeps (step_indexed hy.indexed h) (step_touches hy.indexed hact h).keepsPanels

theorem run_bindings {as : List Act} (h : Run.run Engine.step .init as = some (y, os)) :
    Bindings y.list :=
  Run.run_preserves (I := fun y => Bindings y.list) (fun _ _ _ _ => step_bindings) bindings_init h

end

end Honyar.LocalScene
