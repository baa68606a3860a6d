import Honyar.LocalScene.Enable
import Honyar.LocalScene.Placed

/-!
# The index

Events reach conditions through the hash table only.  `Indexed` says what the
table and the scenes have to do with each other: every condition of a scene is
filed under its text with the id of its scene, a condition is filed under no
other text, no two nodes are filed under one text and id, and no two scenes have
one id.

A refused condition stays filed with no pointer, and a node may outlive its
scene: `Indexed` does not say that every node leads to a condition.  What it
says holds of every state the engine reaches, whatever was deleted through
whichever list.
-/

namespace Honyar.LocalScene

open CText Option SceneList List

variable {l : Logic} {k : Kind}
variable {n : PtrNode} {x x' : SceneList} {a : Nat} {s s' : SceneInfo}

/-! ## The hash table -/

/-- What a node is looked up by. -/
def filedAs (e : CText × PtrNode) : CText × CText := (e.1, e.2.acId.take indexMaxLen)

variable {t : PtrHash} {key paId : CText} {e : CText × PtrNode}

theorem PtrNode.isFor_iff : isFor key paId e = true ↔ filedAs e = (key, paId.take indexMaxLen) := by
  rw [isFor, Bool.and_eq_true, beq_iff_eq, strncmpEq_iff, filedAs, Prod.mk.injEq]

theorem mem_of_ptrHashFind (h : ptrHashFind t key paId = some n) :
    (key, n) ∈ t ∧ n.acId.take indexMaxLen = paId.take indexMaxLen := by
  obtain ⟨⟨key', n'⟩, hfind, rfl⟩ := map_eq_some_iff.mp h
  have hfor := PtrNode.isFor_iff.mp (find?_some hfind)
  rw [filedAs, Prod.mk.injEq] at hfor
  obtain ⟨rfl, hid⟩ := hfor
  exact ⟨mem_of_find?_eq_some hfind, hid⟩

theorem filedAs_ne_of_ptrHashFind (h : ptrHashFind t key paId = none) (he : e ∈ t) :
    filedAs e ≠ (key, paId.take indexMaxLen) := by
  rw [ptrHashFind, map_eq_none_iff, find?_eq_none] at h
  exact fun hfor => h e he (PtrNode.isFor_iff.mpr hfor)

theorem ptrHashDel_sublist (t : PtrHash) (key paId : CText) :
    (ptrHashDel t key paId).Sublist t := eraseP_sublist

theorem mem_ptrHashDel (he : e ∈ t) (hne : filedAs e ≠ (key, paId.take indexMaxLen)) :
    e ∈ ptrHashDel t key paId := by
  rw [ptrHashDel, mem_eraseP_of_neg fun h => hne (PtrNode.isFor_iff.mp h)]
  exact he

section DelAll

variable {α : Type} (f : α → CText)

theorem foldl_ptrHashDel_sublist (xs : List α) (t : PtrHash) :
    (xs.foldl (fun t x => ptrHashDel t (f x) paId) t).Sublist t := by
  induction xs generalizing t with
  | nil => exact List.Sublist.refl t
  | cons x xs ih => exact (ih _).trans (ptrHashDel_sublist t (f x) paId)

theorem mem_foldl_ptrHashDel {xs : List α} (he : e ∈ t)
    (hne : ∀ x ∈ xs, filedAs e ≠ (f x, paId.take indexMaxLen)) :
    e ∈ xs.foldl (fun t x => ptrHashDel t (f x) paId) t := by
  induction xs generalizing t with
  | nil => exact he
  | cons x xs ih =>
    exact ih (mem_ptrHashDel he (hne x mem_cons_self))
      fun y hy => hne y (mem_cons_of_mem x hy)

end DelAll

theorem PtrNode.target_of_condPtr? {p : CondPtr k} (h : n.condPtr? k = some p) :
    n.target = .cond ⟨k, p⟩ := by
  rw [condPtr?] at h
  split at h
  · rename_i k' p' htarget
    split at h
    · rename_i hk
      subst hk
      rw [htarget, ← some.inj h]
    · cases h
  · cases h

/-! ## Agreement -/

/-- The scenes and the hash table agree. -/
structure Indexed (x : SceneList) : Prop where
  addrs : (x.stList.map SceneNode.addr).Nodup
  ids : (x.stList.map fun n => n.stSceneInfo.acSceneId.take indexMaxLen).Nodup
  below : ∀ n ∈ x.stList, n.addr < x.heap
  placed : ∀ n ∈ x.stList, n.stSceneInfo.Placed x.heap
  unique : (x.pHashTable.map filedAs).Nodup
  owner : ∀ e ∈ x.pHashTable, e.2.pstScene < x.heap ∧ ∀ n ∈ x.stList, n.addr = e.2.pstScene →
    e.2.acId.take indexMaxLen = n.stSceneInfo.acSceneId.take indexMaxLen
  filed : ∀ n ∈ x.stList, ∀ p key, n.stSceneInfo.Has p key →
    ∃ e, (key, e) ∈ x.pHashTable ∧ e.pstScene = n.addr ∧ e.target = .cond p
  sound : ∀ e ∈ x.pHashTable, ∀ p, e.2.target = .cond p → p.2.pCondNode < x.heap ∧
    ∀ n ∈ x.stList, n.addr = e.2.pstScene → ∀ key, n.stSceneInfo.Has p key → key = e.1

theorem indexed_init : Indexed .init where
  addrs := nodup_nil
  ids := nodup_nil
  below := by simp [init]
  placed := by simp [init]
  unique := nodup_nil
  owner := by simp [init]
  filed := by simp [init]
  sound := by simp [init]

theorem Indexed.congr (hx : Indexed x) (hlist : x'.stList = x.stList)
    (hhash : x'.pHashTable = x.pHashTable) (hheap : x'.heap = x.heap) : Indexed x' := by
  obtain ⟨ns, t, q, ts, heap⟩ := x'
  simp only at hlist hhash hheap
  subst hlist hhash hheap
  exact ⟨hx.addrs, hx.ids, hx.below, hx.placed, hx.unique, hx.owner, hx.filed,
    hx.sound⟩

theorem SceneList.mem_of_scene? (h : x.scene? a = some s) : (⟨a, s⟩ : SceneNode) ∈ x.stList := by
  obtain ⟨⟨a', s'⟩, hfind, rfl⟩ := map_eq_some_iff.mp h
  obtain ⟨hmem, rfl⟩ := Keyed.mem_and_key_of_find? hfind
  exact hmem

theorem Indexed.scene?_eq_some (hx : Indexed x) {n : SceneNode} (hn : n ∈ x.stList) :
    x.scene? n.addr = some n.stSceneInfo := by
  rw [scene?, (Keyed.find?_eq_some_iff hx.addrs).mpr ⟨hn, rfl⟩]
  rfl

theorem SceneList.mem_setScene {m : SceneNode} (hm : m ∈ (x.setScene a s').stList) :
    m = ⟨a, s'⟩ ∨ m ∈ x.stList ∧ m.addr ≠ a := by
  rcases Keyed.mem_write_iff.mp hm with ⟨n, -, hna, rfl⟩ | hm
  · exact .inl (by rw [← hna])
  · exact .inr hm

/-- Writing to one scene and its part of the table: the other scenes keep their
nodes, and the conditions the scene has are filed. -/
theorem Indexed.write (hx : Indexed x) (hs : x.scene? a = some s)
    (hlist : x'.stList = (x.setScene a s').stList) (hheap : x.heap ≤ x'.heap)
    (hid : s'.acSceneId = s.acSceneId) (hplaced : s'.Placed x'.heap)
    (hunique : (x'.pHashTable.map filedAs).Nodup) (hsub : ∀ e ∈ x'.pHashTable, e ∈ x.pHashTable ∨
      e.2.pstScene = a ∧ e.2.acId.take indexMaxLen = s.acSceneId.take indexMaxLen)
    (hkeep : ∀ e ∈ x.pHashTable,
      e.2.acId.take indexMaxLen ≠ s.acSceneId.take indexMaxLen → e ∈ x'.pHashTable)
    (hfiled : ∀ p key, s'.Has p key →
      ∃ e, (key, e) ∈ x'.pHashTable ∧ e.pstScene = a ∧ e.target = .cond p)
    (hsound : ∀ e ∈ x'.pHashTable, ∀ p, e.2.target = .cond p → p.2.pCondNode < x'.heap ∧
      (e.2.pstScene = a → ∀ key, s'.Has p key → key = e.1)) : Indexed x' := by
  have hmem := SceneList.mem_of_scene? hs
  have hnodes : ∀ m ∈ x'.stList, m = ⟨a, s'⟩ ∨ m ∈ x.stList ∧ m.addr ≠ a :=
    fun m hm => SceneList.mem_setScene (hlist ▸ hm)
  have hidof : ∀ {β : Type} (g : SceneNode → β), g ⟨a, s'⟩ = g ⟨a, s⟩ →
      x'.stList.map g = x.stList.map g := by
    intro β g hg
    rw [hlist, SceneList.setScene, List.map_map]
    apply List.map_congr_left
    intro n hn
    rw [Function.comp_apply]
    split
    · rename_i hna
      rw [Keyed.eq_of_key_eq hx.addrs hn hmem hna, hg]
    · rfl
  refine ⟨?_, ?_, ?_, ?_, hunique, ?_, ?_, ?_⟩
  · rw [hidof SceneNode.addr rfl]
    exact hx.addrs
  · rw [hidof (fun n => n.stSceneInfo.acSceneId.take indexMaxLen) (by simp only [hid])]
    exact hx.ids
  · intro m hm
    refine lt_of_lt_of_le ?_ hheap
    rcases hnodes m hm with rfl | ⟨hm, -⟩
    · exact hx.below ⟨a, s⟩ hmem
    · exact hx.below m hm
  · intro m hm
    rcases hnodes m hm with rfl | ⟨hm, -⟩
    · exact hplaced
    · exact (hx.placed m hm).mono hheap
  · intro e he
    rcases hsub e he with he | ⟨ha, hida⟩
    · refine ⟨lt_of_lt_of_le (hx.owner e he).1 hheap, fun m hm hma => ?_⟩
      rcases hnodes m hm with rfl | ⟨hm, -⟩
      · rw [hid]
        exact (hx.owner e he).2 _ hmem hma
      · exact (hx.owner e he).2 m hm hma
    · refine ⟨ha ▸ lt_of_lt_of_le (hx.below _ hmem) hheap, fun m hm hma => ?_⟩
      rcases hnodes m hm with rfl | ⟨-, hne⟩
      · rw [hid, hida]
      · exact absurd (hma.trans ha) hne
  · intro m hm p key hhas
    rcases hnodes m hm with rfl | ⟨hm, hne⟩
    · exact hfiled p key hhas
    · obtain ⟨e, he, hem, hep⟩ := hx.filed m hm p key hhas
      refine ⟨e, hkeep _ he ?_, hem, hep⟩
      -- the node has the id of its own scene, which is not that of the other
      rw [(hx.owner _ he).2 m hm hem.symm]
      intro hsame
      have := Keyed.eq_of_key_eq hx.ids hm hmem hsame
      exact hne (by rw [this])
  · intro e he p hp
    obtain ⟨hlt, hself⟩ := hsound e he p hp
    refine ⟨hlt, fun m hm hma => ?_⟩
    rcases hnodes m hm with rfl | ⟨hm, hne⟩
    · exact hself hma.symm
    · rcases hsub e he with he | ⟨ha, -⟩
      · exact (hx.sound e he p hp).2 m hm hma
      · exact absurd (hma.trans ha) hne

theorem Indexed.setScene (hx : Indexed x) (hs : x.scene? a = some s) (h : s.Shrinks s') :
    Indexed (x.setScene a s') := by
  have hmem := mem_of_scene? hs
  have hplaced := hx.placed _ hmem
  refine hx.write hs rfl le_rfl h.acSceneId (h.placed hplaced) hx.unique (fun e he => .inl he)
    (fun e he _ => he) (fun p key hhas => hx.filed _ hmem p key (h.has hplaced hhas)) ?_
  intro e he p hp
  obtain ⟨hlt, hkey⟩ := hx.sound e he p hp
  exact ⟨hlt, fun ha key hhas => hkey _ hmem ha.symm key (h.has hplaced hhas)⟩

theorem Indexed.inst (hx : Indexed x) (hs : x.scene? a = some s)
    (hfind : ptrHashFind x.pHashTable key s.acSceneId = none)
    (hlist : x'.stList = (x.setScene a s').stList)
    (hhash : x'.pHashTable = ptrHashInst x.pHashTable key n) (hheap : x.heap ≤ x'.heap)
    (hid : s'.acSceneId = s.acSceneId) (hplaced : s'.Placed x'.heap) (ha : n.pstScene = a)
    (hnid : n.acId = strncpy indexMaxLen s.acSceneId)
    (hnew : ∀ p, n.target = .cond p → x.heap ≤ p.2.pCondNode ∧ p.2.pCondNode < x'.heap)
    (hhas : ∀ p key', s'.Has p key' → s.Has p key' ∨ n.target = .cond p ∧ key' = key) :
    Indexed x' := by
  have htake : n.acId.take indexMaxLen = s.acSceneId.take indexMaxLen := by
    rw [hnid, strncpy, take_take, min_self]
  have hmem := mem_of_scene? hs
  have hold : ∀ p key', s.Has p key' → p.2.pCondNode < x.heap := by
    rintro p key' ⟨m, hm, -, c, hc, hca, -⟩
    exact hca ▸ ((hx.placed _ hmem _ _).below m hm).2 c hc
  refine hx.write hs hlist hheap hid hplaced ?_ ?_ ?_ ?_ ?_
  · rw [hhash, ptrHashInst, map_cons, nodup_cons]
    refine ⟨fun hmem => ?_, hx.unique⟩
    obtain ⟨e, he, hfor⟩ := mem_map.mp hmem
    refine filedAs_ne_of_ptrHashFind hfind he (hfor.trans ?_)
    rw [filedAs, htake]
  · intro e he
    rw [hhash] at he
    rcases mem_cons.mp he with rfl | he
    · exact .inr ⟨ha, htake⟩
    · exact .inl he
  · intro e he _
    rw [hhash]
    exact mem_cons_of_mem _ he
  · intro p key' hp
    rw [hhash]
    rcases hhas p key' hp with hp | ⟨htarget, rfl⟩
    · obtain ⟨e, he, hea, hep⟩ := hx.filed _ hmem p key' hp
      exact ⟨e, mem_cons_of_mem _ he, hea, hep⟩
    · exact ⟨n, mem_cons_self, ha, htarget⟩
  · intro e he p hp
    rw [hhash] at he
    rcases mem_cons.mp he with rfl | he
    · refine ⟨(hnew p hp).2, fun _ key' hhas' => ?_⟩
      rcases hhas p key' hhas' with hs' | ⟨-, hkey⟩
      · exact absurd (hold p key' hs') (not_lt.mpr (hnew p hp).1)
      · exact hkey
    · obtain ⟨hlt, hkey⟩ := hx.sound e he p hp
      refine ⟨lt_of_lt_of_le hlt hheap, fun hea key' hhas' => ?_⟩
      rcases hhas p key' hhas' with hs' | ⟨htarget, -⟩
      · exact hkey _ hmem hea.symm key' hs'
      · exact absurd hlt (not_lt.mpr (hnew p htarget).1)

theorem Indexed.del (hx : Indexed x) (hs : x.scene? a = some s)
    (hlist : x'.stList = (x.setScene a s').stList) (hheap : x'.heap = x.heap) (h : s.Shrinks s')
    (hsub : x'.pHashTable.Sublist x.pHashTable) (hkeep : ∀ e ∈ x.pHashTable,
      e.2.acId.take indexMaxLen ≠ s.acSceneId.take indexMaxLen → e ∈ x'.pHashTable)
    (hhas : ∀ p key, s'.Has p key → ∀ e, (key, e) ∈ x.pHashTable → e.pstScene = a →
      e.target = .cond p → (key, e) ∈ x'.pHashTable) : Indexed x' := by
  have hplaced := hx.placed _ (mem_of_scene? hs)
  refine hx.write hs hlist hheap.ge h.acSceneId (hheap ▸ h.placed hplaced)
    ((hsub.map _).nodup hx.unique) (fun e he => .inl (hsub.subset he)) hkeep ?_ ?_
  · intro p key hp
    obtain ⟨e, he, hea, hep⟩ :=
      hx.filed _ (mem_of_scene? hs) p key (h.has hplaced hp)
    exact ⟨e, hhas p key hp e he hea hep, hea, hep⟩
  · intro e he p hp
    obtain ⟨hlt, hkey⟩ := hx.sound e (hsub.subset he) p hp
    refine ⟨hheap.symm ▸ hlt, fun hea key hhas' => ?_⟩
    exact hkey _ (mem_of_scene? hs) hea.symm key (h.has hplaced hhas')

end Honyar.LocalScene
