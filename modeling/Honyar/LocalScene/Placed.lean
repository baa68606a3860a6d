import Honyar.LocalScene.Del
import Honyar.LocalScene.Frame

/-!
# Which conditions a scene has

Where the conditions of a scene are in memory and under which text each of them
is filed, whatever the counters of its lists say: a condition may be deleted
through a list that is not its own, and from then on the lists count wrong.

An operation other than an addition has no condition in the end that was not
there before, under the same text (`Shrinks`), and an addition has exactly one
more.
-/

namespace Honyar.LocalScene

open Option List CondSetNode Keyed CondList

variable {l : Logic} {k : Kind}
variable {n : CondSetNode k} {a : Nat}

/-- A set without its number and its truth. -/
def CondSetNode.bare (n : CondSetNode k) : CondSetNode k :=
  { n with iCondSetIndex := 0, uiCondTrue := 0 }

theorem CondSetNode.mem_modifyNode {f : Cond k → Cond k} {c : CondNode k} :
    c ∈ (n.modifyNode a f).pstCond ↔
      (∃ d ∈ n.pstCond, d.addr = a ∧ c = { d with stCond := f d.stCond }) ∨
        c ∈ n.pstCond ∧ c.addr ≠ a := mem_write_iff

theorem CondSetNode.bare_wf (n : CondSetNode k) : n.bare.Wf ↔ n.Wf :=
  ⟨fun h => ⟨h.index, h.count, h.pos, h.le, h.addr⟩,
    fun h => ⟨h.index, h.count, h.pos, h.le, h.addr⟩⟩

/-! ## Lists -/

namespace CondList

variable {x y z : CondList l k} {heap : Nat}

/-- The list has a condition filed under `key` at `b`, in the set at `a`. -/
def Has (x : CondList l k) (a b : Nat) (key : CText) : Prop :=
  ∃ n ∈ x.stList, n.addr = a ∧ ∃ c ∈ n.pstCond, c.addr = b ∧ c.stCond.hashKey = key

/-- The chains of the list are chains of memory below `heap`. -/
structure Placed (x : CondList l k) (heap : Nat) : Prop extends x.Chained where
  below : x.Below heap

/-- The chains of `y` are chains if those of `x` are, and `y` has then no
condition that `x` has not. -/
structure Shrinks (x y : CondList l k) : Prop where
  placed {heap : Nat} : x.Placed heap → y.Placed heap
  has {heap a b : Nat} {key : CText} : x.Placed heap → y.Has a b key → x.Has a b key

theorem Shrinks.refl (x : CondList l k) : x.Shrinks x := ⟨fun h => h, fun _ h => h⟩

theorem Shrinks.trans (h : x.Shrinks y) (h' : y.Shrinks z) : x.Shrinks z :=
  ⟨fun hx => h'.placed (h.placed hx), fun hx hz => h.has hx (h'.has (h.placed hx) hz)⟩

theorem Placed.mono {heap' : Nat} (h : x.Placed heap) (hle : heap ≤ heap') : x.Placed heap' := by
  refine ⟨h.toChained, fun n hn => ⟨lt_of_lt_of_le (h.below n hn).1 hle, fun c hc => ?_⟩⟩
  exact lt_of_lt_of_le ((h.below n hn).2 c hc) hle

/-- Taking sets away, ordering them anew, numbering them and writing their
truth. -/
theorem Shrinks.of_subperm
    (h : (y.stList.map CondSetNode.bare).Subperm (x.stList.map CondSetNode.bare)) :
    x.Shrinks y := by
  have hmem : ∀ m ∈ y.stList, ∃ n ∈ x.stList, n.bare = m.bare := by
    intro m hm
    exact List.mem_map.mp (h.subset (List.mem_map_of_mem hm))
  refine ⟨@fun heap hx => ⟨⟨?_, ?_⟩, ?_⟩, @fun _ a b key _ => ?_⟩
  · have haddr : ∀ z : CondList l k, z.stList.map addr =
        (z.stList.map bare).map addr := by
      intro z
      rw [List.map_map]
      rfl
    obtain ⟨ns, hperm, hsub⟩ := h
    have hnodup := hx.addr
    rw [haddr] at hnodup ⊢
    exact (hperm.map _).nodup_iff.mp ((hsub.map _).nodup hnodup)
  · intro m hm
    obtain ⟨n, hn, hnm⟩ := hmem m hm
    rw [← m.bare_wf, ← hnm, n.bare_wf]
    exact hx.sets n hn
  · intro m hm
    obtain ⟨n, hn, hnm⟩ := hmem m hm
    have hbelow : n.bare.addr < heap ∧ ∀ c ∈ n.bare.pstCond, c.addr < heap := hx.below n hn
    rw [hnm] at hbelow
    exact hbelow
  · rintro ⟨m, hm, hma, hc⟩
    obtain ⟨n, hn, hnm⟩ := hmem m hm
    have haddr : n.bare.addr = m.bare.addr := by rw [hnm]
    have hconds : n.bare.pstCond = m.bare.pstCond := by rw [hnm]
    refine ⟨n, hn, haddr.trans hma, ?_⟩
    rw [show n.pstCond = m.pstCond from hconds]
    exact hc

theorem Shrinks.of_stList_eq (h : y.stList = x.stList) : x.Shrinks y :=
  .of_subperm (h ▸ List.Subperm.refl _)

theorem Shrinks.unlink (x : CondList l k) (a : Nat) : x.Shrinks (x.unlink a) :=
  .of_subperm (filter_sublist.map _).subperm

theorem Shrinks.clear (x : CondList l k) : x.Shrinks x.clear :=
  .of_subperm ((drop_sublist _ _).map _).subperm

theorem Shrinks.updateIndex (x : CondList l k) : x.Shrinks x.updateIndex := by
  refine .of_subperm ?_
  rw [CondList.updateIndex]
  split
  · exact List.Subperm.refl _
  · rw [map_updateIndexFrom fun _ _ => rfl]

/-- Writing to the conditions of one set, or taking some of them away. -/
theorem Shrinks.modifySet {f : CondSetNode k → CondSetNode k} (haddr : ∀ n, (f n).addr = n.addr)
    (hset : x.Chained → ∀ n ∈ x.stList, n.addr = a → (f n).Wf ∧
      ∀ c ∈ (f n).pstCond, ∃ d ∈ n.pstCond,
        d.addr = c.addr ∧ d.stCond.hashKey = c.stCond.hashKey) : x.Shrinks (x.modifySet a f) := by
  refine ⟨fun hx => ⟨⟨?_, ?_⟩, ?_⟩, fun hx => ?_⟩
  · rw [map_modifySet haddr]
    exact hx.addr
  · intro m hm
    rcases mem_modifySet.mp hm with ⟨n, hn, hna, rfl⟩ | ⟨hm, -⟩
    · exact (hset hx.toChained n hn hna).1
    · exact hx.sets m hm
  · intro m hm
    rcases mem_modifySet.mp hm with ⟨n, hn, hna, rfl⟩ | ⟨hm, -⟩
    · refine ⟨by rw [haddr]; exact (hx.below n hn).1, fun c hc => ?_⟩
      obtain ⟨d, hd, hdc, -⟩ := (hset hx.toChained n hn hna).2 c hc
      exact hdc ▸ (hx.below n hn).2 d hd
    · exact hx.below m hm
  · rintro ⟨m, hm, hmb, c, hc, hcb, hkey⟩
    rcases mem_modifySet.mp hm with ⟨n, hn, hna, rfl⟩ | ⟨hm, -⟩
    · obtain ⟨d, hd, hdc, hdk⟩ := (hset hx.toChained n hn hna).2 c hc
      exact ⟨n, hn, haddr n ▸ hmb, d, hd, hdc.trans hcb, hdk.trans hkey⟩
    · exact ⟨m, hm, hmb, c, hc, hcb, hkey⟩

end CondList

/-! ## One condition more -/

theorem Kind.perm_instSet {α : Type} (k : Kind) (xs : List α) (x : α) :
    (k.instSet xs x).Perm (x :: xs) := by
  cases k with
  | time => exact perm_append_singleton x xs
  | event => exact List.Perm.refl _

namespace CondList

variable {x y : CondList l k} {heap : Nat} {c : Cond k} {p : CondPtr k}

theorem openSet_bare (hx : x.Placed heap) (c : Cond k) :
    ((x.instSet (.new heap)).addCond heap (heap + 1) c).stList.map CondSetNode.bare =
      (k.instSet x.stList (.single heap 0 c)).map CondSetNode.bare := by
  let g : CondSetNode k → CondSetNode k := fun n =>
    if n.addr = heap then n.addNode (heap + 1) c else n
  have hnumber : ∀ (n : CondSetNode k) (i : Nat),
      (g { n with iCondSetIndex := i }).bare = (g n).bare := by
    intro n i
    by_cases h : n.addr = heap
    · simp only [g]
      rw [if_pos h, if_pos h]
      rfl
    · simp only [g]
      rw [if_neg h, if_neg h]
      rfl
  have hnew : g (.new heap) = .single heap 0 c := by
    simp [g, CondSetNode.new, CondSetNode.addNode, CondSetNode.single, CondSetNode.nextIndex]
  have hold : x.stList.map g = x.stList := by
    rw [show x.stList.map g = x.stList.map fun n => if n.addr = heap then _ else n from rfl]
    exact map_write_eq_self fun n hn hna => absurd hna (ne_of_lt (hx.below n hn).1)
  have hinst : (k.instSet x.stList (.new heap)).map g = k.instSet x.stList (.single heap 0 c) := by
    cases k with
    | time => rw [Kind.instSet, map_append, hold, map_singleton, hnew]; rfl
    | event => rw [Kind.instSet, map_cons, hold, hnew]; rfl
  have hindex : ((x.instSet (.new heap)).stList.map g).map CondSetNode.bare =
      ((k.instSet x.stList (.new heap)).map g).map CondSetNode.bare := by
    rw [instSet, updateIndex, List.map_map, List.map_map]
    split
    · rfl
    · exact map_updateIndexFrom (g := CondSetNode.bare ∘ g) hnumber _ _
  rw [← hinst]
  exact hindex

theorem Placed.single (hx : x.Placed heap) (c : Cond k) :
    ({ x with stList := .single heap 0 c :: x.stList } : CondList l k).Placed (heap + 2) := by
  refine ⟨⟨?_, ?_⟩, ?_⟩
  · rw [map_cons, nodup_cons]
    exact ⟨hx.below.addr_notMem, hx.addr⟩
  · intro n hn
    rcases mem_cons.mp hn with rfl | hn
    · exact CondSetNode.single_wf heap 0 c
    · exact hx.sets n hn
  · intro n hn
    rcases mem_cons.mp hn with rfl | hn
    · simp [CondSetNode.single]
    · exact (hx.mono (Nat.le_add_right _ _)).below n hn

theorem condAdd_pCondNode (h : x.condAdd heap c = some (y, p)) : p.pCondNode = heap + 1 := by
  rw [condAdd] at h
  split at h
  · simp only [some.injEq, Prod.mk.injEq] at h
    rw [← h.2]
  · split at h
    · cases h
    · simp only [some.injEq, Prod.mk.injEq] at h
      rw [← h.2]

theorem condAdd_placed (hx : x.Placed heap) (h : x.condAdd heap c = some (y, p)) :
    y.Placed (heap + 2) ∧ ∀ a b key, y.Has a b key →
      x.Has a b key ∨ p = ⟨l, a, b⟩ ∧ key = c.hashKey := by
  rw [condAdd] at h
  split at h
  · -- a set has room
    rename_i n hfind
    simp only [some.injEq, Prod.mk.injEq] at h
    obtain ⟨rfl, rfl⟩ := h
    have hn : n ∈ x.stList := by
      have := mem_of_find?_eq_some hfind
      rw [walk] at this
      split at this
      · cases this
      · exact this
    have hroom : n.ucCondCount < 32 := by simpa using find?_some hfind
    have hsame : ∀ m ∈ x.stList, m.addr = n.addr → m = n :=
      fun m hm => eq_of_key_eq hx.addr hm hn
    have hfresh : ∀ d ∈ n.pstCond, d.addr ≠ heap + 1 := by
      intro d hd
      have := (hx.below n hn).2 d hd
      omega
    refine ⟨⟨⟨?_, ?_⟩, ?_⟩, ?_⟩
    · have haddr := map_modifySet (g := addr)
        (f := fun n : CondSetNode k => n.addNode (heap + 1) c) (fun _ => rfl) x n.addr
      exact haddr ▸ hx.addr
    · intro m hm
      rcases mem_write_iff.mp hm with ⟨n', hn', hna, rfl⟩ | ⟨hm, -⟩
      · rw [hsame n' hn' hna]
        exact (hx.sets n hn).addNode hroom hfresh c
      · exact hx.sets m hm
    · intro m hm
      have hbelow := (hx.mono (Nat.le_add_right heap 2)).below
      rcases mem_write_iff.mp hm with ⟨n', hn', hna, rfl⟩ | ⟨hm, -⟩
      · refine ⟨(hbelow n' hn').1, fun d hd => ?_⟩
        rcases mem_append.mp hd with hd | hd
        · exact (hbelow n' hn').2 d hd
        · rw [mem_singleton.mp hd]
          exact Nat.lt_succ_self _
      · exact hbelow m hm
    · rintro a b key ⟨m, hm, hma, d, hd, hdb, hkey⟩
      rcases mem_write_iff.mp hm with ⟨n', hn', hna, rfl⟩ | ⟨hm, -⟩
      · rcases mem_append.mp hd with hd | hd
        · exact .inl ⟨n', hn', hma, d, hd, hdb, hkey⟩
        · rw [mem_singleton.mp hd] at hdb hkey
          refine .inr ⟨?_, hkey.symm⟩
          rw [← hma, ← hdb, ← hna]
          rfl
      · exact .inl ⟨m, hm, hma, d, hd, hdb, hkey⟩
  · -- a set is opened
    split at h
    · cases h
    · simp only [some.injEq, Prod.mk.injEq] at h
      obtain ⟨rfl, rfl⟩ := h
      have hshrinks : Shrinks { x with stList := .single heap 0 c :: x.stList }
          ((x.instSet (.new heap)).addCond heap (heap + 1) c) := by
        refine .of_subperm ?_
        rw [openSet_bare hx]
        exact ((k.perm_instSet _ _).map _).subperm
      refine ⟨hshrinks.placed (hx.single c), fun a b key hy => ?_⟩
      obtain ⟨m, hm, hma, d, hd, hdb, hkey⟩ := hshrinks.has (hx.single c) hy
      rcases mem_cons.mp hm with rfl | hm
      · rw [mem_singleton.mp hd] at hdb hkey
        exact .inr ⟨by rw [← hma, ← hdb]; rfl, hkey.symm⟩
      · exact .inl ⟨m, hm, hma, d, hd, hdb, hkey⟩

/-- An addition puts the condition where it says, into the list it was called
with, and takes none away. -/
theorem condAdd_has (hx : x.Placed heap) (h : x.condAdd heap c = some (y, p)) :
    p.acLogic = l ∧ (∃ n ∈ y.stList, n.addr = p.pCondSetNode ∧ ∃ d ∈ n.pstCond,
      d.addr = p.pCondNode ∧ d.stCond = c) ∧ ∀ a b key, x.Has a b key → y.Has a b key := by
  have hy := (condAdd_placed hx h).1
  rw [condAdd] at h
  split at h
  · -- a set has room
    rename_i n hfind
    simp only [some.injEq, Prod.mk.injEq] at h
    obtain ⟨rfl, rfl⟩ := h
    have hn : n ∈ x.stList := by
      have := mem_of_find?_eq_some hfind
      rw [walk] at this
      split at this
      · cases this
      · exact this
    refine ⟨rfl, ⟨n.addNode (heap + 1) c, mem_write_iff.mpr (.inl ⟨n, hn, rfl, rfl⟩), rfl,
      ⟨heap + 1, n.nextIndex, c⟩, mem_append_right _ mem_cons_self, rfl, rfl⟩, ?_⟩
    rintro a b key ⟨m, hm, hma, d, hd, hdb, hkey⟩
    by_cases hmn : m.addr = n.addr
    · exact ⟨m.addNode (heap + 1) c, mem_write_iff.mpr (.inl ⟨m, hm, hmn, rfl⟩), hma, d,
        mem_append_left _ hd, hdb, hkey⟩
    · exact ⟨m, mem_write_iff.mpr (.inr ⟨hm, hmn⟩), hma, d, hd, hdb, hkey⟩
  · -- a set is opened
    split at h
    · cases h
    · simp only [some.injEq, Prod.mk.injEq] at h
      obtain ⟨rfl, rfl⟩ := h
      have hperm : (((x.instSet (.new heap)).addCond heap (heap + 1) c).stList.map
          bare).Perm ((.single heap 0 c :: x.stList).map bare) := by
        rw [openSet_bare hx]
        exact (k.perm_instSet _ _).map _
      obtain ⟨n, hn, hbare⟩ := List.mem_map.mp (hperm.mem_iff.mpr mem_cons_self)
      have haddr : n.addr = heap := congrArg addr hbare
      have hconds : n.pstCond = [⟨heap + 1, 0, c⟩] := congrArg pstCond hbare
      refine ⟨rfl, ⟨n, hn, haddr, ⟨heap + 1, 0, c⟩, ?_, rfl, rfl⟩, fun a b key hhas => ?_⟩
      · rw [hconds]
        exact mem_cons_self
      · have hback : Shrinks ((x.instSet (.new heap)).addCond heap (heap + 1) c)
            { x with stList := .single heap 0 c :: x.stList } := .of_subperm hperm.symm.subperm
        obtain ⟨m, hm, hrest⟩ := hhas
        exact hback.has hy ⟨m, mem_cons_of_mem _ hm, hrest⟩

end CondList

/-! ## Scenes -/

namespace SceneInfo

variable {s s' s'' : SceneInfo} {p : CondPtr k} {heap : Nat}

/-- The scene has a condition filed under `key` at `p`. -/
def Has (s : SceneInfo) (p : AnyPtr) (key : CText) : Prop :=
  (s.list p.2.acLogic p.1).Has p.2.pCondSetNode p.2.pCondNode key

/-- All four lists are chains of memory below `heap`. -/
def Placed (s : SceneInfo) (heap : Nat) : Prop := ∀ l k, (s.list l k).Placed heap

/-- `s'` is the same scene with no condition that `s` has not. -/
structure Shrinks (s s' : SceneInfo) : Prop where
  acSceneId : s'.acSceneId = s.acSceneId
  list : ∀ l k, (s.list l k).Shrinks (s'.list l k)

theorem Placed.chained (h : s.Placed heap) : s.Chained := fun l k => (h l k).toChained

theorem Placed.mono {heap' : Nat} (h : s.Placed heap) (hle : heap ≤ heap') : s.Placed heap' :=
  fun l k => (h l k).mono hle

theorem Shrinks.placed (h : s.Shrinks s') (hs : s.Placed heap) : s'.Placed heap :=
  fun l k => (h.list l k).placed (hs l k)

theorem Shrinks.has (h : s.Shrinks s') (hs : s.Placed heap) {q : AnyPtr} {key : CText}
    (hq : s'.Has q key) : s.Has q key := (h.list _ _).has (hs _ _) hq

theorem Shrinks.refl (s : SceneInfo) : s.Shrinks s := ⟨rfl, fun _ _ => .refl _⟩

theorem Shrinks.trans (h : s.Shrinks s') (h' : s'.Shrinks s'') : s.Shrinks s'' :=
  ⟨h'.acSceneId.trans h.acSceneId, fun l k => (h.list l k).trans (h'.list l k)⟩

theorem Shrinks.of_list_eq (hid : s'.acSceneId = s.acSceneId)
    (h : ∀ l k, s'.list l k = s.list l k) : s.Shrinks s' :=
  ⟨hid, fun l k => h l k ▸ .refl _⟩

theorem Shrinks.setList {y : CondList l k} (h : (s.list l k).Shrinks y) :
    s.Shrinks (s.setList l k y) := by
  refine ⟨acSceneId_setList .., fun l' k' => ?_⟩
  by_cases hl : l' = l ∧ k' = k
  · obtain ⟨rfl, rfl⟩ := hl
    rw [list_setList_self]
    exact h
  · rw [list_setList_of_ne _ _ hl]
    exact .refl _

theorem Shrinks.of_eraseTruth_eq (h : s'.eraseTruth = s.eraseTruth) : s.Shrinks s' := by
  refine ⟨acSceneId_of_eraseTruth_eq h, fun l k => .of_subperm ?_⟩
  have hlist := congrArg (fun r => (r.list l k).stList.map bare) h
  simp only [list_eraseTruth] at hlist
  rw [map_eraseTruth fun _ => rfl, map_eraseTruth fun _ => rfl] at hlist
  exact hlist ▸ List.Subperm.refl _

theorem Shrinks.modifyCond {f : Cond k → Cond k}
    (hf : ∀ c, s.node? p = some c → (f c.stCond).hashKey = c.stCond.hashKey) :
    s.Shrinks (s.modifyCond p f) := by
  refine .setList (.modifySet (fun _ => rfl) fun hx n hn hna => ?_)
  refine ⟨(hx.sets n hn).modifyNode _, fun c hc => ?_⟩
  rcases mem_modifyNode.mp hc with ⟨d, hd, hda, rfl⟩ | ⟨hc, -⟩
  · have hset : s.set? p = some n := (find?_eq_some_iff hx.addr).mpr ⟨hn, hna⟩
    have hnode : s.node? p = some d := by
      rw [node?, hset]
      exact (hx.sets n hn).node?_eq_some.mpr ⟨hd, hda⟩
    exact ⟨d, hd, rfl, (hf d hnode).symm⟩
  · exact ⟨c, hc, rfl, rfl⟩

theorem has_of_node? {c : CondNode k} (h : s.node? p = some c) :
    s.Has ⟨k, p⟩ c.stCond.hashKey := by
  simp only [node?, bind_eq_bind, bind_eq_some_iff] at h
  obtain ⟨n, hn, hc⟩ := h
  obtain ⟨hn, hna⟩ := mem_and_key_of_find? hn
  obtain ⟨hc, hca⟩ := mem_and_key_of_find? hc
  exact ⟨n, hn, hna, c, hc, hca, rfl⟩

theorem condAdd_placed {y : CondList l k} {c : Cond k} (hs : s.Placed heap)
    (h : (s.list l k).condAdd heap c = some (y, p)) :
    (s.setList l k y).Placed (heap + 2) ∧ ∀ q key, (s.setList l k y).Has q key →
      s.Has q key ∨ q = ⟨k, p⟩ ∧ key = c.hashKey := by
  obtain ⟨hy, hhas⟩ := CondList.condAdd_placed (hs l k) h
  constructor
  · intro l' k'
    by_cases hl : l' = l ∧ k' = k
    · obtain ⟨rfl, rfl⟩ := hl
      rw [list_setList_self]
      exact hy
    · rw [list_setList_of_ne _ _ hl]
      exact (hs l' k').mono (Nat.le_add_right _ _)
  · rintro ⟨k', l', a, b⟩ key hq
    by_cases hl : l' = l ∧ k' = k
    · obtain ⟨rfl, rfl⟩ := hl
      rw [Has, list_setList_self] at hq
      rcases hhas _ _ _ hq with hq | ⟨hp, hkey⟩
      · exact .inl hq
      · exact .inr ⟨by rw [hp], hkey⟩
    · rw [Has, list_setList_of_ne _ _ hl] at hq
      exact .inl hq

end SceneInfo

/-! ## One condition less -/

theorem CondSetNode.mem_delNode {c : CondNode k} (hc : c ∈ (n.delNode a).pstCond) :
    ∃ d ∈ n.pstCond, d.addr = c.addr ∧ d.stCond = c.stCond := by
  rcases mem_append.mp hc with hc | hc
  · exact ⟨c, (takeWhile_sublist _).subset hc, rfl, rfl⟩
  · obtain ⟨d, hd, rfl⟩ := List.mem_map.mp hc
    exact ⟨d, (dropWhile_sublist _).subset ((drop_sublist _ _).subset hd), rfl, rfl⟩

theorem CondSetNode.Wf.addr_ne_of_mem_delNode (h : n.Wf) {d c : CondNode k} (hd : d ∈ n.pstCond)
    (hc : c ∈ (n.delNode d.addr).pstCond) : c.addr ≠ d.addr := by
  obtain ⟨bs, as, hn, -, -, htake, hdrop⟩ := h.split hd
  have hnodup := h.addr
  rw [hn, map_append, map_cons, nodup_append, nodup_cons] at hnodup
  rw [delNode_eq, htake, hdrop] at hc
  rcases mem_append.mp hc with hc | hc
  · exact hnodup.2.2 _ (List.mem_map_of_mem hc) _ mem_cons_self
  · obtain ⟨b, hb, rfl⟩ := List.mem_map.mp hc
    intro heq
    have hmem : b.addr ∈ as.map CondNode.addr := List.mem_map_of_mem hb
    exact hnodup.2.1.1 (show d.addr ∈ as.map CondNode.addr from heq ▸ hmem)

namespace SceneInfo

variable {s s' : SceneInfo} {p : CondPtr k} {heap : Nat}

theorem Shrinks.modifyList {f : CondList l k → CondList l k}
    (hf : (s.list l k).Shrinks (f (s.list l k))) : s.Shrinks (s.modifyList l k f) := .setList hf

/-- A deletion, through whichever list, takes its condition away. -/
theorem condDel_shrinks (hs : s.Placed heap) (h : s.condDel l p = some s') :
    s.Shrinks s' ∧ ∀ key, ¬ s'.Has ⟨k, p⟩ key := by
  have hw := hs.chained
  simp only [condDel, bind_eq_bind, bind_eq_some_iff] at h
  obtain ⟨n, hn, c, hc, h⟩ := h
  obtain ⟨hnm, hna⟩ := mem_and_key_of_find? hn
  have hnw := (hw _ _).sets n hnm
  obtain ⟨hcm, hca⟩ := hnw.node?_eq_some.mp hc
  split at h
  · -- the set goes with its condition
    split at h
    · cases h
    · simp only [Option.pure_def, some.injEq] at h
      subst h
      have hcount : s.Shrinks (s.modifyList l k countDown) :=
        .modifyList (.of_stList_eq rfl)
      have hunlink : ∀ t : SceneInfo, t.Shrinks (t.modifyList p.acLogic k fun x =>
          x.unlink n.addr) := fun t => .modifyList (.unlink _ _)
      have hindex : ∀ t : SceneInfo, t.Shrinks (t.modifyList l k fun x =>
          updateIndex { x with iNodeNum := x.iNodeNum - 1 }) := fun t =>
        .modifyList (.trans (y := { t.list l k with iNodeNum := (t.list l k).iNodeNum - 1 })
          (.of_stList_eq rfl) (.updateIndex _))
      refine ⟨(hcount.trans (hunlink _)).trans (hindex _), fun key hhas => ?_⟩
      have hhas := (hindex _).has ((hcount.trans (hunlink _)).placed hs) hhas
      rw [Has, SceneInfo.modifyList, list_setList_self] at hhas
      obtain ⟨m, hm, hma, -⟩ := hhas
      have hne := (mem_filter.mp hm).2
      simp only [bne_iff_ne, ne_eq] at hne
      exact hne (hma.trans hna.symm)
  · -- others stay in the set
    rename_i hmany
    simp only [Option.pure_def, some.injEq] at h
    subst h
    have hset : ∀ m ∈ (s.list p.acLogic k).stList, m.addr = p.pCondSetNode → m = n :=
      fun m hm hma => eq_of_key_eq (hw _ _).addr hm hnm (hma.trans hna.symm)
    have hdel : s.Shrinks (s.modifySet p fun n => n.delNode c.addr) := by
      refine .setList (.modifySet (fun _ => rfl) fun _ m hm hma => ⟨?_, fun d hd => ?_⟩)
      · rw [hset m hm hma]
        exact hnw.delNode hcm (Ne.symm hmany)
      · obtain ⟨b, hb, hbd, hbc⟩ := mem_delNode hd
        exact ⟨b, hb, hbd, by rw [hbc]⟩
    have hcount : ∀ t : SceneInfo, t.Shrinks
        (t.modifyList l k fun x => { x with iCount := x.iCount - 1 }) :=
      fun t => .modifyList (.of_stList_eq rfl)
    refine ⟨hdel.trans (hcount _), fun key hhas => ?_⟩
    have hhas := (hcount _).has (hdel.placed hs) hhas
    rw [Has, SceneInfo.modifySet, list_setList_self] at hhas
    obtain ⟨m, hm, hma, d, hd, hda, -⟩ := hhas
    rcases mem_modifySet.mp hm with ⟨m', hm', hma', rfl⟩ | ⟨-, hne⟩
    · rw [hset m' hm' hma'] at hd
      exact hnw.addr_ne_of_mem_delNode hcm hd (hda.trans hca.symm)
    · exact hne hma

theorem condDelTrue_eraseTruth {bit : Kind} (h : condDelTrue s l bit p = some s') :
    s'.eraseTruth = s.eraseTruth := by
  simp only [condDelTrue, bind_eq_bind] at h
  split at h
  · simp only [Option.pure_def, some.injEq] at h
    rw [← h, eraseTruth_setListTrue]
    exact eraseTruth_setList _ _ _ _ rfl
  · simp only [bind_eq_some_iff, Option.pure_def, some.injEq] at h
    obtain ⟨n, -, rfl⟩ := h
    exact condSetTrueInit_eraseTruth ..

theorem has_setList_nil {y : CondList l k} (hy : y.stList = []) {q : AnyPtr} {key : CText}
    (h : (s.setList l k y).Has q key) : s.Has q key ∧ ¬ (q.2.acLogic = l ∧ q.1 = k) := by
  obtain ⟨k', q⟩ := q
  by_cases hl : q.acLogic = l ∧ k' = k
  · obtain ⟨rfl, rfl⟩ := hl
    rw [Has, list_setList_self] at h
    obtain ⟨n, hn, -⟩ := h
    rw [hy] at hn
    cases hn
  · rw [Has, list_setList_of_ne _ _ hl] at h
    exact ⟨h, hl⟩

end SceneInfo

end Honyar.LocalScene
