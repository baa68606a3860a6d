import Honyar.LocalScene.SceneList
import Honyar.LocalScene.Write

/-!
# What adding does to the chains

`cond_add` either puts the condition at the end of a set that has room, or opens
a new set for it: behind the others in a list of time conditions, before the
others, which are numbered again, in a list of event conditions.  The list stays
well formed, and every condition that was there still reads its own bit.
-/

namespace Honyar.LocalScene

open List CondSetNode

variable {l : Logic} {k : Kind}

/-! ## Numbering -/

/-- Moves a set up by one place. -/
def CondSetNode.shift (n : CondSetNode k) : CondSetNode k :=
  { n with iCondSetIndex := n.iCondSetIndex + 1 }

theorem updateIndexFrom_eq_self {ns : List (CondSetNode k)} {i : Nat}
    (h : ns.map CondSetNode.iCondSetIndex = List.range' i ns.length) :
    updateIndexFrom i ns = ns := by
  induction ns generalizing i with
  | nil => rfl
  | cons n ns ih =>
    rw [map_cons, length_cons, range'_succ, List.cons.injEq] at h
    rw [updateIndexFrom, ih h.2, ← h.1]

theorem updateIndexFrom_succ {ns : List (CondSetNode k)} {i : Nat}
    (h : ns.map CondSetNode.iCondSetIndex = List.range' i ns.length) :
    updateIndexFrom (i + 1) ns = ns.map CondSetNode.shift := by
  induction ns generalizing i with
  | nil => rfl
  | cons n ns ih =>
    rw [map_cons, length_cons, range'_succ, List.cons.injEq] at h
    rw [updateIndexFrom, ih h.2, map_cons, ← h.1, shift]

theorem updateIndexFrom_append (ns ms : List (CondSetNode k)) (i : Nat) :
    updateIndexFrom i (ns ++ ms) = updateIndexFrom i ns ++ updateIndexFrom (i + ns.length) ms := by
  induction ns generalizing i with
  | nil => simp [updateIndexFrom]
  | cons n ns ih =>
    rw [cons_append, updateIndexFrom, ih, updateIndexFrom, length_cons,
      cons_append, Nat.add_assoc, Nat.add_comm 1]

theorem map_updateIndexFrom {β : Type} {g : CondSetNode k → β}
    (hg : ∀ n i, g { n with iCondSetIndex := i } = g n) (ns : List (CondSetNode k)) (i : Nat) :
    (updateIndexFrom i ns).map g = ns.map g := by
  induction ns generalizing i with
  | nil => rfl
  | cons n ns ih => rw [updateIndexFrom, map_cons, map_cons, hg, ih]

/-! ## Sets -/

namespace CondSetNode.Wf

variable {n : CondSetNode k}

theorem nextIndex_eq (h : n.Wf) : n.nextIndex = n.pstCond.length := by
  rw [nextIndex]
  cases hl : n.pstCond.getLast? with
  | none =>
    rw [getLast?_eq_none_iff] at hl
    simp [hl]
  | some c =>
    have hlast : (n.pstCond.map CondNode.iCondIndex).getLast? = some c.iCondIndex := by
      rw [getLast?_map, hl]; rfl
    have hpos := h.pos
    rw [h.index, getLast?_range] at hlast
    simp only [Nat.ne_of_gt hpos, if_false, Option.some.injEq] at hlast
    simp only
    omega

theorem addNode (h : n.Wf) (hlt : n.ucCondCount < 32) {a : Nat}
    (ha : ∀ c ∈ n.pstCond, c.addr ≠ a) (c : Cond k) : (n.addNode a c).Wf := by
  have hcount := h.count
  refine ⟨?_, ?_, ?_, ?_, ?_⟩
  · simp [CondSetNode.addNode, h.index, h.nextIndex_eq, range_succ]
  · simp [CondSetNode.addNode, h.count]
  · simp [CondSetNode.addNode]
  · simp only [CondSetNode.addNode, length_append, length_singleton]
    omega
  · simp only [CondSetNode.addNode, map_append, map_cons, map_nil]
    rw [nodup_append]
    refine ⟨h.addr, by simp, ?_⟩
    intro b hb b' hb' he
    obtain ⟨d, hd, rfl⟩ := mem_map.mp hb
    exact ha d hd (he.trans (mem_singleton.mp hb'))

end CondSetNode.Wf

namespace CondSetNode

variable {n : CondSetNode k}

theorem node?_addNode_of_ne {a b : Nat} (h : b ≠ a) (c : Cond k) :
    (n.addNode a c).node? b = n.node? b := by
  simp [node?, addNode, find?_append, Ne.symm h]

theorem condTrue_addNode {a b : Nat} (h : b ≠ a) (c : Cond k) :
    (n.addNode a c).condTrue b = n.condTrue b := by
  rw [condTrue, node?_addNode_of_ne h]
  rfl

theorem node?_addNode {a : Nat} (ha : ∀ c ∈ n.pstCond, c.addr ≠ a) (c : Cond k) :
    (n.addNode a c).node? a = some { addr := a, iCondIndex := n.nextIndex, stCond := c } := by
  have hnone : n.pstCond.find? (fun d => d.addr == a) = none := by
    rw [find?_eq_none]
    intro d hd
    simpa using ha d hd
  simp [node?, addNode, find?_append, hnone]

end CondSetNode

theorem CondSetNode.Wf.shift {n : CondSetNode k} (h : n.Wf) : n.shift.Wf :=
  ⟨h.index, h.count, h.pos, h.le, h.addr⟩

/-! ## Lists -/

/-- Every address of the list is below the next one `calloc` returns. -/
def CondList.Below (x : CondList l k) (heap : Nat) : Prop :=
  ∀ n ∈ x.stList, n.addr < heap ∧ ∀ c ∈ n.pstCond, c.addr < heap

/-- The set that is opened for a condition, at place `i`. -/
def CondSetNode.single (heap i : Nat) (c : Cond k) : CondSetNode k where
  addr := heap
  iCondSetIndex := i
  uiCondTrue := 0
  ucCondCount := 1
  pstCond := [{ addr := heap + 1, iCondIndex := 0, stCond := c }]

theorem CondSetNode.single_wf (heap i : Nat) (c : Cond k) : (single heap i c).Wf :=
  ⟨rfl, rfl, by simp [single], by simp [single], by simp [single]⟩

theorem CondSetNode.node?_single (heap i : Nat) (c : Cond k) :
    (single heap i c).node? (heap + 1) =
      some { addr := heap + 1, iCondIndex := 0, stCond := c } := by
  simp [single, node?]

/-- The sets after one more was opened. -/
def Kind.openSet : (k : Kind) → List (CondSetNode k) → Nat → Cond k → List (CondSetNode k)
  | .time, ns, heap, c => ns ++ [.single heap ns.length c]
  | .event, ns, heap, c => .single heap 0 c :: ns.map CondSetNode.shift

namespace CondList

variable {x y : CondList l k} {p : CondPtr k} {heap : Nat} {c : Cond k}

theorem Below.addr_notMem (hb : x.Below heap) : heap ∉ x.stList.map CondSetNode.addr := by
  intro h
  obtain ⟨n, hn, ha⟩ := mem_map.mp h
  exact absurd (hb n hn).1 (by omega)

theorem map_write_at (ns ms : List (CondSetNode k)) (n : CondSetNode k)
    (f : CondSetNode k → CondSetNode k)
    (h : ((ns ++ n :: ms).map CondSetNode.addr).Nodup) :
    ((ns ++ n :: ms).map fun m => if m.addr = n.addr then f m else m) = ns ++ f n :: ms :=
  Keyed.map_write_split h

/-- Opening a set for a condition, as the code does it in three steps. -/
theorem Wf.openSet_eq (hw : x.Wf) (hb : x.Below heap) (c : Cond k) :
    ((x.instSet (.new heap)).modifySet heap fun n => n.addNode (heap + 1) c).stList =
      k.openSet x.stList heap c := by
  have hne : x.iNodeNum + 1 ≠ 0 := by rw [hw.size]; omega
  have hrange : x.stList.map CondSetNode.iCondSetIndex = List.range' 0 x.stList.length := by
    rw [hw.index, range_eq_range']
  simp only [modifySet, instSet, updateIndex, hne, if_false]
  cases k with
  | time =>
    simp only [Kind.instSet, Kind.openSet, updateIndexFrom_append,
      updateIndexFrom_eq_self hrange, updateIndexFrom, Nat.zero_add]
    refine map_write_at x.stList [] { CondSetNode.new heap with iCondSetIndex := x.stList.length }
      (fun n => n.addNode (heap + 1) c) ?_
    simp only [map_append, map_cons, map_nil]
    rw [nodup_append]
    refine ⟨hw.addr, by simp, ?_⟩
    intro b hb' b' hb'' he
    have ha : b = heap := he.trans (mem_singleton.mp hb'')
    exact hb.addr_notMem (ha ▸ hb')
  | event =>
    simp only [Kind.instSet, Kind.openSet, updateIndexFrom, updateIndexFrom_succ hrange]
    refine map_write_at [] _ { CondSetNode.new heap with iCondSetIndex := 0 }
      (fun n => n.addNode (heap + 1) c) ?_
    have hshift : (x.stList.map CondSetNode.shift).map CondSetNode.addr =
        x.stList.map CondSetNode.addr := by
      rw [map_map]; rfl
    rw [nil_append, map_cons, hshift, nodup_cons]
    exact ⟨hb.addr_notMem, hw.addr⟩

/-- What `cond_add` does: a set with room gets the condition, or all are full
and a new one is opened. -/
theorem condAdd_cases (hw : x.Wf) (hb : x.Below heap) (h : x.condAdd heap c = some (y, p)) :
    (∃ ns n ms, x.stList = ns ++ n :: ms ∧ n.ucCondCount < 32 ∧ p = ⟨l, n.addr, heap + 1⟩ ∧
      y = { x with
        stList := ns ++ n.addNode (heap + 1) c :: ms
        iCount := x.iCount + 1 }) ∨
    ((∀ n ∈ x.stList, n.ucCondCount = 32) ∧ x.stList.length < 32 ∧ p = ⟨l, heap, heap + 1⟩ ∧
      y = { stList := k.openSet x.stList heap c
            iNodeNum := x.iNodeNum + 1
            uiCondSetTrue := if x.stList = [] then 0 else x.uiCondSetTrue
            iCount := x.iCount + 1 }) := by
  rw [condAdd, walk_eq hw.size] at h
  cases hf : x.stList.find? fun n => decide (n.ucCondCount < 32) with
  | some n =>
    rw [hf] at h
    simp only [Option.some.injEq, Prod.mk.injEq] at h
    obtain ⟨rfl, rfl⟩ := h
    have hlt : n.ucCondCount < 32 := by simpa using find?_some hf
    obtain ⟨ns, ms, hx⟩ := append_of_mem (mem_of_find?_eq_some hf)
    refine .inl ⟨ns, n, ms, hx, hlt, rfl, ?_⟩
    have hadd : (x.modifySet n.addr fun n => n.addNode (heap + 1) c).stList =
        ns ++ n.addNode (heap + 1) c :: ms := by
      rw [modifySet, hx]
      exact map_write_at ns ms n _ (hx ▸ hw.addr)
    have hpos : x.iCount ≠ 0 := by
      rw [Ne, hw.iCount_eq_zero_iff, hx]
      simp
    have hne : ¬ 1 = x.iCount + 1 := by omega
    rw [addCond]
    simp only [hadd]
    simp [modifySet, hne]
  | none =>
    rw [hf] at h
    simp only at h
    have hfull : ∀ n ∈ x.stList, n.ucCondCount = 32 := by
      intro n hn
      have hlt := find?_eq_none.mp hf n hn
      have hle := (hw.sets n hn).le
      rw [← (hw.sets n hn).count] at hle
      simp only [decide_eq_true_eq] at hlt
      omega
    have hsize := hw.size
    split at h
    · exact absurd h (by simp)
    · rename_i hge
      simp only [Option.some.injEq, Prod.mk.injEq] at h
      obtain ⟨rfl, rfl⟩ := h
      have hne : x.iNodeNum + 1 ≠ 0 := by omega
      refine .inr ⟨hfull, by omega, rfl, ?_⟩
      rw [addCond]
      simp only [hw.openSet_eq hb]
      have hone : (1 = x.iCount + 1) ↔ x.stList = [] := by
        rw [← hw.iCount_eq_zero_iff]
        omega
      simp [modifySet, instSet, updateIndex, hne, hone]

/-- Replacing one set by another at the same place keeps the list well formed. -/
theorem Wf.replace {ns ms : List (CondSetNode k)} {n m : CondSetNode k} (hw : x.Wf)
    (hx : x.stList = ns ++ n :: ms) (ha : m.addr = n.addr)
    (hi : m.iCondSetIndex = n.iCondSetIndex) (hm : m.Wf) (hy : y.stList = ns ++ m :: ms)
    (hnum : y.iNodeNum = x.iNodeNum)
    (hcount : y.iCount + n.pstCond.length = x.iCount + m.pstCond.length) : y.Wf := by
  have hlen : y.stList.length = x.stList.length := by simp [hx, hy]
  refine ⟨?_, ?_, ?_, ?_, ?_, ?_⟩
  · rw [hlen, ← hw.index, hx, hy]
    simp [hi]
  · rw [hlen, hnum, hw.size]
  · rw [hlen]; exact hw.le
  · have h := hw.count
    rw [hx] at h
    rw [hy]
    simp only [map_append, map_cons, sum_append, sum_cons] at h ⊢
    omega
  · have h := hw.addr
    rw [hx] at h
    rw [hy]
    simpa [ha] using h
  · intro z hz
    have hsets := hw.sets
    rw [hy] at hz
    rcases mem_append.mp hz with hz | hz
    · exact hsets z (by rw [hx]; exact mem_append_left _ hz)
    · rcases mem_cons.mp hz with rfl | hz
      · exact hm
      · exact hsets z (by rw [hx]; exact mem_append_right _ (mem_cons_of_mem _ hz))

theorem Wf.openSet (hw : x.Wf) (hb : x.Below heap) (hlt : x.stList.length < 32)
    (hy : y.stList = k.openSet x.stList heap c) (hnum : y.iNodeNum = x.iNodeNum + 1)
    (hcount : y.iCount = x.iCount + 1) : y.Wf := by
  have hlen : y.stList.length = x.stList.length + 1 := by
    rw [hy]
    cases k <;> simp [Kind.openSet]
  have hnot := hb.addr_notMem
  refine ⟨?_, ?_, ?_, ?_, ?_, ?_⟩
  · rw [hlen, hy]
    cases k with
    | time => simp [Kind.openSet, hw.index, range_succ, CondSetNode.single]
    | event =>
      have hshift : (x.stList.map CondSetNode.shift).map CondSetNode.iCondSetIndex =
          (x.stList.map CondSetNode.iCondSetIndex).map Nat.succ := by
        rw [map_map, map_map]; rfl
      rw [Kind.openSet, map_cons, hshift, hw.index, range_succ_eq_map]
      rfl
  · rw [hlen, hnum, hw.size]; rfl
  · omega
  · rw [hcount, hw.count, hy]
    cases k with
    | time => simp [Kind.openSet, CondSetNode.single]
    | event =>
      have hshift : ((x.stList.map CondSetNode.shift).map fun n => n.pstCond.length) =
          x.stList.map fun n => n.pstCond.length := by
        rw [map_map]; rfl
      rw [Kind.openSet, map_cons, hshift, sum_cons]
      simp only [CondSetNode.single, length_singleton]
      omega
  · rw [hy]
    cases k with
    | time =>
      simp only [Kind.openSet, map_append, map_cons, map_nil]
      rw [nodup_append]
      refine ⟨hw.addr, by simp, ?_⟩
      intro b hb' b' hb'' he
      have ha : b = heap := he.trans (mem_singleton.mp hb'')
      exact hnot (ha ▸ hb')
    | event =>
      have hshift : (x.stList.map CondSetNode.shift).map CondSetNode.addr =
          x.stList.map CondSetNode.addr := by
        rw [map_map]; rfl
      rw [Kind.openSet, map_cons, hshift, nodup_cons]
      exact ⟨hnot, hw.addr⟩
  · intro z hz
    rw [hy] at hz
    cases k with
    | time =>
      rcases mem_append.mp hz with hz | hz
      · exact hw.sets z hz
      · rw [mem_singleton.mp hz]; exact CondSetNode.single_wf _ _ _
    | event =>
      rcases mem_cons.mp hz with rfl | hz
      · exact CondSetNode.single_wf _ _ _
      · obtain ⟨n, hn, rfl⟩ := mem_map.mp hz
        exact CondSetNode.Wf.shift (hw.sets n hn)

theorem condAdd_wf (hw : x.Wf) (hb : x.Below heap) (h : x.condAdd heap c = some (y, p)) :
    y.Wf := by
  rcases condAdd_cases hw hb h with ⟨ns, n, ms, hx, hlt, -, rfl⟩ | ⟨-, hlt, -, rfl⟩
  · have hn : n ∈ x.stList := by rw [hx]; simp
    have hfresh : ∀ d ∈ n.pstCond, d.addr ≠ heap + 1 := by
      intro d hd
      have := (hb n hn).2 d hd
      omega
    refine hw.replace (m := n.addNode (heap + 1) c) hx rfl rfl
      ((hw.sets n hn).addNode hlt hfresh c) rfl rfl ?_
    simp [addNode]
    omega
  · exact hw.openSet hb hlt rfl rfl rfl

theorem condAdd_node (hw : x.Wf) (hb : x.Below heap) (h : x.condAdd heap c = some (y, p)) :
    p.acLogic = l ∧ p.pCondNode = heap + 1 ∧
      ∃ m ∈ y.stList, m.addr = p.pCondSetNode ∧ ∃ d, m.node? p.pCondNode = some d ∧
        d.stCond = c := by
  rcases condAdd_cases hw hb h with ⟨ns, n, ms, hx, -, rfl, rfl⟩ | ⟨-, -, rfl, rfl⟩
  · have hn : n ∈ x.stList := by rw [hx]; simp
    have hfresh : ∀ d ∈ n.pstCond, d.addr ≠ heap + 1 := by
      intro d hd
      have := (hb n hn).2 d hd
      omega
    exact ⟨rfl, rfl, n.addNode (heap + 1) c, by simp, rfl, _,
      node?_addNode hfresh c, rfl⟩
  · refine ⟨rfl, rfl, ?_⟩
    cases k with
    | time =>
      exact ⟨.single heap x.stList.length c, by simp [Kind.openSet], rfl, _,
        node?_single _ _ _, rfl⟩
    | event =>
      exact ⟨.single heap 0 c, by simp [Kind.openSet], rfl, _, node?_single _ _ _, rfl⟩

theorem condAdd_read (hw : x.Wf) (hb : x.Below heap) (h : x.condAdd heap c = some (y, p))
    {n : CondSetNode k} (hn : n ∈ x.stList) {a : Nat} (ha : a < heap) :
    ∃ m ∈ y.stList, m.addr = n.addr ∧ m.node? a = n.node? a ∧ m.condTrue a = n.condTrue a := by
  rcases condAdd_cases hw hb h with ⟨ns, n', ms, hx, -, rfl, rfl⟩ | ⟨-, -, rfl, rfl⟩
  · rw [hx] at hn
    rcases mem_append.mp hn with hn | hn
    · exact ⟨n, by simp [hn], rfl, rfl, rfl⟩
    · rcases mem_cons.mp hn with rfl | hn
      · exact ⟨n.addNode (heap + 1) c, by simp, rfl,
          node?_addNode_of_ne (by omega) c, condTrue_addNode (by omega) c⟩
      · exact ⟨n, by simp [hn], rfl, rfl, rfl⟩
  · cases k with
    | time => exact ⟨n, by simp [Kind.openSet, hn], rfl, rfl, rfl⟩
    | event =>
      exact ⟨n.shift, mem_cons_of_mem _ (mem_map_of_mem hn), rfl, rfl, rfl⟩

end CondList

end Honyar.LocalScene
