import Honyar.LocalScene.Shape
import Mathlib.Tactic.IntervalCases

/-!
# Consistent truth words

What the words mean.  `Logic.fold` is the truth of a group from the truths of
its members, and a scene is `Consistent` when every word holds, at every level,
the truth of the level below: a set bit that of its conditions, a list bit that
of its sets, and `ucSceneCondTrue` the four-case formula of the source's
comments over the list bits.

Over the single conditions this says that `ucSceneCondTrue` is the formula over
the bits the conditions read (`Consistent.scene_eq_formula`), which is how the
later results use it.
-/

namespace Honyar.LocalScene

open List

/-! ## The meaning of the words -/

/-- The truth of a group from those of its members: some of them for `Or`, all
of them for `And`; without members, false and true. -/
def Logic.fold : Logic → List Bool → Bool
  | .or, bs => bs.any id
  | .and, bs => bs.all id

@[simp] theorem Logic.fold_nil (l : Logic) : l.fold [] = decide (l = .and) := by
  cases l <;> rfl

theorem Logic.wordTrue_eq_fold (l : Logic) (x : BitVec 32) {n : Nat} (hn : n ≤ 32) :
    l.wordTrue x n = l.fold ((List.range n).map x.getLsbD) := by
  apply Bool.eq_iff_iff.mpr
  cases l with
  | or =>
    simp only [wordTrue, Mask.anyLow_iff x hn, fold, any_map, any_eq_true,
      mem_range, Function.comp_apply, id_eq]
  | and =>
    simp only [wordTrue, Mask.allLow_iff x hn, fold, all_map, all_eq_true,
      mem_range, Function.comp_apply, id_eq]

theorem Logic.fold_flatMap (l : Logic) {α : Type} (xs : List α) (f : α → List Bool) :
    l.fold (xs.flatMap f) = l.fold (xs.map fun x => l.fold (f x)) := by
  cases l with
  | or => simp [fold, any_flatMap, any_map, Function.comp_def]
  | and => simp [fold, all_flatMap, all_map, Function.comp_def]

theorem Logic.fold_append (l : Logic) (as bs : List Bool) :
    l.fold (as ++ bs) = match l with
      | .or => l.fold as || l.fold bs
      | .and => l.fold as && l.fold bs := by
  cases l <;> simp [fold]

/-- The four cases in the comments of `scene_list.c`: no condition at all, only
`Or` conditions, only `And` conditions, both. -/
def sceneFormula (orEmpty andEmpty orTrue andTrue : Bool) : Bool :=
  if orEmpty && andEmpty then false
  else if andEmpty then orTrue
  else if orEmpty then andTrue
  else orTrue && andTrue

/-- The truth of a set, from bits `0..ucCondCount-1` of its word. -/
def CondSetNode.truth {k : Kind} (n : CondSetNode k) (l : Logic) : Bool :=
  l.fold ((List.range n.ucCondCount).map n.uiCondTrue.getLsbD)

/-- The truth a condition reads through its index in the word of its set. -/
def CondSetNode.condTrue {k : Kind} (n : CondSetNode k) (a : Nat) : Bool :=
  (n.node? a).any fun c => n.uiCondTrue.getLsbD c.iCondIndex

/-- The bit of a set in the word of its list. -/
def CondList.setTrue {l : Logic} {k : Kind} (x : CondList l k) (n : CondSetNode k) : Bool :=
  x.uiCondSetTrue.getLsbD n.iCondSetIndex

/-- The truth of a list, from the bits of its sets. -/
def CondList.truth {l : Logic} {k : Kind} (x : CondList l k) : Bool :=
  l.fold (x.stList.map x.setTrue)

namespace SceneInfo

/-- The scene has no condition of a logic. -/
def logicEmpty (s : SceneInfo) (l : Logic) : Bool :=
  (s.list l .time).stList.isEmpty && (s.list l .event).stList.isEmpty

/-- The formula over the four list bits. -/
def sceneTruth (s : SceneInfo) : Bool :=
  sceneFormula (s.logicEmpty .or) (s.logicEmpty .and)
    (s.listTrue .or .time || s.listTrue .or .event)
    (s.listTrue .and .time && s.listTrue .and .event)

/-- Every truth word holds the truth of the level below it. -/
structure Consistent (s : SceneInfo) : Prop where
  set : ∀ l k, ∀ n ∈ (s.list l k).stList, (s.list l k).setTrue n = n.truth l
  list : ∀ l k, s.listTrue l k = (s.list l k).truth
  scene : s.ucSceneCondTrue = s.sceneTruth

instance (s : SceneInfo) : Decidable s.Consistent :=
  decidable_of_iff
    ((∀ l k, ∀ n ∈ (s.list l k).stList, (s.list l k).setTrue n = n.truth l) ∧
      (∀ l k, s.listTrue l k = (s.list l k).truth) ∧ s.ucSceneCondTrue = s.sceneTruth)
    ⟨fun ⟨h₁, h₂, h₃⟩ => ⟨h₁, h₂, h₃⟩, fun ⟨h₁, h₂, h₃⟩ => ⟨h₁, h₂, h₃⟩⟩

/-- All truth words of a scene: those of the sets, list by list, those of the
lists, of the two logics, and the scene's own. -/
structure TruthState where
  uiCondTrue : Logic → Kind → List (BitVec 32)
  uiCondSetTrue : Logic → Kind → BitVec 32
  ucCondListTrue : Logic → BitVec 8
  ucSceneCondTrue : Bool

def truthState (s : SceneInfo) : TruthState where
  uiCondTrue l k := (s.list l k).stList.map CondSetNode.uiCondTrue
  uiCondSetTrue l k := (s.list l k).uiCondSetTrue
  ucCondListTrue l := (s.logic l).ucCondListTrue
  ucSceneCondTrue := s.ucSceneCondTrue

/-- The truth a pointer reads. -/
def condTrue {k : Kind} (s : SceneInfo) (p : CondPtr k) : Bool :=
  (s.set? p).any fun n => n.condTrue p.pCondNode

/-- What every pointer reads. -/
def truths (s : SceneInfo) (p : AnyPtr) : Bool := s.condTrue p.2

/-- The formula over an assignment of truths to the conditions. -/
def formula (s : SceneInfo) (t : AnyPtr → Bool) : Bool :=
  sceneFormula (s.logicEmpty .or) (s.logicEmpty .and)
    (Logic.or.fold ((s.allPtrs .or).map t)) (Logic.and.fold ((s.allPtrs .and).map t))

end SceneInfo

/-! ## The words as the code reads them -/

theorem CondSetNode.Wf.wordTrue_eq {k : Kind} {n : CondSetNode k} (h : n.Wf) (l : Logic) :
    l.wordTrue n.uiCondTrue n.ucCondCount = n.truth l :=
  l.wordTrue_eq_fold _ (by rw [h.count]; exact h.le)

namespace SceneInfo

variable {s : SceneInfo}

theorem Wf.newCondListTrue_eq (hw : s.Wf) (l : Logic) (k : Kind) :
    s.newCondListTrue l k = (s.list l k).truth := by
  rw [newCondListTrue, l.wordTrue_eq_fold _ (by rw [(hw l k).size_eq]; exact (hw l k).le),
    (hw l k).map_range]
  rfl

theorem anyLow_two (x : BitVec 8) : Mask.anyLow x 2 = (x.getLsbD 0 || x.getLsbD 1) := by
  apply Bool.eq_iff_iff.mpr
  rw [Mask.anyLow_iff x (by decide), Bool.or_eq_true]
  constructor
  · rintro ⟨j, hj, h⟩
    interval_cases j
    · exact .inl h
    · exact .inr h
  · rintro (h | h)
    · exact ⟨0, by decide, h⟩
    · exact ⟨1, by decide, h⟩

theorem allLow_two (x : BitVec 8) : Mask.allLow x 2 = (x.getLsbD 0 && x.getLsbD 1) := by
  apply Bool.eq_iff_iff.mpr
  rw [Mask.allLow_iff x (by decide), Bool.and_eq_true]
  constructor
  · intro h
    exact ⟨h 0 (by decide), h 1 (by decide)⟩
  · rintro ⟨h0, h1⟩ j hj
    interval_cases j
    · exact h0
    · exact h1

theorem Wf.count_eq_zero_iff (hw : s.Wf) (l : Logic) :
    0 = (s.list l .time).iCount + (s.list l .event).iCount ↔ s.logicEmpty l = true := by
  have ht := (hw l .time).iCount_nonneg
  have he := (hw l .event).iCount_nonneg
  rw [logicEmpty, Bool.and_eq_true, List.isEmpty_iff, List.isEmpty_iff,
    ← (hw l .time).iCount_eq_zero_iff, ← (hw l .event).iCount_eq_zero_iff]
  omega

theorem Wf.newSceneTrue_eq (hw : s.Wf) : s.newSceneTrue = s.sceneTruth := by
  have ho := hw.count_eq_zero_iff .or
  have ha := hw.count_eq_zero_iff .and
  simp only [list, logic, CondLogic.list] at ho ha
  simp only [newSceneTrue, sceneTruth, sceneFormula, ho, ha, anyLow_two, allLow_two, ne_eq]
  cases s.logicEmpty .or <;> cases s.logicEmpty .and <;> rfl

/-! ## Reading conditions -/

variable {k : Kind}

theorem condTrue_eq {p : CondPtr k} {n : CondSetNode k} {c : CondNode k} (hn : s.set? p = some n)
    (hc : n.node? p.pCondNode = some c) : s.condTrue p = n.uiCondTrue.getLsbD c.iCondIndex := by
  simp [condTrue, CondSetNode.condTrue, hn, hc]

theorem Wf.truth_set_eq (hw : s.Wf) {l : Logic} {n : CondSetNode k}
    (hn : n ∈ (s.list l k).stList) :
    n.truth l = l.fold (n.pstCond.map fun c => s.condTrue (⟨l, n.addr, c.addr⟩ : CondPtr k)) := by
  have hwn := (hw l k).sets n hn
  rw [CondSetNode.truth, hwn.map_range]
  congr 1
  apply map_congr_left
  intro c hc
  rw [condTrue_eq (p := ⟨l, n.addr, c.addr⟩) ((hw l k).set?_eq_some.mpr ⟨hn, rfl⟩)
    (hwn.node?_eq_some.mpr ⟨hc, rfl⟩)]

theorem Consistent.listTrue_eq (hw : s.Wf) (hc : s.Consistent) (l : Logic) (k : Kind) :
    s.listTrue l k = l.fold ((s.ptrs l k).map s.condTrue) := by
  rw [hc.list, CondList.truth, ptrs, map_flatMap, l.fold_flatMap]
  congr 1
  apply map_congr_left
  intro n hn
  rw [hc.set l k n hn, hw.truth_set_eq hn, map_map]
  rfl

theorem Consistent.scene_eq_formula (hw : s.Wf) (hc : s.Consistent) :
    s.ucSceneCondTrue = s.formula s.truths := by
  rw [hc.scene, sceneTruth, formula]
  simp only [hc.listTrue_eq hw, allPtrs, map_append, Logic.fold_append, map_map]
  rfl

end SceneInfo

end Honyar.LocalScene
