import Honyar.Lib.Keyed
import Honyar.LocalScene.Truth

/-!
# What the truth words are about

The chains of a scene, without their truth words: which conditions there are,
where they stand and what they say.  `eraseTruth` forgets the words, so "the
call changes nothing but truth" is an equation between erased scenes, and every
notion that does not look at the words is a notion of the erased scene.

`Wf` is the structure the engine keeps its lists in: sets and conditions are
numbered by their position, the counters count, and no chain is longer than 32.
-/

namespace Honyar.LocalScene

open Option Keyed

variable {a : Nat} {s s' : SceneInfo}

/-! ## Well-formed chains -/

/-- A set of 1 to 32 conditions numbered from 0 in chain order. -/
structure CondSetNode.Wf {k : Kind} (n : CondSetNode k) : Prop where
  index : n.pstCond.map CondNode.iCondIndex = List.range n.pstCond.length
  count : n.ucCondCount = n.pstCond.length
  pos : 0 < n.pstCond.length
  le : n.pstCond.length ≤ 32
  addr : (n.pstCond.map CondNode.addr).Nodup

/-- A list of at most 32 sets numbered from 0 in chain order. -/
structure CondList.Wf {l : Logic} {k : Kind} (x : CondList l k) : Prop where
  index : x.stList.map CondSetNode.iCondSetIndex = List.range x.stList.length
  size : x.iNodeNum = x.stList.length
  le : x.stList.length ≤ 32
  count : x.iCount = ((x.stList.map fun n => n.pstCond.length).sum : Nat)
  addr : (x.stList.map CondSetNode.addr).Nodup
  sets : ∀ n ∈ x.stList, n.Wf

/-- All four lists are well formed. -/
def SceneInfo.Wf (s : SceneInfo) : Prop := ∀ l k, (s.list l k).Wf

instance {k : Kind} (n : CondSetNode k) : Decidable n.Wf :=
  decidable_of_iff
    (n.pstCond.map CondNode.iCondIndex = List.range n.pstCond.length ∧
      n.ucCondCount = n.pstCond.length ∧ 0 < n.pstCond.length ∧ n.pstCond.length ≤ 32 ∧
      (n.pstCond.map CondNode.addr).Nodup)
    ⟨fun ⟨h₁, h₂, h₃, h₄, h₅⟩ => ⟨h₁, h₂, h₃, h₄, h₅⟩,
      fun ⟨h₁, h₂, h₃, h₄, h₅⟩ => ⟨h₁, h₂, h₃, h₄, h₅⟩⟩

instance {l : Logic} {k : Kind} (x : CondList l k) : Decidable x.Wf :=
  decidable_of_iff
    (x.stList.map CondSetNode.iCondSetIndex = List.range x.stList.length ∧
      x.iNodeNum = x.stList.length ∧ x.stList.length ≤ 32 ∧
      x.iCount = ((x.stList.map fun n => n.pstCond.length).sum : Nat) ∧
      (x.stList.map CondSetNode.addr).Nodup ∧ ∀ n ∈ x.stList, n.Wf)
    ⟨fun ⟨h₁, h₂, h₃, h₄, h₅, h₆⟩ => ⟨h₁, h₂, h₃, h₄, h₅, h₆⟩,
      fun ⟨h₁, h₂, h₃, h₄, h₅, h₆⟩ => ⟨h₁, h₂, h₃, h₄, h₅, h₆⟩⟩

theorem forall_list_iff {P : Logic → Kind → Prop} :
    (∀ l k, P l k) ↔ P .or .time ∧ P .or .event ∧ P .and .time ∧ P .and .event := by
  constructor
  · intro h
    exact ⟨h _ _, h _ _, h _ _, h _ _⟩
  · rintro ⟨h₁, h₂, h₃, h₄⟩ l k
    cases l <;> cases k <;> assumption

instance decidableForallList {P : Logic → Kind → Prop} [∀ l k, Decidable (P l k)] :
    Decidable (∀ l k, P l k) :=
  decidable_of_iff _ forall_list_iff.symm

instance (s : SceneInfo) : Decidable s.Wf :=
  inferInstanceAs (Decidable (∀ l k, (s.list l k).Wf))

namespace CondSetNode.Wf

variable {k : Kind} {n : CondSetNode k}
variable {c : CondNode k}

theorem index_lt (h : n.Wf) (hc : c ∈ n.pstCond) : c.iCondIndex < n.pstCond.length := by
  obtain ⟨i, hi, -, hci⟩ := getElem_of_map_eq_range h.index hc
  rw [hci]; exact hi

theorem index_lt_32 (h : n.Wf) (hc : c ∈ n.pstCond) : c.iCondIndex < 32 :=
  lt_of_lt_of_le (h.index_lt hc) h.le

theorem eq_of_index (h : n.Wf) {d : CondNode k} (hc : c ∈ n.pstCond) (hd : d ∈ n.pstCond)
    (he : c.iCondIndex = d.iCondIndex) : c = d := by
  obtain ⟨i, hi, hci, hii⟩ := getElem_of_map_eq_range h.index hc
  obtain ⟨j, hj, hdj, hjj⟩ := getElem_of_map_eq_range h.index hd
  have : i = j := by rw [← hii, ← hjj, he]
  subst this
  rw [← hci, ← hdj]

theorem node?_eq_some (h : n.Wf) : n.node? a = some c ↔ c ∈ n.pstCond ∧ c.addr = a :=
  find?_eq_some_iff h.addr

theorem map_range (h : n.Wf) (f : Nat → Bool) :
    (List.range n.ucCondCount).map f = n.pstCond.map fun c => f c.iCondIndex := by
  rw [h.count, ← h.index, List.map_map]; rfl

end CondSetNode.Wf

namespace CondList.Wf

variable {l : Logic} {k : Kind} {x : CondList l k}

theorem index_lt (h : x.Wf) {n : CondSetNode k} (hn : n ∈ x.stList) :
    n.iCondSetIndex < x.stList.length := by
  obtain ⟨i, hi, -, hci⟩ := getElem_of_map_eq_range h.index hn
  rw [hci]; exact hi

theorem index_lt_32 (h : x.Wf) {n : CondSetNode k} (hn : n ∈ x.stList) :
    n.iCondSetIndex < 32 :=
  lt_of_lt_of_le (h.index_lt hn) h.le

theorem eq_of_index (h : x.Wf) {n m : CondSetNode k} (hn : n ∈ x.stList) (hm : m ∈ x.stList)
    (he : n.iCondSetIndex = m.iCondSetIndex) : n = m := by
  obtain ⟨i, hi, hci, hii⟩ := getElem_of_map_eq_range h.index hn
  obtain ⟨j, hj, hdj, hjj⟩ := getElem_of_map_eq_range h.index hm
  have : i = j := by rw [← hii, ← hjj, he]
  subst this
  rw [← hci, ← hdj]

theorem set?_eq_some (h : x.Wf) {n : CondSetNode k} :
    x.set? a = some n ↔ n ∈ x.stList ∧ n.addr = a :=
  find?_eq_some_iff h.addr

theorem size_eq (h : x.Wf) : x.size = x.stList.length := by
  rw [CondList.size, h.size]; rfl

theorem map_range (h : x.Wf) (f : Nat → Bool) :
    (List.range x.size).map f = x.stList.map fun n => f n.iCondSetIndex := by
  rw [h.size_eq, ← h.index, List.map_map]; rfl

theorem iCount_nonneg (h : x.Wf) : 0 ≤ x.iCount := by
  rw [h.count]; exact Int.natCast_nonneg _

theorem iCount_eq_zero_iff (h : x.Wf) : x.iCount = 0 ↔ x.stList = [] := by
  rw [h.count]
  constructor
  · intro h0
    cases hx : x.stList with
    | nil => rfl
    | cons n ns =>
      rw [hx, List.map_cons, List.sum_cons] at h0
      have := (h.sets n (by rw [hx]; exact List.mem_cons_self)).pos
      omega
  · intro h0; simp [h0]

end CondList.Wf

namespace CondList

variable {l : Logic} {k : Kind} {f : CondSetNode k → CondSetNode k}

theorem map_modifySet {β : Type} {g : CondSetNode k → β} (hg : ∀ n, g (f n) = g n)
    (x : CondList l k) (a : Nat) : (x.modifySet a f).stList.map g = x.stList.map g :=
  map_write_of_eq hg _ _

theorem mem_modifySet {x : CondList l k} {m : CondSetNode k} :
    m ∈ (x.modifySet a f).stList ↔
      (∃ n ∈ x.stList, n.addr = a ∧ m = f n) ∨ (m ∈ x.stList ∧ m.addr ≠ a) :=
  mem_write_iff

end CondList

/-! ## Forgetting the truth words -/

def CondSetNode.eraseTruth {k : Kind} (n : CondSetNode k) : CondSetNode k :=
  { n with uiCondTrue := 0 }

def CondList.eraseTruth {l : Logic} {k : Kind} (x : CondList l k) : CondList l k :=
  { x with stList := x.stList.map CondSetNode.eraseTruth, uiCondSetTrue := 0 }

def CondLogic.eraseTruth {l : Logic} (x : CondLogic l) : CondLogic l :=
  { ucCondListTrue := 0
    pstTimeCondList := x.pstTimeCondList.eraseTruth
    pstEventCondList := x.pstEventCondList.eraseTruth }

/-- The scene without its truth words. -/
def SceneInfo.eraseTruth (s : SceneInfo) : SceneInfo :=
  { s with
    ucSceneCondTrue := false
    stOrCond := s.stOrCond.eraseTruth
    stAndCond := s.stAndCond.eraseTruth }

namespace SceneInfo

@[simp] theorem list_eraseTruth (s : SceneInfo) (l : Logic) (k : Kind) :
    s.eraseTruth.list l k = (s.list l k).eraseTruth := by
  cases l <;> cases k <;> rfl

theorem eraseTruth_setList (s : SceneInfo) (l : Logic) (k : Kind) (x : CondList l k)
    (h : x.eraseTruth = (s.list l k).eraseTruth) :
    (s.setList l k x).eraseTruth = s.eraseTruth := by
  cases l <;> cases k <;>
    simp only [eraseTruth, setList, setLogic, logic, CondLogic.setList, CondLogic.eraseTruth] <;>
    rw [h] <;> rfl

@[simp] theorem eraseTruth_setListTrue (s : SceneInfo) (l : Logic) (k : Kind) (b : Bool) :
    (s.setListTrue l k b).eraseTruth = s.eraseTruth := by
  cases l <;> rfl

@[simp] theorem eraseTruth_setScene (s : SceneInfo) (b : Bool) :
    ({ s with ucSceneCondTrue := b } : SceneInfo).eraseTruth = s.eraseTruth := rfl

theorem eraseTruth_modifySet {k : Kind} (s : SceneInfo) (p : CondPtr k)
    (f : CondSetNode k → CondSetNode k) (hf : ∀ n, (f n).eraseTruth = n.eraseTruth) :
    (s.modifySet p f).eraseTruth = s.eraseTruth := by
  apply eraseTruth_setList
  simp only [CondList.eraseTruth]
  rw [CondList.map_modifySet hf]
  rfl

@[simp] theorem eraseTruth_writeCondSetTrue (s : SceneInfo) (l : Logic) (k : Kind) (i : Nat)
    (b : Bool) : (s.writeCondSetTrue l k i b).eraseTruth = s.eraseTruth :=
  eraseTruth_setList _ _ _ _ rfl

end SceneInfo

theorem condSetTrueInit_eraseTruth (s : SceneInfo) (l : Logic) (k : Kind) (i : Nat) (b : Bool) :
    (condSetTrueInit s l k i b).eraseTruth = s.eraseTruth := by
  simp [condSetTrueInit]

theorem condTrueInit_eraseTruth {k : Kind} {p : CondPtr k} {b : Bool}
    (h : condTrueInit s p b = some s') : s'.eraseTruth = s.eraseTruth := by
  simp only [condTrueInit, bind_eq_bind, pure_def, bind_eq_some_iff,
    some.injEq] at h
  obtain ⟨n, -, c, -, rfl⟩ := h
  rw [condSetTrueInit_eraseTruth]
  exact SceneInfo.eraseTruth_modifySet s p _ fun _ => rfl

/-! ## Notions of the erased scene -/

section Congr

variable {l : Logic} {k : Kind}

theorem CondList.map_eraseTruth {β : Type} {x : CondList l k} {f : CondSetNode k → β}
    (hf : ∀ n, f n.eraseTruth = f n) : x.eraseTruth.stList.map f = x.stList.map f := by
  simp only [CondList.eraseTruth, List.map_map]
  exact List.map_congr_left fun n _ => hf n

theorem CondList.wf_eraseTruth (x : CondList l k) : x.eraseTruth.Wf ↔ x.Wf := by
  have hset : ∀ n : CondSetNode k, n.eraseTruth.Wf ↔ n.Wf := fun n =>
    ⟨fun h => ⟨h.index, h.count, h.pos, h.le, h.addr⟩,
      fun h => ⟨h.index, h.count, h.pos, h.le, h.addr⟩⟩
  have hlen : x.eraseTruth.stList.length = x.stList.length := by simp [CondList.eraseTruth]
  have hmem : (∀ n ∈ x.eraseTruth.stList, n.Wf) ↔ ∀ n ∈ x.stList, n.Wf := by
    simp only [CondList.eraseTruth, List.forall_mem_map, hset]
  constructor
  · intro h
    refine ⟨?_, ?_, ?_, ?_, ?_, hmem.mp h.sets⟩
    · rw [← hlen, ← h.index]; exact (map_eraseTruth fun _ => rfl).symm
    · rw [← hlen, ← h.size]; rfl
    · rw [← hlen]; exact h.le
    · rw [← map_eraseTruth (f := fun n => n.pstCond.length) fun _ => rfl]; exact h.count
    · rw [← map_eraseTruth (f := CondSetNode.addr) fun _ => rfl]; exact h.addr
  · intro h
    refine ⟨?_, ?_, ?_, ?_, ?_, hmem.mpr h.sets⟩
    · rw [hlen, ← h.index]; exact map_eraseTruth fun _ => rfl
    · rw [hlen, ← h.size]; rfl
    · rw [hlen]; exact h.le
    · rw [map_eraseTruth (f := fun n => n.pstCond.length) fun _ => rfl]; exact h.count
    · rw [map_eraseTruth (f := CondSetNode.addr) fun _ => rfl]; exact h.addr

end Congr

namespace SceneInfo

theorem wf_of_eraseTruth_eq (h : s'.eraseTruth = s.eraseTruth) (hw : s.Wf) : s'.Wf := by
  intro l k
  rw [← CondList.wf_eraseTruth, ← list_eraseTruth, h, list_eraseTruth, CondList.wf_eraseTruth]
  exact hw l k

/-- The pointers to the conditions of a list, in the order the list is walked. -/
def ptrs (s : SceneInfo) (l : Logic) (k : Kind) : List (CondPtr k) :=
  (s.list l k).stList.flatMap fun n => n.pstCond.map fun c => ⟨l, n.addr, c.addr⟩

/-- The pointers to all conditions of a logic. -/
def allPtrs (s : SceneInfo) (l : Logic) : List AnyPtr :=
  (s.ptrs l .time).map (Sigma.mk .time) ++ (s.ptrs l .event).map (Sigma.mk .event)

theorem ptrs_eraseTruth (s : SceneInfo) (l : Logic) (k : Kind) :
    s.eraseTruth.ptrs l k = s.ptrs l k := by
  simp only [ptrs, list_eraseTruth, CondList.eraseTruth, List.flatMap_map]
  rfl

theorem ptrs_of_eraseTruth_eq (h : s'.eraseTruth = s.eraseTruth) (l : Logic) (k : Kind) :
    s'.ptrs l k = s.ptrs l k := by
  rw [← ptrs_eraseTruth, h, ptrs_eraseTruth]

theorem node?_eraseTruth {k : Kind} (s : SceneInfo) (p : CondPtr k) :
    s.eraseTruth.node? p = s.node? p := by
  simp only [node?, set?, list_eraseTruth, CondList.set?, CondList.eraseTruth, List.find?_map,
    bind_eq_bind]
  cases h : (s.list p.acLogic k).stList.find? fun n => n.addr == p.pCondSetNode with
  | none =>
    have : (s.list p.acLogic k).stList.find?
        ((fun n => n.addr == p.pCondSetNode) ∘ CondSetNode.eraseTruth) = none := h
    rw [this]; rfl
  | some n =>
    have : (s.list p.acLogic k).stList.find?
        ((fun n => n.addr == p.pCondSetNode) ∘ CondSetNode.eraseTruth) = some n := h
    rw [this]; rfl

theorem node?_of_eraseTruth_eq {k : Kind} (h : s'.eraseTruth = s.eraseTruth) (p : CondPtr k) :
    s'.node? p = s.node? p := by
  rw [← node?_eraseTruth, h, node?_eraseTruth]

theorem mem_ptrs_iff {k : Kind} (hw : s.Wf) {l : Logic} {p : CondPtr k} :
    p ∈ s.ptrs l k ↔ p.acLogic = l ∧ ∃ n c, s.set? p = some n ∧ n.node? p.pCondNode = some c := by
  simp only [ptrs, List.mem_flatMap, List.mem_map]
  constructor
  · rintro ⟨n, hn, c, hc, rfl⟩
    exact ⟨rfl, n, c, (hw l k).set?_eq_some.mpr ⟨hn, rfl⟩,
      ((hw l k).sets n hn).node?_eq_some.mpr ⟨hc, rfl⟩⟩
  · rintro ⟨rfl, n, c, hn, hc⟩
    obtain ⟨hn, hna⟩ := (hw _ k).set?_eq_some.mp hn
    obtain ⟨hc, hca⟩ := ((hw _ k).sets n hn).node?_eq_some.mp hc
    exact ⟨n, hn, c, hc, by cases p; simp_all⟩

end SceneInfo

end Honyar.LocalScene
