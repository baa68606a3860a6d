import Honyar.Lib.Run
import Mathlib.Data.List.Basic
import Mathlib.Tactic.Common

/-!
# The circular queue

`circle_queue.c`: an array used as a ring.  A value that is pushed into a full queue takes the
place of the first one.  What the queue stands for is a suffix of the values pushed so far; they
stand at their numbers modulo the size of the array, and so do, in the other places, the last
values that were taken out.

The accessors treat a queue that runs over the end of the array apart.  There they go wrong:
`circle_queue_get_foot` reads the place behind the one that is written next, and the second loop
of the two others goes on where the first one has found its value.

A read outside the array gives `none`, a place that was never written the null pointer.
-/

namespace Honyar.LocalScene

open Option List

/-- `circle_queue_class_t` with its private parameters. -/
structure CircleQueue (α : Type) where
  iSize : Nat
  iCount : Nat
  iFront : Nat
  iRear : Nat
  elem : List (Option α)

namespace CircleQueue

variable {α : Type}

/-! ## The operations -/

/-- `new_circle_queue`. -/
def new (iSize : Nat) : CircleQueue α := ⟨iSize, 0, 0, 0, List.replicate iSize none⟩

/-- `circle_queue_is_empty`. -/
def isEmpty (s : CircleQueue α) : Bool := s.iCount == 0

/-- `circle_queue_is_full`. -/
def isFull (s : CircleQueue α) : Bool := s.iSize == s.iCount

/-- `circle_queue_pop`. -/
def pop (s : CircleQueue α) : Option (CircleQueue α × Option α) :=
  if s.isEmpty then some (s, none)
  else do
    let pTmp ← s.elem[s.iFront]?
    return ({ s with iFront := (s.iFront + 1) % s.iSize, iCount := s.iCount - 1 }, pTmp)

/-- `circle_queue_push`. -/
def push (s : CircleQueue α) (pValue : α) : Option (CircleQueue α) := do
  let s ← if s.isFull then s.pop.map Prod.fst else some s
  let _ ← s.elem[s.iRear]?
  return { s with
    elem := s.elem.set s.iRear (some pValue)
    iRear := (s.iRear + 1) % s.iSize
    iCount := s.iCount + 1 }

/-- `circle_queue_get_top`. -/
def getTop (s : CircleQueue α) : Option (Option α) :=
  if s.isEmpty then some none else s.elem[s.iFront]?

/-- `circle_queue_get_foot`. -/
def getFoot (s : CircleQueue α) : Option (Option α) :=
  if s.isEmpty then some none
  else if s.iFront < s.iRear then s.elem[s.iRear - 1]?
  else s.elem[s.iRear + 1]?

/-- A loop of `circle_queue_get_by_id` or `circle_queue_get`: `n` places from `i` on, up to the
first that passes the test, with `iCount` and `pTmp` as they are before and after it. -/
def scan (elem : List (Option α)) (test : Nat → Option α → Bool) :
    Nat → Nat → Nat → Option α → Option (Nat × Option α)
  | 0, _, iCount, pTmp => some (iCount, pTmp)
  | n + 1, i, iCount, pTmp =>
    match elem[i]? with
    | none => none
    | some v =>
      if test iCount v then some (iCount, v) else scan elem test n (i + 1) (iCount + 1) pTmp

/-- The two layouts of a queue with elements. -/
def scanAll (s : CircleQueue α) (test : Nat → Option α → Bool) : Option (Option α) :=
  if s.iFront < s.iRear then
    (scan s.elem test (s.iRear - s.iFront) s.iFront 0 none).map Prod.snd
  else do
    let r ← scan s.elem test (s.iSize - s.iFront) s.iFront 0 none
    (scan s.elem test s.iRear 0 r.1 r.2).map Prod.snd

/-- `circle_queue_get_by_id`. -/
def getById (s : CircleQueue α) (iIndex : Int) : Option (Option α) :=
  if iIndex < 0 then some none
  else if s.isEmpty then some none
  else if iIndex ≥ s.iCount then some none
  else s.scanAll fun iCount _ => iIndex == iCount

/-- `circle_queue_get`; `pCmpValueHandle` says that the comparison with `pCmpValue` gives zero. -/
def get (s : CircleQueue α) (pCmpValueHandle : Option α → Bool) : Option (Option α) :=
  if s.isEmpty then some none else s.scanAll fun _ v => pCmpValueHandle v

end CircleQueue

/-- What is done to a queue. -/
inductive QueueAct (α : Type) where
  | push (pValue : α)
  | pop

section Fifo

variable {α : Type}

/-- One step; a pop gives its answer. -/
def CircleQueue.step (s : CircleQueue α) : QueueAct α → Option (CircleQueue α × List (Option α))
  | .push v => (s.push v).map fun s => (s, [])
  | .pop => s.pop.map fun r => (r.1, [r.2])

/-- The elements of a queue with `n` places after a step. -/
def fifo (n : Nat) (q : List α) : QueueAct α → List α
  | .push v => (if q.length = n then q.tail else q) ++ [v]
  | .pop => q.tail

/-- The value that a step pushes. -/
def QueueAct.pushed : QueueAct α → Option α
  | .push v => some v
  | .pop => none

/-! ## What a queue stands for -/

namespace CircleQueue

variable {x : α} {elem : List (Option α)} {i : Nat} {vs : List α}

/-- The queue holds `q`; the values `t` that were pushed before are gone. -/
structure Holds (n : Nat) (t q : List α) (s : CircleQueue α) : Prop where
  size : s.iSize = n
  length : s.elem.length = n
  count : s.iCount = q.length
  le : q.length ≤ n
  front : s.iFront = t.length % n
  rear : s.iRear = (t.length + q.length) % n
  /-- A place has the last value that was pushed there. -/
  cells : ∀ j v, (t ++ q)[j]? = some v → t.length + q.length ≤ j + n →
    s.elem[j % n]? = some (some v)

variable {n : Nat} {t q : List α} {s : CircleQueue α}

theorem Holds.new (n : Nat) : Holds n ([] : List α) [] (CircleQueue.new n) where
  size := rfl
  length := length_replicate
  count := rfl
  le := Nat.zero_le n
  front := (Nat.zero_mod n).symm
  rear := (Nat.zero_mod n).symm
  cells j v hj _ := by cases hj

theorem Holds.isEmpty_iff (h : Holds n t q s) : s.isEmpty = true ↔ q = [] := by
  rw [isEmpty, h.count, beq_iff_eq, length_eq_zero_iff]

theorem Holds.elem_at (h : Holds n t q s) {k : Nat} {v : α} (hk : q[k]? = some v) :
    s.elem[(t.length + k) % n]? = some (some v) := by
  refine h.cells _ v ?_ ?_
  · rw [getElem?_append_right (Nat.le_add_right _ _), Nat.add_sub_cancel_left, hk]
  · have := h.le
    omega

theorem Holds.pop (h : Holds n t (x :: q) s) :
    ∃ s', s.pop = some (s', some x) ∧ Holds n (t ++ [x]) q s' := by
  have hlen : (t ++ [x]).length = t.length + 1 := by simp
  have hempty : ¬ s.isEmpty = true := fun he => cons_ne_nil x q (h.isEmpty_iff.mp he)
  have hfirst : s.elem[s.iFront]? = some (some x) := by
    rw [h.front]
    exact h.elem_at (k := 0) rfl
  refine ⟨{ s with iFront := (s.iFront + 1) % s.iSize, iCount := s.iCount - 1 }, ?_, ?_⟩
  · rw [CircleQueue.pop, if_neg hempty, hfirst]
    rfl
  · refine ⟨h.size, h.length, ?_, Nat.le_of_succ_le h.le, ?_, ?_, fun j v hj hle => ?_⟩
    · show s.iCount - 1 = _
      rw [h.count]
      rfl
    · show (s.iFront + 1) % s.iSize = _
      rw [h.front, h.size, Nat.mod_add_mod, hlen]
    · rw [h.rear, hlen, length_cons]
      congr 1
      omega
    · rw [append_assoc] at hj
      refine h.cells j v hj ?_
      rw [hlen] at hle
      rw [length_cons]
      omega

theorem Holds.put (h : Holds n t q s) (hlt : q.length < n) (v : α) :
    Holds n t (q ++ [v]) { s with
      elem := s.elem.set s.iRear (some v)
      iRear := (s.iRear + 1) % s.iSize
      iCount := s.iCount + 1 } := by
  have hn : 0 < n := Nat.zero_lt_of_lt hlt
  refine ⟨h.size, ?_, ?_, ?_, h.front, ?_, fun j w hj hle => ?_⟩
  · rw [length_set, h.length]
  · show s.iCount + 1 = _
    rw [h.count, length_append]
    rfl
  · rw [length_append]
    exact hlt
  · show (s.iRear + 1) % s.iSize = _
    rw [h.rear, h.size, Nat.mod_add_mod, length_append]
    rfl
  · rw [length_append, length_singleton] at hle
    rw [← append_assoc] at hj
    rw [h.rear]
    rcases Nat.lt_trichotomy j (t.length + q.length) with hj' | rfl | hj'
    · have hne : (t.length + q.length) % n ≠ j % n := by
        intro heq
        have hsub := Nat.sub_mod_eq_zero_of_mod_eq heq
        rw [Nat.mod_eq_of_lt (by omega)] at hsub
        omega
      rw [getElem?_set_ne hne]
      rw [getElem?_append_left (by rw [length_append]; exact hj')] at hj
      exact h.cells j w hj (by omega)
    · rw [getElem?_append_right (by simp), length_append, Nat.sub_self] at hj
      obtain rfl : v = w := some.inj hj
      exact getElem?_set_self (by rw [h.length]; exact Nat.mod_lt _ hn)
    · rw [getElem?_eq_none (by simp; omega)] at hj
      cases hj

/-- A value that is pushed takes the place of the first one of a full queue. -/
theorem Holds.push (hn : 0 < n) (h : Holds n t q s) (v : α) :
    ∃ s' t', s.push v = some s' ∧ t' ++ fifo n q (.push v) = t ++ q ++ [v] ∧
      Holds n t' (fifo n q (.push v)) s' := by
  have hroom : ∀ {t q : List α} {s : CircleQueue α}, Holds n t q s → q.length < n →
      ∃ s', (do
          let _ ← s.elem[s.iRear]?
          return { s with
            elem := s.elem.set s.iRear (some v)
            iRear := (s.iRear + 1) % s.iSize
            iCount := s.iCount + 1 } : Option (CircleQueue α)) = some s' ∧
        Holds n t (q ++ [v]) s' := by
    intro t q s h hlt
    have hrear : s.iRear < s.elem.length := by
      rw [h.rear, h.length]
      exact Nat.mod_lt _ hn
    rw [getElem?_eq_getElem hrear]
    exact ⟨_, rfl, h.put hlt v⟩
  have hfull : s.isFull = true ↔ q.length = n := by
    rw [isFull, h.size, h.count, beq_iff_eq, eq_comm]
  rw [CircleQueue.push, fifo]
  by_cases hlen : q.length = n
  · rw [if_pos (hfull.mpr hlen), if_pos hlen]
    cases q with
    | nil => exact absurd hlen (Nat.ne_of_lt hn)
    | cons x q =>
      obtain ⟨s', hpop, h'⟩ := h.pop
      obtain ⟨s'', hs'', h''⟩ := hroom h' (by rw [← hlen]; exact Nat.lt_succ_self _)
      refine ⟨s'', t ++ [x], ?_, by simp, h''⟩
      rw [hpop]
      exact hs''
  · rw [if_neg fun hf => hlen (hfull.mp hf), if_neg hlen]
    obtain ⟨s', hs', h'⟩ := hroom h (Nat.lt_of_le_of_ne h.le hlen)
    exact ⟨s', t, hs', by simp, h'⟩

theorem Holds.step (hn : 0 < n) (h : Holds n t q s) (a : QueueAct α) :
    ∃ s' o t', s.step a = some (s', o) ∧ t' ++ fifo n q a = t ++ q ++ a.pushed.toList ∧
      Holds n t' (fifo n q a) s' := by
  cases a with
  | push v =>
    obtain ⟨s', t', hs', ht', h'⟩ := h.push hn v
    refine ⟨s', [], t', ?_, ht', h'⟩
    rw [CircleQueue.step, hs']
    rfl
  | pop =>
    cases q with
    | nil =>
      refine ⟨s, [none], t, ?_, by simp [fifo, QueueAct.pushed], h⟩
      rw [CircleQueue.step, CircleQueue.pop, if_pos (h.isEmpty_iff.mpr rfl)]
      rfl
    | cons x q =>
      obtain ⟨s', hpop, h'⟩ := h.pop
      refine ⟨s', [some x], t ++ [x], ?_, by simp [fifo, QueueAct.pushed], h'⟩
      rw [CircleQueue.step, hpop]
      rfl

theorem Holds.run (hn : 0 < n) (h : Holds n t q s) (acts : List (QueueAct α)) :
    ∃ s' o t', Run.run CircleQueue.step s acts = some (s', o) ∧
      t' ++ acts.foldl (fifo n) q = t ++ q ++ acts.filterMap QueueAct.pushed ∧
      Holds n t' (acts.foldl (fifo n) q) s' := by
  induction acts generalizing s t q with
  | nil => exact ⟨s, [], t, rfl, by simp, h⟩
  | cons a acts ih =>
    obtain ⟨u, o, t', hu, ht', h'⟩ := h.step hn a
    obtain ⟨s', os, t'', hrun, ht'', h''⟩ := ih h'
    refine ⟨s', o ++ os, t'', Run.run_cons.mpr ⟨u, o, os, hu, hrun, rfl⟩, ?_, h''⟩
    rw [foldl_cons, ht'', ht', append_assoc (t ++ q)]
    congr 1
    cases a with
    | push v => rfl
    | pop => rfl

/-! ## The loops -/

/-- `n` places from `i` on hold the values `vs`. -/
def Segment (elem : List (Option α)) (i : Nat) (vs : List α) : Prop :=
  ∀ k v, vs[k]? = some v → elem[i + k]? = some (some v)

theorem Segment.head (h : Segment elem i (x :: vs)) : elem[i]? = some (some x) :=
  h 0 x rfl

theorem Segment.tail (h : Segment elem i (x :: vs)) : Segment elem (i + 1) vs := by
  intro k v hk
  have := h (k + 1) v hk
  rwa [Nat.add_right_comm, Nat.add_assoc]

theorem scan_count (h : Segment elem i vs) (m iCount : Nat) (pTmp : Option α) :
    scan elem (fun c _ => (m : Int) == c) vs.length i iCount pTmp =
      some (if iCount ≤ m ∧ m < iCount + vs.length then (m, vs[m - iCount]?)
        else (iCount + vs.length, pTmp)) := by
  induction vs generalizing i iCount with
  | nil =>
    rw [length_nil, if_neg (by omega)]
    rfl
  | cons x vs ih =>
    rw [length_cons, scan, h.head]
    simp only [beq_iff_eq, Int.natCast_inj]
    by_cases hm : m = iCount
    · subst hm
      rw [if_pos rfl, if_pos (by omega), Nat.sub_self]
      rfl
    · rw [if_neg hm, ih h.tail]
      by_cases hlt : iCount + 1 ≤ m ∧ m < iCount + 1 + vs.length
      · rw [if_pos hlt, if_pos (by omega), ← getElem?_cons_succ (a := x)]
        congr 3
        omega
      · rw [if_neg hlt, if_neg (by omega)]
        congr 2
        omega

theorem scan_find (h : Segment elem i vs) (cmp : Option α → Bool) (iCount : Nat) (pTmp : Option α) :
    ∃ c, scan elem (fun _ v => cmp v) vs.length i iCount pTmp =
      some (c, (vs.find? fun v => cmp (some v)).or pTmp) := by
  induction vs generalizing i iCount with
  | nil => exact ⟨iCount, rfl⟩
  | cons x vs ih =>
    rw [length_cons, scan, h.head, find?_cons]
    cases hx : cmp (some x) with
    | true => exact ⟨iCount, by simp [hx]⟩
    | false =>
      obtain ⟨c, hc⟩ := ih h.tail (iCount + 1)
      exact ⟨c, by simp [hx, hc]⟩

/-! ## The two layouts -/

/-- The elements in one stretch of the array. -/
structure Straight (q : List α) (s : CircleQueue α) : Prop where
  lt : s.iFront < s.iRear
  length : s.iRear - s.iFront = q.length
  stretch : Segment s.elem s.iFront q

/-- The elements over the end of the array, `as` before it and `bs` from its begin on. -/
structure Wrapped (as bs : List α) (s : CircleQueue α) : Prop where
  not_lt : ¬ s.iFront < s.iRear
  front : s.iSize - s.iFront = as.length
  rear : s.iRear = bs.length
  before : Segment s.elem s.iFront as
  after : Segment s.elem 0 bs

theorem wrap_cases {g c : Nat} (hc : 0 < c) (hcn : c ≤ n) :
    (g % n < (g + c) % n ∧ (g + c) % n = g % n + c) ∨
      (¬ g % n < (g + c) % n ∧ (g + c) % n + n = g % n + c ∧ n ≤ g + c) := by
  have hg : g % n < n := Nat.mod_lt g (Nat.lt_of_lt_of_le hc hcn)
  have hle := Nat.mod_le g n
  rw [← Nat.mod_add_mod]
  by_cases hlt : g % n + c < n
  · rw [Nat.mod_eq_of_lt hlt]
    exact Or.inl ⟨by omega, rfl⟩
  · rw [Nat.mod_eq_sub_mod (show g % n + c ≥ n by omega),
      Nat.mod_eq_of_lt (show g % n + c - n < n by omega)]
    exact Or.inr ⟨by omega, by omega, by omega⟩

theorem Holds.layout (h : Holds n t q s) (hq : q ≠ []) :
    Straight q s ∨ n ≤ t.length + q.length ∧
      Wrapped (q.take (n - t.length % n)) (q.drop (n - t.length % n)) s := by
  have hc : 0 < q.length := List.length_pos_of_ne_nil hq
  have hg : t.length % n < n := Nat.mod_lt _ (Nat.lt_of_lt_of_le hc h.le)
  have hplace : ∀ {k v}, q[k]? = some v → t.length % n + k < n →
      s.elem[s.iFront + k]? = some (some v) := by
    intro k v hk hlt
    rw [← h.elem_at hk, ← Nat.mod_add_mod, Nat.mod_eq_of_lt hlt, h.front]
  obtain ⟨hlt, heq⟩ | ⟨hlt, heq, hle⟩ := wrap_cases (g := t.length) hc h.le
  · refine Or.inl ⟨by rw [h.front, h.rear]; exact hlt, by rw [h.front, h.rear]; omega,
      fun k v hk => hplace hk ?_⟩
    have hk' := (List.getElem?_eq_some_iff.mp hk).1
    have := Nat.mod_lt (t.length + q.length) (Nat.lt_of_lt_of_le hc h.le)
    omega
  · refine Or.inr ⟨hle, by rw [h.front, h.rear]; exact hlt, ?_, ?_, fun k v hk => ?_,
      fun k v hk => ?_⟩
    · rw [h.size, h.front, List.length_take]
      omega
    · rw [h.rear, List.length_drop]
      omega
    · have hk' := (List.getElem?_eq_some_iff.mp hk).1
      rw [List.length_take] at hk'
      rw [List.getElem?_take_of_lt (by omega)] at hk
      exact hplace hk (by omega)
    · rw [List.getElem?_drop] at hk
      have hk' := (List.getElem?_eq_some_iff.mp hk).1
      have hle := h.le
      rw [← h.elem_at hk, Nat.zero_add, ← Nat.mod_add_mod,
        Nat.mod_eq_sub_mod (show t.length % n + (n - t.length % n + k) ≥ n by omega),
        Nat.mod_eq_of_lt (by omega)]
      congr 1
      omega

/-! ## The accessors -/

/-- The accessors agree with the elements. -/
structure Agrees (q : List α) (s : CircleQueue α) : Prop where
  top : s.getTop = some q.head?
  foot : s.getFoot = some q.getLast?
  byId : ∀ i < q.length, s.getById i = some q[i]?
  get : ∀ cmp : Option α → Bool, s.get cmp = some (q.find? fun v => cmp (some v))

theorem Holds.agrees_nil (h : Holds n t [] s) : Agrees [] s := by
  have hempty : s.isEmpty = true := h.isEmpty_iff.mpr rfl
  exact ⟨if_pos hempty, if_pos hempty, fun i hi => absurd hi (Nat.not_lt_zero i),
    fun _ => if_pos hempty⟩

theorem Holds.not_isEmpty (h : Holds n t q s) (hq : q ≠ []) : ¬ s.isEmpty = true :=
  fun he => hq (h.isEmpty_iff.mp he)

theorem Holds.getTop (h : Holds n t q s) (hq : q ≠ []) : s.getTop = some q.head? := by
  cases q with
  | nil => exact absurd rfl hq
  | cons x q =>
    rw [CircleQueue.getTop, if_neg (h.not_isEmpty hq), h.front]
    exact h.elem_at (k := 0) rfl

theorem Holds.getById (h : Holds n t q s) (hi : i < q.length) :
    s.getById i = s.scanAll fun c _ => (i : Int) == c := by
  have hq : q ≠ [] := ne_nil_of_length_pos (Nat.zero_lt_of_lt hi)
  rw [CircleQueue.getById, if_neg (by omega), if_neg (h.not_isEmpty hq),
    if_neg (by rw [h.count]; omega)]

theorem Holds.get (h : Holds n t q s) (hq : q ≠ []) (cmp : Option α → Bool) :
    s.get cmp = s.scanAll fun _ v => cmp v :=
  if_neg (h.not_isEmpty hq)

theorem Straight.agrees (hs : Straight q s) (h : Holds n t q s) (hq : q ≠ []) : Agrees q s := by
  have hpos : 0 < q.length := length_pos_of_ne_nil hq
  refine ⟨h.getTop hq, ?_, fun i hi => ?_, fun cmp => ?_⟩
  · have hlast : q[q.length - 1]? = some q[q.length - 1] := getElem?_eq_getElem (by omega)
    rw [getFoot, if_neg (h.not_isEmpty hq), if_pos hs.lt, getLast?_eq_getElem?, hlast,
      ← hs.stretch _ _ hlast]
    have := hs.length
    congr 1
    omega
  · rw [h.getById hi, scanAll, if_pos hs.lt, hs.length, scan_count hs.stretch, if_pos (by omega)]
    rfl
  · obtain ⟨c, hc⟩ := scan_find hs.stretch cmp 0 none
    rw [h.get hq, scanAll, if_pos hs.lt, hs.length, hc, or_none]
    rfl

section Wrapped

variable {as bs : List α} (hs : Wrapped as bs s)

include hs

theorem Wrapped.getById (h : Holds n t (as ++ bs) s) (hi : i < (as ++ bs).length) :
    s.getById i = some (if i < as.length then bs.head?.or as[i]? else bs[i - as.length]?) := by
  rw [h.getById hi, scanAll, if_neg hs.not_lt, hs.front, scan_count hs.before, hs.rear]
  rw [length_append] at hi
  by_cases hlt : i < as.length
  · rw [if_pos ⟨Nat.zero_le i, by omega⟩, if_pos hlt, bind_eq_bind, bind_some,
      scan_count hs.after, Nat.sub_self]
    cases bs with
    | nil => simp
    | cons b bs => simp
  · rw [if_neg (by omega), if_neg hlt, bind_eq_bind, bind_some,
      scan_count hs.after, Nat.zero_add, if_pos (by omega)]
    rfl

theorem Wrapped.get (h : Holds n t (as ++ bs) s) (hq : as ++ bs ≠ []) (cmp : Option α → Bool) :
    s.get cmp = some ((bs.find? fun v => cmp (some v)).or (as.find? fun v => cmp (some v))) := by
  obtain ⟨c, hc⟩ := scan_find hs.before cmp 0 none
  obtain ⟨c', hc'⟩ := scan_find hs.after cmp c (as.find? fun v => cmp (some v))
  rw [h.get hq, scanAll, if_neg hs.not_lt, hs.front, hc, or_none, bind_eq_bind,
    bind_some, hs.rear, hc']
  rfl

theorem Wrapped.getFoot (h : Holds n t q s) (hq : q ≠ []) (hle : n ≤ t.length + q.length) :
    s.getFoot =
      if (t.length + q.length) % n + 1 < n then some (t ++ q)[t.length + q.length + 1 - n]?
      else none := by
  rw [CircleQueue.getFoot, if_neg (h.not_isEmpty hq), if_neg hs.not_lt, h.rear]
  split
  · rename_i hlt
    have hj : t.length + q.length + 1 - n < (t ++ q).length := by
      rw [length_append]
      omega
    have hplace : (t.length + q.length + 1 - n) % n = (t.length + q.length) % n + 1 := by
      rw [← Nat.mod_eq_sub_mod (by omega), ← Nat.mod_add_mod, Nat.mod_eq_of_lt hlt]
    rw [getElem?_eq_getElem hj, ← hplace]
    exact h.cells _ _ (getElem?_eq_getElem hj) (by omega)
  · exact getElem?_eq_none (by rw [h.length]; omega)

end Wrapped

/-- The queue is empty, or in one stretch of the array; or else the value that was pushed one
round before the next one is in the array and the same as the last one, and the elements before
the end of the array are all the same as the one at its begin. -/
def Readable (n : Nat) (h q : List α) : Prop :=
  q = [] ∨ (h.length - q.length) % n < h.length % n ∨
    (h.length % n + 1 < n ∧ h[h.length + 1 - n]? = q.getLast?) ∧
      (h.length % n = 0 ∨ ∀ x ∈ q.take (n - (h.length - q.length) % n),
        q[n - (h.length - q.length) % n]? = some x)

/-- The accessors agree over the end of the array exactly when the foot is there twice and what
is before the end is all the same. -/
theorem Wrapped.agrees_iff_readable {as bs : List α} (hs : Wrapped as bs s)
    (h : Holds n t (as ++ bs) s)
    (hq : as ++ bs ≠ []) (hle : n ≤ t.length + (as ++ bs).length) :
    Agrees (as ++ bs) s ↔
      ((t.length + (as ++ bs).length) % n + 1 < n ∧
        (t ++ (as ++ bs))[t.length + (as ++ bs).length + 1 - n]? = (as ++ bs).getLast?) ∧
      (bs = [] ∨ ∀ x ∈ as, bs.head? = some x) := by
  have hfoot : s.getFoot = some (as ++ bs).getLast? ↔
      (t.length + (as ++ bs).length) % n + 1 < n ∧
        (t ++ (as ++ bs))[t.length + (as ++ bs).length + 1 - n]? = (as ++ bs).getLast? := by
    rw [hs.getFoot h hq hle]
    split
    · rename_i hlt
      rw [some.injEq, and_iff_right hlt]
    · rename_i hlt
      exact iff_of_false (by simp) fun hb => hlt hb.1
  have hsame : (∀ i < (as ++ bs).length, s.getById i = some (as ++ bs)[i]?) ↔
      bs = [] ∨ ∀ x ∈ as, bs.head? = some x := by
    constructor
    · intro hall
      refine or_iff_not_imp_left.mpr fun hbs x hx => ?_
      obtain ⟨i, hi, rfl⟩ := mem_iff_getElem.mp hx
      have hi' : i < (as ++ bs).length := by
        rw [length_append]
        omega
      have hread := hall i hi'
      rw [hs.getById h hi', if_pos hi, getElem?_append_left hi, some.injEq,
        getElem?_eq_getElem hi] at hread
      rw [head?_eq_some_head hbs] at hread ⊢
      exact hread
    · intro hsame i hi
      rw [hs.getById h hi]
      split
      · rename_i hlt
        rw [getElem?_append_left hlt]
        obtain rfl | hsame := hsame
        · rfl
        · rw [hsame _ (getElem_mem hlt), getElem?_eq_getElem hlt]
          rfl
      · rename_i hge
        rw [getElem?_append_right (Nat.le_of_not_lt hge)]
  constructor
  · exact fun ha => ⟨hfoot.mp ha.foot, hsame.mp ha.byId⟩
  · rintro ⟨hf, hb⟩
    refine ⟨h.getTop hq, hfoot.mpr hf, hsame.mpr hb, fun cmp => ?_⟩
    rw [hs.get h hq, find?_append]
    obtain rfl | hb := hb
    · simp
    · cases has : as.find? fun v => cmp (some v) with
      | none => simp
      | some x =>
        -- what is found before the end is also the first one behind it
        have hhead := hb x (mem_of_find?_eq_some has)
        obtain ⟨bs', rfl⟩ := head?_eq_some_iff.mp hhead
        rw [find?_cons_of_pos (find?_some has), some_or]

theorem Holds.agrees_iff_readable (h : Holds n t q s) : Agrees q s ↔ Readable n (t ++ q) q := by
  have hlen : (t ++ q).length = t.length + q.length := length_append
  rw [Readable, hlen, Nat.add_sub_cancel]
  by_cases hq : q = []
  · subst hq
    exact iff_of_true h.agrees_nil (Or.inl rfl)
  · rw [or_iff_right hq]
    obtain hs | ⟨hle, hs⟩ := h.layout hq
    · refine iff_of_true (hs.agrees h hq) (Or.inl ?_)
      rw [← h.front, ← h.rear]
      exact hs.lt
    · have hnot : ¬ t.length % n < (t.length + q.length) % n := by
        rw [← h.front, ← h.rear]
        exact hs.not_lt
      have hrear : q.drop (n - t.length % n) = [] ↔ (t.length + q.length) % n = 0 := by
        rw [← length_eq_zero_iff, ← hs.rear, h.rear]
      have hiff := hs.agrees_iff_readable (t := t) (n := n)
      rw [take_append_drop, hrear, head?_drop] at hiff
      rw [or_iff_right hnot]
      exact hiff h hq hle

end CircleQueue

/-- After any pushes and pops, the accessors agree with the elements exactly when these can be
read. -/
theorem circleQueue_accessors_iff {n : Nat} (hn : 0 < n) (acts : List (QueueAct α)) :
    ∃ s os, Run.run CircleQueue.step (CircleQueue.new n) acts = some (s, os) ∧
      (s.Agrees (acts.foldl (fifo n) []) ↔
        CircleQueue.Readable n (acts.filterMap QueueAct.pushed) (acts.foldl (fifo n) [])) := by
  obtain ⟨s, os, t, hrun, ht, h⟩ := (CircleQueue.Holds.new n).run hn acts
  refine ⟨s, os, hrun, ?_⟩
  rw [h.agrees_iff_readable, ht]
  rfl

end Fifo

/-- A queue of one place. -/
theorem circleQueue_accessors_one :
    ∃ s os, Run.run CircleQueue.step (CircleQueue.new 1) [.push 7] = some (s, os) ∧
      (s.Agrees ([.push 7].foldl (fifo 1) []) ↔ CircleQueue.Readable 1 [7] [7]) :=
  circleQueue_accessors_iff Nat.one_pos [.push 7]

/-- Three places and three pushes: the foot is read in the second place. -/
theorem circleQueue_foot_full :
    ∃ s os, Run.run CircleQueue.step (CircleQueue.new 3) [.push 7, .push 8, .push 9] =
      some (s, os) ∧ ¬ s.Agrees ([.push 7, .push 8, .push 9].foldl (fifo 3) []) := by
  refine ⟨⟨3, 3, 0, 0, [some 7, some 8, some 9]⟩, [], rfl, fun h => ?_⟩
  have hfoot : some (some 8) = some (some 9) := h.foot
  cases hfoot

end Honyar.LocalScene
