import Honyar.LocalScene.CircleQueue

/-!
# The circular queue as a bounded list

The calls of `circle_queue.c` that change a queue, run beside a list that holds at most as many
elements as the array has places and drops its oldest one when another is put into a full one.
An empty and a full queue have the same indices, and only the counter tells them apart.
-/

namespace Honyar.LocalScene

open List

variable {α : Type}

/-- A call of a queue.  A null pointer is not pushed: the parameters are checked. -/
inductive QueueCall (α : Type) where
  | push (pValue : Option α)
  | pop
  | clear

namespace CircleQueue

/-- The loop of `circle_queue_clear`, for as many rounds as it is given. -/
def clearLoop : Nat → CircleQueue α → Option (CircleQueue α)
  | 0, _ => none
  | rounds + 1, s => do
    let (s, pTmp) ← s.pop
    match pTmp with
    | none => return s
    | some _ => clearLoop rounds s

/-- `circle_queue_clear`: one round for each element, and the last one for the null pointer. -/
def clear (s : CircleQueue α) : Option (CircleQueue α) := s.clearLoop (s.iCount + 1)

/-- A call; a pop gives its answer. -/
def call (s : CircleQueue α) : QueueCall α → Option (CircleQueue α × List (Option α))
  | .push none => some (s, [])
  | .push (some v) => s.step (.push v)
  | .pop => s.step .pop
  | .clear => s.clear.map fun s => (s, [])

/-- The elements, from the first index on and round the end of the array. -/
def elements (s : CircleQueue α) : List (Option (Option α)) :=
  (List.range s.iCount).map fun k => s.elem[(s.iFront + k) % s.iSize]?

/-- What the indices of a queue with `n` places satisfy. -/
structure Indexed (n : Nat) (s : CircleQueue α) : Prop where
  front : s.iFront < n
  rear : s.iRear < n
  count : s.iCount ≤ n
  rear_eq : s.iRear = (s.iFront + s.iCount) % n

end CircleQueue

/-- The list of at most `n` elements, the oldest first. -/
def boundedFifo (n : Nat) (q : List α) : QueueCall α → Option (List α × List (Option α))
  | .push none => some (q, [])
  | .push (some v) => some ((if q.length = n then q.tail else q) ++ [v], [])
  | .pop => some (q.tail, [q.head?])
  | .clear => some ([], [])

namespace CircleQueue

variable {n : Nat} {t q : List α} {s : CircleQueue α}

theorem Holds.indexed (hn : 0 < n) (h : Holds n t q s) : Indexed n s where
  front := by
    rw [h.front]
    exact Nat.mod_lt _ hn
  rear := by
    rw [h.rear]
    exact Nat.mod_lt _ hn
  count := h.count ▸ h.le
  rear_eq := by rw [h.rear, h.front, h.count, Nat.mod_add_mod]

theorem Holds.elements (h : Holds n t q s) : s.elements = q.map fun v => some (some v) := by
  apply ext_getElem?
  intro k
  rw [CircleQueue.elements, h.count, getElem?_map, getElem?_map]
  by_cases hk : k < q.length
  · have hv : q[k]? = some q[k] := getElem?_eq_getElem hk
    rw [getElem?_range hk, hv, Option.map_some, Option.map_some, h.front, h.size,
      Nat.mod_add_mod, h.elem_at hv]
  · rw [Nat.not_lt] at hk
    rw [getElem?_eq_none hk, getElem?_eq_none (by rwa [length_range])]
    rfl

theorem Holds.clearLoop (h : Holds n t q s) :
    ∃ s' t', s.clearLoop (q.length + 1) = some s' ∧ Holds n t' [] s' := by
  induction q generalizing s t with
  | nil =>
    refine ⟨s, t, ?_, h⟩
    rw [CircleQueue.clearLoop, CircleQueue.pop, if_pos (h.isEmpty_iff.mpr rfl)]
    rfl
  | cons x q ih =>
    obtain ⟨u, hpop, hu⟩ := h.pop
    obtain ⟨s', t', hs', h'⟩ := ih hu
    refine ⟨s', t', ?_, h'⟩
    rw [length_cons, CircleQueue.clearLoop, hpop]
    exact hs'

/-- A call does to the queue what it does to the list, and answers the same. -/
theorem Holds.call (hn : 0 < n) (h : Holds n t q s) (a : QueueCall α) :
    ∃ s' t' q' o, s.call a = some (s', o) ∧ boundedFifo n q a = some (q', o) ∧
      Holds n t' q' s' := by
  cases a with
  | push pValue =>
    cases pValue with
    | none => exact ⟨s, t, q, [], rfl, rfl, h⟩
    | some v =>
      obtain ⟨s', t', hs', -, h'⟩ := h.push hn v
      refine ⟨s', t', _, [], ?_, rfl, h'⟩
      rw [CircleQueue.call, CircleQueue.step, hs']
      rfl
  | pop =>
    cases q with
    | nil =>
      refine ⟨s, t, [], [none], ?_, rfl, h⟩
      rw [CircleQueue.call, CircleQueue.step, CircleQueue.pop,
        if_pos (h.isEmpty_iff.mpr rfl)]
      rfl
    | cons x q =>
      obtain ⟨s', hpop, h'⟩ := h.pop
      refine ⟨s', _, q, [some x], ?_, rfl, h'⟩
      rw [CircleQueue.call, CircleQueue.step, hpop]
      rfl
  | clear =>
    obtain ⟨s', t', hs', h'⟩ := h.clearLoop
    refine ⟨s', t', [], [], ?_, rfl, h'⟩
    rw [CircleQueue.call, CircleQueue.clear, h.count, hs']
    rfl

end CircleQueue

/-- After every sequence of calls the indices are in their ranges, and the queue holds and has
answered what the bounded list does. -/
theorem circleQueue_refines_boundedFifo {n : Nat} (hn : 0 < n) (calls : List (QueueCall α)) :
    ∃ s q os, Run.run CircleQueue.call (CircleQueue.new n) calls = some (s, os) ∧
      Run.run (boundedFifo n) [] calls = some (q, os) ∧ s.Indexed n ∧
      s.elements = q.map fun v => some (some v) := by
  have hstep : ∀ (s : CircleQueue α) (q : List α) (a : QueueCall α),
      (∃ t, CircleQueue.Holds n t q s) → True →
        ∃ s' q' o, s.call a = some (s', o) ∧ boundedFifo n q a = some (q', o) ∧
          ∃ t, CircleQueue.Holds n t q' s' := by
    rintro s q a ⟨t, h⟩ -
    obtain ⟨s', t', q', o, hs', hq', h'⟩ := h.call hn a
    exact ⟨s', q', o, hs', hq', t', h'⟩
  obtain ⟨s, q, os, hrun, hfifo, t, h⟩ := Run.simulates_along hstep
    ⟨[], CircleQueue.Holds.new n⟩ (Run.along_of_forall (fun _ _ => trivial) _)
  exact ⟨s, q, os, hrun, hfifo, h.indexed hn, h.elements⟩

/-- A queue of two places, filled over and emptied. -/
theorem circleQueue_refines_boundedFifo_two :
    ∃ s q os, Run.run CircleQueue.call (CircleQueue.new 2)
        [.push (some 'a'), .push (some 'b'), .push (some 'c'), .pop, .pop, .pop] = some (s, os) ∧
      Run.run (boundedFifo 2) [] [.push (some 'a'), .push (some 'b'), .push (some 'c'), .pop, .pop,
        .pop] = some (q, os) ∧ s.Indexed 2 ∧ s.elements = q.map fun v => some (some v) :=
  circleQueue_refines_boundedFifo (by decide) _

end Honyar.LocalScene
