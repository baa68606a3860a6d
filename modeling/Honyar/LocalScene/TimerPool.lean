import Honyar.LocalScene.TimerTable

/-!
# The places of the table of timers

The table as `scene_task_timer_init` allocates it, with `g_iTimerNum`, the number of places the
operations search.  The two come from the requested number in different ways: the number is
clamped, the table is not.  An operation gives `none` when it touches a place that is not
allocated.

A place is allocated rightly by `scene_task_timer_create` as long as one of the places it
searches is free.  When none is, the search ends at `g_iTimerNum`, which the test behind it lets
pass, and the timer is written there: behind the table, or, in a table of more than 32 places, to
a place that no operation but this one looks at.
-/

namespace Honyar.LocalScene

open Option

/-- `TIMER_NUM_MIN`. -/
def timerNumMin : Nat := 1

/-- `TIMER_NUM_MAX`. -/
def timerNumMax : Nat := 32

/-- `g_iTimerNum`, and `g_pstTimerList` with the places that are allocated. -/
structure TimerPool (α : Type) where
  iTimerNum : Nat
  pstTimerList : TimerList α

/-- A call of the timers, or a tick.  `iRet` is the answer of `thread_pool_init`. -/
inductive PoolAct (α : Type) where
  | init (iTimerNum iRet : Int)
  | destroy
  | run
  | create (pFunArg : α) (ulTime : Nat) (iFunExecTime : Int)
  | change (iTimerId : Int) (pFunArg : Option α) (ulTime : Nat) (iFunExecTime : Int)
  | dele (iTimerId : Int)
  | reset (iTimerId : Int) (pFunArg : α) (ulTime : Nat) (iFunExecTime : Int)

/-- What a call returns, and the functions that a tick queues. -/
inductive PoolOut (α : Type) where
  | returned (iRet : Int)
  | queued (iTimerId : Nat) (pFunArg : α)
deriving DecidableEq

section Pool

variable {α : Type}

/-- `scene_task_timer_init`.  `malloc` has nothing for a negative number, and no place for
zero. -/
def sceneTaskTimerInit (iTimerNum iRet : Int) : TimerPool α × Int :=
  ({ iTimerNum :=
       if iTimerNum < timerNumMin then timerNumMin
       else if timerNumMax < iTimerNum then timerNumMax
       else iTimerNum.toNat
     pstTimerList := List.replicate iTimerNum.toNat none },
    if iTimerNum < 0 then -1 else if iRet < 0 then -1 else 0)

/-- The search of `scene_task_timer_create` from the place `i` on, with `n` places to go. -/
def searchFree (ts : TimerList α) : Nat → Nat → Option Nat
  | 0, i => some i
  | n + 1, i =>
    match ts[i]? with
    | none => none
    | some none => some i
    | some (some _) => searchFree ts n (i + 1)

namespace TimerPool

/-- The place with an id that the source does not check to be one. -/
def place? (p : TimerPool α) (iTimerId : Int) : Option (Option (TaskTimer α)) :=
  if iTimerId < 0 then none else p.pstTimerList[iTimerId.toNat]?

/-- A write to a place. -/
def put (p : TimerPool α) (i : Nat) (t : Option (TaskTimer α)) : TimerPool α :=
  { p with pstTimerList := p.pstTimerList.set i t }

/-- `scene_task_timer_create`. -/
def create (p : TimerPool α) (pFunArg : α) (ulTime : Nat) (iFunExecTime : Int) :
    Option (TimerPool α × Int) :=
  if ulTime = 0 then some (p, -1)
  else if iFunExecTime = 0 ∨ iFunExecTime < -1 then some (p, -1)
  else do
    let i ← searchFree p.pstTimerList p.iTimerNum 0
    if i > p.iTimerNum then
      return (p, -1)
    let _ ← p.pstTimerList[i]?
    return (p.put i (some ⟨pFunArg, iFunExecTime, ulTime, ulTime⟩), i)

/-- `scene_task_timer_change`. -/
def change (p : TimerPool α) (iTimerId : Int) (pFunArg : Option α) (ulTime : Nat)
    (iFunExecTime : Int) : Option (TimerPool α × Int) := do
  let place ← p.place? iTimerId
  let ts ← sceneTaskTimerChange p.pstTimerList iTimerId.toNat pFunArg ulTime iFunExecTime
  return ({ p with pstTimerList := ts }, if place.isNone then -1 else 0)

/-- `scene_task_timer_dele`. -/
def dele (p : TimerPool α) (iTimerId : Int) : Option (TimerPool α × Int) :=
  if iTimerId ≥ p.iTimerNum then some (p, -1)
  else do
    let _ ← p.place? iTimerId
    return (p.put iTimerId.toNat none, 0)

/-- `scene_task_timer_reset`. -/
def reset (p : TimerPool α) (iTimerId : Int) (pFunArg : α) (ulTime : Nat) (iFunExecTime : Int) :
    Option (TimerPool α × Int) :=
  if iTimerId ≥ p.iTimerNum then some (p, -1)
  else if iFunExecTime = 0 ∨ iFunExecTime < -1 then some (p, -1)
  else do
    let place ← p.place? iTimerId
    if place.isNone then
      return (p, -1)
    return (p.put iTimerId.toNat (some ⟨pFunArg, iFunExecTime, ulTime, ulTime⟩), 0)

/-- `scene_task_timer_run` goes over the places that are searched. -/
def run (p : TimerPool α) : Option (TimerPool α × List (Nat × α)) :=
  if p.pstTimerList.length < p.iTimerNum then none
  else
    let ts := p.pstTimerList.take p.iTimerNum
    some ({ p with
        pstTimerList := (sceneTaskTimerRun ts).1 ++ p.pstTimerList.drop p.iTimerNum },
      timersOver 0 ts)

/-- One step. -/
def step (p : TimerPool α) : PoolAct α → Option (TimerPool α × List (PoolOut α))
  | .init iTimerNum iRet =>
    let r := sceneTaskTimerInit iTimerNum iRet
    some (r.1, [.returned r.2])
  | .destroy => some ({ p with pstTimerList := [] }, [.returned 0])
  | .run => p.run.map fun r => (r.1, r.2.map fun o => .queued o.1 o.2)
  | .create f ulTime iFunExecTime =>
    (p.create f ulTime iFunExecTime).map fun r => (r.1, [.returned r.2])
  | .change i f ulTime iFunExecTime =>
    (p.change i f ulTime iFunExecTime).map fun r => (r.1, [.returned r.2])
  | .dele i => (p.dele i).map fun r => (r.1, [.returned r.2])
  | .reset i f ulTime iFunExecTime =>
    (p.reset i f ulTime iFunExecTime).map fun r => (r.1, [.returned r.2])

/-- An id is one of an allocated place. -/
def Allocated (p : TimerPool α) (iTimerId : Int) : Prop :=
  0 ≤ iTimerId ∧ iTimerId < p.pstTimerList.length

theorem place?_isSome (p : TimerPool α) (iTimerId : Int) :
    (∃ place, p.place? iTimerId = some place) ↔ p.Allocated iTimerId := by
  rw [← isSome_iff_exists, place?, Allocated]
  split
  · simp only [isSome_none, Bool.false_eq_true, false_iff]
    omega
  · rw [isSome_getElem?]
    omega

/-! ## Right steps -/

/-- The places that are searched are all in use. -/
def Full (p : TimerPool α) : Prop :=
  ∀ i < p.iTimerNum, ∃ t, p.pstTimerList[i]? = some (some t)

/-- What a call of `scene_task_timer_create` for the timer `t` is to do: it fails exactly when the
places are all in use, and else answers with a place that was free, where the timer now is. -/
structure Allots (p : TimerPool α) (t : TaskTimer α) (p' : TimerPool α) (iRet : Int) : Prop where
  fails : iRet = -1 ↔ p.Full
  place : ¬ p.Full → ∃ i < p.iTimerNum, iRet = i ∧ p.pstTimerList[i]? = some none ∧
    p'.pstTimerList[i]? = some (some t) ∧
      ∀ j, j ≠ i → p'.pstTimerList[j]? = p.pstTimerList[j]?

/-- The step touches allocated places only, and a timer that can be made is allotted a place. -/
def Right (p : TimerPool α) (a : PoolAct α) : Prop :=
  ∃ p' os, p.step a = some (p', os) ∧
    match a with
    | .create f ulTime iFunExecTime =>
      ulTime ≠ 0 → iFunExecTime ≠ 0 → -1 ≤ iFunExecTime →
        ∃ iRet, os = [.returned iRet] ∧ p.Allots ⟨f, iFunExecTime, ulTime, ulTime⟩ p' iRet
    | _ => True

/-- A timer is made only when one of the places that are searched is free, a tick comes only when
these are allocated, and an id is one of an allocated place where the operation does not refuse
it. -/
def Within (p : TimerPool α) : PoolAct α → Prop
  | .init _ _ => True
  | .destroy => True
  | .run => p.iTimerNum ≤ p.pstTimerList.length
  | .create _ ulTime iFunExecTime => (ulTime = 0 ∨ iFunExecTime = 0 ∨ iFunExecTime < -1) ∨
      ∃ i < p.iTimerNum, p.pstTimerList[i]? = some none
  | .change iTimerId _ _ _ => p.Allocated iTimerId
  | .dele iTimerId => iTimerId ≥ p.iTimerNum ∨ p.Allocated iTimerId
  | .reset iTimerId _ _ iFunExecTime => iTimerId ≥ p.iTimerNum ∨
      (iFunExecTime = 0 ∨ iFunExecTime < -1) ∨ p.Allocated iTimerId

/-- The search finds a free place, runs out of the allocated ones, or ends behind the places that
it searches. -/
theorem searchFree_cases (ts : TimerList α) (n i : Nat) :
    (∃ j, searchFree ts n i = some j ∧ i ≤ j ∧ j < i + n ∧ ts[j]? = some none) ∨
      (∀ j, i ≤ j → j < i + n → ts[j]? ≠ some none) ∧
        (searchFree ts n i = none ∨
          searchFree ts n i = some (i + n) ∧
            ∀ j, i ≤ j → j < i + n → ∃ t, ts[j]? = some (some t)) := by
  induction n generalizing i with
  | zero =>
    exact Or.inr ⟨fun j hle hlt => absurd hle (by omega),
      Or.inr ⟨rfl, fun j hle hlt => absurd hle (by omega)⟩⟩
  | succ n ih =>
    have hfirst : ∀ j, i ≤ j → j = i ∨ i + 1 ≤ j := fun j hle => by omega
    rw [searchFree]
    cases hplace : ts[i]? with
    | none =>
      refine Or.inr ⟨fun j hle _ hfree => ?_, Or.inl rfl⟩
      have hlen := List.getElem?_eq_none_iff.mp hplace
      rw [List.getElem?_eq_none (hlen.trans hle)] at hfree
      cases hfree
    | some place =>
      cases place with
      | none => exact Or.inl ⟨i, rfl, Nat.le_refl i, by omega, hplace⟩
      | some t =>
        obtain ⟨j, hj, hle, hlt, hfree⟩ | ⟨hnone, hend⟩ := ih (i + 1)
        · exact Or.inl ⟨j, hj, by omega, by omega, hfree⟩
        · refine Or.inr ⟨fun j hle hlt => ?_, hend.imp id fun ⟨hj, hused⟩ => ?_⟩
          · obtain rfl | hle := hfirst j hle
            · rw [hplace]
              simp
            · exact hnone j hle (by omega)
          · refine ⟨hj.trans (congrArg some (by omega)), fun j hle hlt => ?_⟩
            obtain rfl | hle := hfirst j hle
            · exact ⟨t, hplace⟩
            · exact hused j hle (by omega)

theorem searchFree_le {ts : TimerList α} {n i j : Nat} (h : searchFree ts n i = some j) :
    j ≤ i + n := by
  obtain ⟨k, hk, -, hlt, -⟩ | ⟨-, hend | ⟨hend, -⟩⟩ := searchFree_cases ts n i
  · obtain rfl := some.inj (h.symm.trans hk)
    exact hlt.le
  · cases h.symm.trans hend
  · exact (some.inj (h.symm.trans hend)).le

theorem not_full_of_free {p : TimerPool α} {i : Nat} (hi : i < p.iTimerNum)
    (hfree : p.pstTimerList[i]? = some none) : ¬ p.Full := by
  intro hfull
  obtain ⟨t, ht⟩ := hfull i hi
  rw [hfree] at ht
  cases ht

/-- A timer that can be made is allotted a place exactly when one is free. -/
theorem create_allots_iff (p : TimerPool α) (f : α) {ulTime : Nat} {iFunExecTime : Int}
    (htime : ulTime ≠ 0) (hrounds : ¬(iFunExecTime = 0 ∨ iFunExecTime < -1)) :
    (∃ p' iRet, p.create f ulTime iFunExecTime = some (p', iRet) ∧
        p.Allots ⟨f, iFunExecTime, ulTime, ulTime⟩ p' iRet) ↔
      ∃ i < p.iTimerNum, p.pstTimerList[i]? = some none := by
  simp only [create, if_neg htime, if_neg hrounds]
  obtain ⟨i, hi, -, hlt, hfree⟩ | ⟨hnone, hend⟩ := searchFree_cases p.pstTimerList p.iTimerNum 0
  · rw [Nat.zero_add] at hlt
    refine iff_of_true ?_ ⟨i, hlt, hfree⟩
    have hnot := not_full_of_free hlt hfree
    have hlen := (List.getElem?_eq_some_iff.mp hfree).1
    refine ⟨p.put i (some ⟨f, iFunExecTime, ulTime, ulTime⟩), i, ?_, ?_, fun _ => ?_⟩
    · simp [hi, hfree, Nat.not_lt_of_lt hlt]
    · exact iff_of_false (by omega) hnot
    · exact ⟨i, hlt, rfl, hfree, List.getElem?_set_self hlen,
        fun j hj => List.getElem?_set_ne (Ne.symm hj)⟩
  · refine iff_of_false ?_ fun ⟨i, hlt, hfree⟩ => hnone i (Nat.zero_le i) (by omega) hfree
    rintro ⟨p', iRet, hcreate, hallots⟩
    obtain hout | ⟨hi, hused⟩ := hend
    · simp [hout] at hcreate
    · have hfull : p.Full := fun i hlt => hused i (Nat.zero_le i) (by omega)
      rw [hi, Nat.zero_add] at hcreate
      -- the test behind the search lets `g_iTimerNum` pass
      cases hplace : p.pstTimerList[p.iTimerNum]? with
      | none => simp [hplace] at hcreate
      | some place =>
        simp only [bind_eq_bind, bind_some, gt_iff_lt, lt_self_iff_false,
          if_false, hplace, pure_def, some.injEq, Prod.mk.injEq] at hcreate
        have := hallots.fails.mpr hfull
        omega

theorem change_isSome (p : TimerPool α) (iTimerId : Int) (f : Option α) (ulTime : Nat)
    (iFunExecTime : Int) :
    (∃ r, p.change iTimerId f ulTime iFunExecTime = some r) ↔ p.Allocated iTimerId := by
  rw [← place?_isSome, change, place?]
  split
  · simp
  · cases hplace : p.pstTimerList[iTimerId.toNat]? with
    | none => simp
    | some place =>
      cases place with
      | none => simp [sceneTaskTimerChange, hplace]
      | some t => simp [sceneTaskTimerChange, hplace]

theorem dele_isSome (p : TimerPool α) (iTimerId : Int) :
    (∃ r, p.dele iTimerId = some r) ↔ iTimerId ≥ p.iTimerNum ∨ p.Allocated iTimerId := by
  rw [← place?_isSome, dele]
  split
  · rename_i hge
    exact iff_of_true ⟨_, rfl⟩ (Or.inl hge)
  · rename_i hlt
    rw [or_iff_right hlt]
    cases p.place? iTimerId with
    | none => simp
    | some place => simp

theorem reset_isSome (p : TimerPool α) (iTimerId : Int) (f : α) (ulTime : Nat)
    (iFunExecTime : Int) :
    (∃ r, p.reset iTimerId f ulTime iFunExecTime = some r) ↔
      iTimerId ≥ p.iTimerNum ∨ (iFunExecTime = 0 ∨ iFunExecTime < -1) ∨
        p.Allocated iTimerId := by
  rw [← place?_isSome, reset]
  split
  · rename_i hge
    exact iff_of_true ⟨_, rfl⟩ (Or.inl hge)
  · rename_i hlt
    rw [or_iff_right hlt]
    split
    · rename_i hrounds
      exact iff_of_true ⟨_, rfl⟩ (Or.inl hrounds)
    · rename_i hrounds
      rw [or_iff_right hrounds]
      cases p.place? iTimerId with
      | none => simp
      | some place =>
        cases place with
        | none => simp
        | some t => simp

theorem right_iff_within (p : TimerPool α) (a : PoolAct α) : p.Right a ↔ p.Within a := by
  have hgoes : ∀ {β : Type} (r : Option (TimerPool α × β)) (os : β → List (PoolOut α)),
      (∃ p' o, r.map (fun r => (r.1, os r.2)) = some (p', o) ∧ True) ↔ ∃ x, r = some x := by
    intro β r os
    cases r with
    | none => simp
    | some x => simp
  cases a with
  | init n iRet => exact iff_of_true ⟨_, _, rfl, trivial⟩ trivial
  | destroy => exact iff_of_true ⟨_, _, rfl, trivial⟩ trivial
  | run =>
    refine (hgoes p.run _).trans ?_
    rw [Within, run]
    split
    · rename_i hlt
      exact iff_of_false (by simp) (Nat.not_le_of_lt hlt)
    · rename_i hle
      exact iff_of_true ⟨_, rfl⟩ (Nat.le_of_not_lt hle)
  | change i f ulTime n =>
    exact (hgoes _ fun r => [.returned r]).trans (p.change_isSome i f ulTime n)
  | dele i => exact (hgoes _ fun r => [.returned r]).trans (p.dele_isSome i)
  | reset i f ulTime n =>
    exact (hgoes _ fun r => [.returned r]).trans (p.reset_isSome i f ulTime n)
  | create f ulTime n =>
    by_cases hvalid : ulTime = 0 ∨ n = 0 ∨ n < -1
    · refine iff_of_true ⟨p, [.returned (-1)], ?_, fun h h' h'' => ?_⟩ (Or.inl hvalid)
      · rw [step, create]
        obtain h | h := hvalid
        · rw [if_pos h]
          rfl
        · rw [if_pos h, ite_self]
          rfl
      · omega
    · obtain ⟨htime, hrounds⟩ := not_or.mp hvalid
      rw [Within, or_iff_right hvalid, ← p.create_allots_iff f htime hrounds]
      constructor
      · rintro ⟨p', os, hstep, hright⟩
        obtain ⟨iRet, rfl, hallots⟩ := hright htime (by omega) (by omega)
        obtain ⟨r, hr, heq⟩ := map_eq_some_iff.mp hstep
        simp only [Prod.mk.injEq, List.cons.injEq, PoolOut.returned.injEq, and_true] at heq
        exact ⟨p', iRet, hr.trans (congrArg some (Prod.ext heq.1 heq.2)), hallots⟩
      · rintro ⟨p', iRet, hcreate, hallots⟩
        refine ⟨p', [.returned iRet], ?_, fun _ _ _ => ⟨iRet, rfl, hallots⟩⟩
        rw [step, hcreate]
        rfl

/-! ## Tables of the number of places that is searched -/

/-- A step of the table as one of the places. -/
def call : TimerAct α → PoolAct α
  | .tick => .run
  | .create f ulTime iFunExecTime => .create f ulTime iFunExecTime
  | .change i f ulTime iFunExecTime => .change i f ulTime iFunExecTime
  | .dele i => .dele i
  | .reset i f ulTime iFunExecTime => .reset i f ulTime iFunExecTime

/-- The search takes the first free place of the rest of the table. -/
theorem searchFree_append (t : TaskTimer α) (us ts : TimerList α) :
    ((searchFree (us ++ ts) ts.length us.length).bind fun i =>
        ((us ++ ts)[i]?).map fun _ => (us ++ ts).set i (some t)) =
      (takeFree t ts).map (us ++ ·) := by
  induction ts generalizing us with
  | nil =>
    rw [List.length_nil, searchFree, bind_some, List.append_nil,
      List.getElem?_eq_none (Nat.le_refl us.length)]
    rfl
  | cons u ts ih =>
    have hplace : (us ++ u :: ts)[us.length]? = some u := by simp
    rw [List.length_cons, searchFree, hplace]
    cases u with
    | none => simp [takeFree]
    | some u =>
      have hrest := ih (us ++ [some u])
      rw [List.append_assoc, List.length_append] at hrest
      refine hrest.trans ?_
      rw [takeFree, map_map]
      refine congrArg (fun g => (takeFree t ts).map g) (funext fun vs => ?_)
      exact List.append_assoc us [some u] vs

section Table

variable {p : TimerPool α} (hnum : p.iTimerNum = p.pstTimerList.length)

include hnum

theorem create_table (f : α) (ulTime : Nat) (iFunExecTime : Int) :
    (p.create f ulTime iFunExecTime).map Prod.fst =
      (sceneTaskTimerCreate p.pstTimerList f ulTime iFunExecTime).map
        fun ts => { p with pstTimerList := ts } := by
  rw [create, sceneTaskTimerCreate]
  split
  · rfl
  · split
    · rfl
    · have hsearch := searchFree_append ⟨f, iFunExecTime, ulTime, ulTime⟩ [] p.pstTimerList
      rw [List.nil_append, List.length_nil, ← hnum] at hsearch
      simp only [List.nil_append, map_id'] at hsearch
      rw [← hsearch]
      cases hi : searchFree p.pstTimerList p.iTimerNum 0 with
      | none => rfl
      | some i =>
        have hle : ¬ p.iTimerNum < i := by
          have := searchFree_le hi
          omega
        cases hplace : p.pstTimerList[i]? with
        | none => simp [hplace, hle]
        | some place => simp [hplace, hle, put]

theorem dele_table (i : Nat) :
    (p.dele i).map Prod.fst =
      some { p with pstTimerList := sceneTaskTimerDele p.pstTimerList i } := by
  rw [dele, sceneTaskTimerDele]
  split
  · rename_i hge
    rw [List.set_eq_of_length_le (by omega)]
    rfl
  · rename_i hlt
    obtain ⟨place, hplace⟩ := (p.place?_isSome i).mpr ⟨by omega, by omega⟩
    rw [hplace]
    rfl

theorem reset_table (i : Nat) (f : α) (ulTime : Nat) (iFunExecTime : Int) :
    (p.reset i f ulTime iFunExecTime).map Prod.fst =
      some { p with
        pstTimerList := sceneTaskTimerReset p.pstTimerList i f ulTime iFunExecTime } := by
  rw [reset, sceneTaskTimerReset]
  split
  · rename_i hge
    rw [List.getElem?_eq_none (show p.pstTimerList.length ≤ i by omega), ite_self]
    rfl
  · rename_i hlt
    split
    · rfl
    · have hplace : p.place? i = p.pstTimerList[i]? := rfl
      rw [hplace, List.getElem?_eq_getElem (show i < p.pstTimerList.length by omega)]
      cases p.pstTimerList[i] with
      | none => rfl
      | some t => rfl

end Table

theorem change_table (p : TimerPool α) (i : Nat) (f : Option α) (ulTime : Nat)
    (iFunExecTime : Int) :
    (p.change i f ulTime iFunExecTime).map Prod.fst =
      (sceneTaskTimerChange p.pstTimerList i f ulTime iFunExecTime).map
        fun ts => { p with pstTimerList := ts } := by
  have hplace : p.place? i = p.pstTimerList[i]? := rfl
  rw [change, hplace, Int.toNat_natCast, sceneTaskTimerChange]
  cases p.pstTimerList[i]? with
  | none => rfl
  | some place =>
    cases place with
    | none => rfl
    | some t => rfl

/-- The function that a tick queues. -/
def queued? : PoolOut α → Option (Nat × α)
  | .returned _ => none
  | .queued i f => some (i, f)

/-- A step of the table, and what it queues. -/
def tableStep (p : TimerPool α) (a : TimerAct α) : Option (TimerPool α × List (Nat × α)) :=
  (p.step (call a)).map fun r => (r.1, r.2.filterMap queued?)

/-- Where the table has the number of places that is searched, the steps are those of the
table. -/
theorem tableStep_eq {p : TimerPool α} (hnum : p.iTimerNum = p.pstTimerList.length) (ticks : Nat)
    (a : TimerAct α) :
    p.tableStep a = (TimerClock.step ⟨ticks, p.pstTimerList⟩ a).map fun r =>
      ({ p with pstTimerList := r.1.table }, r.2.map fun o => (o.iTimerId, o.pFunArg)) := by
  have hcall {x : Option (TimerPool α × Int)} {y : Option (TimerList α)}
      (h : x.map Prod.fst = y.map fun ts => { p with pstTimerList := ts }) :
      (x.map fun r => (r.1, [PoolOut.returned r.2])).map
          (fun r => (r.1, r.2.filterMap queued?)) =
        y.map fun ts => ({ p with pstTimerList := ts }, ([] : List (Nat × α))) := by
    have hnil := congrArg (Option.map fun q => (q, ([] : List (Nat × α)))) h
    simp only [map_map] at hnil ⊢
    exact hnil
  cases a with
  | tick =>
    have hle : ¬ p.pstTimerList.length < p.iTimerNum := by omega
    have hqueued (os : List (Nat × α)) :
        (os.map fun o => PoolOut.queued o.1 o.2).filterMap queued? = os := by
      induction os with
      | nil => rfl
      | cons o os ih => exact congrArg (o :: ·) ih
    simp only [tableStep, call, step, run, if_neg hle, TimerClock.step, map_some, hqueued]
    simp [hnum, Function.comp_def]
  | create f ulTime n =>
    have hcreate := hcall (create_table hnum f ulTime n)
    simp only [tableStep, call, step, TimerClock.step, hcreate, map_map]
    rfl
  | change i f ulTime n =>
    have hchange := hcall (p.change_table i f ulTime n)
    simp only [tableStep, call, step, TimerClock.step, hchange, map_map]
    rfl
  | dele i => exact hcall (y := some _) (dele_table hnum i)
  | reset i f ulTime n => exact hcall (y := some _) (reset_table hnum i f ulTime n)

theorem length_takeFree {t : TaskTimer α} {ts ts' : TimerList α} (h : takeFree t ts = some ts') :
    ts'.length = ts.length := by
  induction ts generalizing ts' with
  | nil => cases h
  | cons u us ih =>
    cases u with
    | none => exact some.inj h ▸ rfl
    | some u =>
      obtain ⟨us', hus, rfl⟩ := map_eq_some_iff.mp h
      exact congrArg (· + 1) (ih hus)

theorem length_step {z z' : TimerClock α} {a : TimerAct α} {os : List (Firing α)}
    (h : z.step a = some (z', os)) : z'.table.length = z.table.length := by
  cases a with
  | tick =>
    obtain ⟨rfl, -⟩ := Prod.mk.inj (some.inj h)
    rw [sceneTaskTimerRun_fst, List.length_map]
  | create f ulTime n =>
    obtain ⟨ts, hts, heq⟩ := map_eq_some_iff.mp h
    obtain ⟨rfl, -⟩ := Prod.mk.inj heq
    unfold sceneTaskTimerCreate at hts
    repeat' split at hts
    · rw [some.inj hts]
    · rw [some.inj hts]
    · exact length_takeFree hts
  | change i f ulTime n =>
    obtain ⟨ts, hts, heq⟩ := map_eq_some_iff.mp h
    obtain ⟨rfl, -⟩ := Prod.mk.inj heq
    unfold sceneTaskTimerChange at hts
    split at hts
    · cases hts
    · rw [some.inj hts]
    · rw [← some.inj hts, List.length_set]
  | dele i =>
    obtain ⟨rfl, -⟩ := Prod.mk.inj (some.inj h)
    exact List.length_set
  | reset i f ulTime n =>
    obtain ⟨rfl, -⟩ := Prod.mk.inj (some.inj h)
    unfold sceneTaskTimerReset
    repeat' split
    · rfl
    · exact List.length_set
    · rfl

theorem run_tableStep {p : TimerPool α} (hnum : p.iTimerNum = p.pstTimerList.length) (ticks : Nat)
    (acts : List (TimerAct α)) :
    (Run.run tableStep p acts).map (fun r => (r.1.pstTimerList, r.2)) =
      (Run.run TimerClock.step ⟨ticks, p.pstTimerList⟩ acts).map fun r =>
        (r.1.table, r.2.map fun o => (o.iTimerId, o.pFunArg)) := by
  induction acts generalizing p ticks with
  | nil => rfl
  | cons a acts ih =>
    rw [Run.run, Run.run, tableStep_eq hnum ticks]
    cases hstep : TimerClock.step ⟨ticks, p.pstTimerList⟩ a with
    | none => rfl
    | some r =>
      have hrest := ih (p := { p with pstTimerList := r.1.table })
        (hnum.trans (length_step hstep).symm) r.1.ticks
      simp only [map_some, bind_eq_bind, bind_some]
      cases hrun : Run.run TimerClock.step r.1 acts with
      | none =>
        rw [hrun] at hrest
        rw [map_eq_none_iff.mp hrest]
        rfl
      | some q =>
        rw [hrun] at hrest
        obtain ⟨u, hu, heq⟩ := map_eq_some_iff.mp hrest
        obtain ⟨htable, hos⟩ := Prod.mk.inj heq
        rw [hu]
        simp [htable, hos]

end TimerPool

end Pool

/-- Whatever number of places is asked for, the steps of a run are right exactly when each of them
stays within the places. -/
theorem timer_places_iff {α : Type} (iTimerNum iRet : Int) (acts : List (PoolAct α)) :
    Run.Along TimerPool.step TimerPool.Right (sceneTaskTimerInit iTimerNum iRet).1 acts ↔
      Run.Along TimerPool.step TimerPool.Within (sceneTaskTimerInit iTimerNum iRet).1 acts := by
  refine Run.along_iff_along_of (C := fun _ _ => True) (R := fun _ => True)
    (fun p a _ _ => p.right_iff_within a) (fun _ _ _ _ _ _ _ _ => trivial) trivial ?_
  exact Run.along_of_forall (P := fun _ => True) (fun _ _ => trivial) _

/-- A table of one place: the second timer is written behind it. -/
theorem timer_places_full :
    ¬ Run.Along TimerPool.step TimerPool.Right (sceneTaskTimerInit 1 0).1
      [.create 0 5 1, .create (1 : Nat) 5 1] := by
  rintro ⟨-, hrest⟩
  obtain ⟨⟨p', os, hstep, -⟩, -⟩ := hrest _ rfl
  cases hstep

/-- With a number of places that is not clamped, the runs of the places are those of the table:
they fail at the same calls, and queue the same functions of the same places in the same order. -/
theorem run_places_eq_table {α : Type} {iTimerNum : Int} (hmin : timerNumMin ≤ iTimerNum)
    (hmax : iTimerNum ≤ timerNumMax) (iRet : Int) (acts : List (TimerAct α)) :
    (Run.run TimerPool.tableStep (sceneTaskTimerInit iTimerNum iRet).1 acts).map
        (fun r => (r.1.pstTimerList, r.2)) =
      (Run.run TimerClock.step ⟨0, List.replicate iTimerNum.toNat none⟩ acts).map fun r =>
        (r.1.table, r.2.map fun o => (o.iTimerId, o.pFunArg)) := by
  refine TimerPool.run_tableStep ?_ 0 acts
  rw [sceneTaskTimerInit, if_neg (Int.not_lt.mpr hmin), if_neg (Int.not_lt.mpr hmax)]
  exact List.length_replicate.symm

theorem run_places_eq_table_two :
    (Run.run TimerPool.tableStep (sceneTaskTimerInit 2 0).1 [.create 'a' 1 1, .tick]).map
        (fun r => (r.1.pstTimerList, r.2)) =
      (Run.run TimerClock.step ⟨0, List.replicate 2 none⟩ [.create 'a' 1 1, .tick]).map fun r =>
        (r.1.table, r.2.map fun o => (o.iTimerId, o.pFunArg)) :=
  run_places_eq_table (by decide) (by decide) 0 _

end Honyar.LocalScene
