import Honyar.LocalScene.SceneTimer

/-!
# The schedule of a timer

The operations of `scene_timer.c` on the table of timers besides
`scene_task_timer_create` and the tick.  Each of them writes to one place.  A timer
that is made for a time of `T` seconds and `n` rounds runs at the ticks `T`, `2T` up
to `nT` and then gives its place free, whatever happens at the other places
meanwhile: after `k` ticks it has `k / T` rounds behind it and waits `T - k % T`
more.

The argument of a timer stands for its function and the argument of it.
-/

namespace Honyar.LocalScene

open Option List

section Table

variable {α : Type}

/-! ## The operations -/

/-- `scene_task_timer_change`: what is zero is left as it was.  The id is not
checked: `none` is a place behind the table. -/
def sceneTaskTimerChange (ts : TimerList α) (iTimerId : Nat) (pFunArg : Option α) (ulTime : Nat)
    (iFunExecTime : Int) : Option (TimerList α) :=
  match ts[iTimerId]? with
  | none => none
  | some none => some ts
  | some (some t) =>
    let t := { t with pFunArg := pFunArg.getD t.pFunArg }
    let t := if ulTime ≠ 0 then { t with ulTime := ulTime, ulRunTime := ulTime } else t
    let t := if iFunExecTime ≠ 0 then { t with iFunExecTime := iFunExecTime } else t
    some (ts.set iTimerId (some t))

/-- `scene_task_timer_dele`; an id behind the table is refused. -/
def sceneTaskTimerDele (ts : TimerList α) (iTimerId : Nat) : TimerList α := ts.set iTimerId none

/-- `scene_task_timer_reset`. -/
def sceneTaskTimerReset (ts : TimerList α) (iTimerId : Nat) (pFunArg : α) (ulTime : Nat)
    (iFunExecTime : Int) : TimerList α :=
  if iFunExecTime = 0 ∨ iFunExecTime < -1 then ts
  else
    match ts[iTimerId]? with
    | some (some _) => ts.set iTimerId (some ⟨pFunArg, iFunExecTime, ulTime, ulTime⟩)
    | _ => ts

/-- The timers whose function a tick queues, with their places: the loop of
`scene_task_timer_run` from a place on. -/
def timersOver : Nat → TimerList α → List (Nat × α)
  | _, [] => []
  | i, none :: ts => timersOver (i + 1) ts
  | i, some t :: ts =>
    if t.ulRunTime ≤ 1 then (i, t.pFunArg) :: timersOver (i + 1) ts else timersOver (i + 1) ts

/-- What a tick does to a timer. -/
def TaskTimer.tick (t : TaskTimer α) : Option (TaskTimer α) :=
  if t.ulRunTime ≤ 1 then t.again else some { t with ulRunTime := t.ulRunTime - 1 }

theorem sceneTaskTimerRun_fst (ts : TimerList α) :
    (sceneTaskTimerRun ts).1 = ts.map fun t => t.bind TaskTimer.tick := by
  induction ts with
  | nil => rfl
  | cons t ts ih =>
    cases t with
    | none => exact congrArg (none :: ·) ih
    | some t =>
      simp only [sceneTaskTimerRun, map_cons, bind_some, TaskTimer.tick, ← ih]
      split <;> rfl

theorem filter_timersOver_of_lt {i j : Nat} (h : i < j) (ts : TimerList α) :
    (timersOver j ts).filter (fun o => o.1 == i) = [] := by
  induction ts generalizing j with
  | nil => rfl
  | cons t ts ih =>
    have hrest := ih (Nat.lt_succ_of_lt h)
    cases t with
    | none => exact hrest
    | some t =>
      simp only [timersOver]
      split
      · rw [filter_cons, if_neg (by simpa using Nat.ne_of_gt h)]
        exact hrest
      · exact hrest

/-- A place is in the list of a tick exactly when its timer is over. -/
theorem filter_timersOver (i j : Nat) (ts : TimerList α) :
    (timersOver j ts).filter (fun o => o.1 == j + i) =
      match ts[i]? with
      | some (some t) => if t.ulRunTime ≤ 1 then [(j + i, t.pFunArg)] else []
      | _ => [] := by
  induction ts generalizing i j with
  | nil => rfl
  | cons t ts ih =>
    cases i with
    | zero =>
      have hrest := filter_timersOver_of_lt (Nat.lt_succ_self j) ts
      rw [Nat.add_zero, getElem?_cons_zero]
      cases t with
      | none => exact hrest
      | some t =>
        simp only [timersOver]
        split
        · rw [filter_cons, if_pos (beq_self_eq_true j), hrest]
        · exact hrest
    | succ i =>
      have hrest := ih i (j + 1)
      rw [Nat.add_right_comm, Nat.add_assoc] at hrest
      rw [getElem?_cons_succ]
      cases t with
      | none => exact hrest
      | some t =>
        simp only [timersOver]
        split
        · rw [filter_cons, if_neg (by simp)]
          exact hrest
        · exact hrest

/-! ## One place of the table -/

/-- The first place that is not in use. -/
def firstFree (ts : TimerList α) : Nat := ts.findIdx Option.isNone

theorem takeFree_eq (t : TaskTimer α) {ts : TimerList α} (h : firstFree ts < ts.length) :
    takeFree t ts = some (ts.set (firstFree ts) (some t)) := by
  induction ts with
  | nil => exact absurd h (Nat.not_lt_zero _)
  | cons u us ih =>
    cases u with
    | none => rfl
    | some u =>
      have hsucc : firstFree (some u :: us) = firstFree us + 1 := by
        rw [firstFree, findIdx_cons]
        rfl
      rw [hsucc, length_cons] at h
      rw [takeFree, ih (by omega), hsucc]
      rfl

theorem getElem?_firstFree {ts : TimerList α} (h : firstFree ts < ts.length) :
    ts[firstFree ts]? = some none := by
  rw [getElem?_eq_getElem h, some.injEq, ← isNone_iff_eq_none]
  exact findIdx_getElem

theorem firstFree_lt {ts : TimerList α} (h : none ∈ ts) : firstFree ts < ts.length :=
  findIdx_lt_length_of_exists ⟨none, h, rfl⟩

theorem sceneTaskTimerChange_getElem? {ts ts' : TimerList α} {f : Option α} {ulTime : Nat}
    {iFunExecTime : Int} {i iTimerId : Nat} (hne : iTimerId ≠ i)
    (h : sceneTaskTimerChange ts iTimerId f ulTime iFunExecTime = some ts') :
    ts'[i]? = ts[i]? := by
  unfold sceneTaskTimerChange at h
  split at h
  · cases h
  · rw [some.inj h]
  · rw [← some.inj h, getElem?_set_ne hne]

theorem sceneTaskTimerReset_getElem? (ts : TimerList α) (f : α) (ulTime : Nat)
    (iFunExecTime : Int) {i iTimerId : Nat} (hne : iTimerId ≠ i) :
    (sceneTaskTimerReset ts iTimerId f ulTime iFunExecTime)[i]? = ts[i]? := by
  unfold sceneTaskTimerReset
  split
  · rfl
  · split
    · exact getElem?_set_ne hne
    · rfl

end Table

/-! ## The table in the course of time -/

/-- What happens to the table. -/
inductive TimerAct (α : Type) where
  | tick
  | create (pFunArg : α) (ulTime : Nat) (iFunExecTime : Int)
  | change (iTimerId : Nat) (pFunArg : Option α) (ulTime : Nat) (iFunExecTime : Int)
  | dele (iTimerId : Nat)
  | reset (iTimerId : Nat) (pFunArg : α) (ulTime : Nat) (iFunExecTime : Int)

/-- A function is queued: the number of the tick, the place of the timer, and the
argument. -/
structure Firing (α : Type) where
  tick : Nat
  iTimerId : Nat
  pFunArg : α
deriving DecidableEq, Repr

/-- The table and the number of the ticks so far. -/
structure TimerClock (α : Type) where
  ticks : Nat
  table : TimerList α
deriving DecidableEq, Repr

section Clock

variable {α : Type}

/-- One step. -/
def TimerClock.step (z : TimerClock α) : TimerAct α → Option (TimerClock α × List (Firing α))
  | .tick => some (⟨z.ticks + 1, (sceneTaskTimerRun z.table).1⟩,
      (timersOver 0 z.table).map fun o => ⟨z.ticks + 1, o.1, o.2⟩)
  | .create f ulTime iFunExecTime =>
    (sceneTaskTimerCreate z.table f ulTime iFunExecTime).map fun ts => (⟨z.ticks, ts⟩, [])
  | .change i f ulTime iFunExecTime =>
    (sceneTaskTimerChange z.table i f ulTime iFunExecTime).map fun ts => (⟨z.ticks, ts⟩, [])
  | .dele i => some (⟨z.ticks, sceneTaskTimerDele z.table i⟩, [])
  | .reset i f ulTime iFunExecTime =>
    some (⟨z.ticks, sceneTaskTimerReset z.table i f ulTime iFunExecTime⟩, [])

/-- A tick, or an operation on another place than `i`: one that is made gets
another place, and an id that is not checked is one of the table. -/
def TimerAct.Elsewhere (i : Nat) (z : TimerClock α) : TimerAct α → Prop
  | .tick => True
  | .create _ ulTime iFunExecTime => (ulTime = 0 ∨ iFunExecTime = 0 ∨ iFunExecTime < -1) ∨
      firstFree z.table < z.table.length ∧ firstFree z.table ≠ i
  | .change j _ _ _ => j < z.table.length ∧ j ≠ i
  | .dele j => j ≠ i
  | .reset j _ _ _ => j ≠ i

/-- An operation on another place goes through and leaves this one. -/
theorem TimerAct.Elsewhere.step {i : Nat} {z : TimerClock α} {a : TimerAct α}
    (h : a.Elsewhere i z) (ha : a ≠ .tick) :
    ∃ ts, z.step a = some (⟨z.ticks, ts⟩, []) ∧ ts[i]? = z.table[i]? := by
  cases a with
  | tick => exact absurd rfl ha
  | create f ulTime iFunExecTime =>
    simp only [TimerClock.step, sceneTaskTimerCreate]
    split
    · exact ⟨z.table, rfl, rfl⟩
    · split
      · exact ⟨z.table, rfl, rfl⟩
      · rename_i htime hrounds
        obtain hrefused | ⟨hlt, hne⟩ := h
        · exact absurd hrefused (not_or.mpr ⟨htime, hrounds⟩)
        · rw [takeFree_eq _ hlt]
          exact ⟨_, rfl, getElem?_set_ne hne⟩
  | change j f ulTime iFunExecTime =>
    obtain ⟨hlt, hne⟩ := h
    obtain ⟨ts, hts⟩ : ∃ ts, sceneTaskTimerChange z.table j f ulTime iFunExecTime = some ts := by
      unfold sceneTaskTimerChange
      rw [getElem?_eq_getElem hlt]
      cases z.table[j] with
      | none => exact ⟨_, rfl⟩
      | some t => exact ⟨_, rfl⟩
    refine ⟨ts, ?_, sceneTaskTimerChange_getElem? hne hts⟩
    rw [TimerClock.step, hts]
    rfl
  | dele j => exact ⟨_, rfl, getElem?_set_ne h⟩
  | reset j f ulTime iFunExecTime => exact ⟨_, rfl, sceneTaskTimerReset_getElem? _ f _ _ h⟩

/-! ## The schedule -/

/-- What stands in its place `k` ticks after a timer was made for `T` seconds and
`n` rounds. -/
def scheduled (f : α) (T : Nat) (n : Int) (k : Nat) : Option (TaskTimer α) :=
  if 0 < n ∧ n ≤ (k / T : Nat) then none
  else some ⟨f, if n = timerTaskAlways then n else n - (k / T : Nat), T, T - k % T⟩

/-- The rounds of `k` ticks. -/
def rounds (T : Nat) (n : Int) (k : Nat) : Nat := if 0 < n then min n.toNat (k / T) else k / T

/-- The timer runs at the ends of its rounds. -/
def firings (i : Nat) (f : α) (T : Nat) (n : Int) (k : Nat) : List (Firing α) :=
  (List.range (rounds T n k)).map fun j => ⟨(j + 1) * T, i, f⟩

theorem div_mod_succ {T : Nat} (hT : 0 < T) (k : Nat) :
    (k % T + 1 < T ∧ (k + 1) / T = k / T ∧ (k + 1) % T = k % T + 1) ∨
      (k % T + 1 = T ∧ (k + 1) / T = k / T + 1 ∧ (k + 1) % T = 0) := by
  have hk := Nat.div_add_mod k T
  rcases Nat.lt_or_eq_of_le (Nat.mod_lt k hT) with hlt | heq
  · exact Or.inl ⟨hlt, (Nat.div_mod_unique hT).mpr ⟨by omega, hlt⟩⟩
  · refine Or.inr ⟨heq, (Nat.div_mod_unique hT).mpr ⟨?_, hT⟩⟩
    rw [Nat.mul_add, Nat.mul_one]
    omega

section Schedule

variable {f : α} {T : Nat} {n : Int} {k : Nat}

theorem scheduled_tick (hT : 0 < T) (hn : 0 < n ∨ n = timerTaskAlways) :
    (scheduled f T n k).bind TaskTimer.tick = scheduled f T n (k + 1) := by
  have halways : timerTaskAlways = -1 := rfl
  by_cases hdone : 0 < n ∧ n ≤ (k / T : Nat)
  · have hle : k / T ≤ (k + 1) / T := Nat.div_le_div_right (Nat.le_succ k)
    rw [scheduled, scheduled, if_pos hdone, if_pos ⟨hdone.1, by omega⟩]
    rfl
  · rw [scheduled, if_neg hdone, bind_some, TaskTimer.tick]
    rcases div_mod_succ hT k with ⟨hlt, hdiv, hmod⟩ | ⟨heq, hdiv, hmod⟩
    · rw [if_neg (by simp only; omega), scheduled, hdiv, hmod, if_neg hdone]
      rfl
    · rw [if_pos (by simp only; omega), scheduled, hdiv, hmod, TaskTimer.again]
      by_cases hone : n = timerTaskAlways
      · rw [if_neg (c := 0 < n ∧ _) (by omega)]
        simp [hone, halways]
      · have hpos : 0 < n := hn.resolve_right hone
        have hleft : timerTaskAlways ≠ n - (k / T : Nat) := by omega
        simp only [if_neg hone, if_pos hleft]
        by_cases hlast : n = (k / T + 1 : Nat)
        · rw [if_neg (by omega), if_pos ⟨hpos, hlast.le⟩]
        · rw [if_pos (by omega), if_neg (by omega)]
          simp only [Nat.sub_zero, some.injEq, TaskTimer.mk.injEq, true_and, and_true]
          omega

theorem firings_tick (i : Nat) (hT : 0 < T) :
    firings i f T n (k + 1) = firings i f T n k ++
      match scheduled f T n k with
      | some t => if t.ulRunTime ≤ 1 then [⟨k + 1, i, t.pFunArg⟩] else []
      | none => [] := by
  by_cases hdone : 0 < n ∧ n ≤ (k / T : Nat)
  · have hle : k / T ≤ (k + 1) / T := Nat.div_le_div_right (Nat.le_succ k)
    have hrounds : rounds T n (k + 1) = rounds T n k := by
      rw [rounds, rounds, if_pos hdone.1, if_pos hdone.1]
      omega
    rw [scheduled, if_pos hdone, append_nil, firings, firings, hrounds]
  · rw [scheduled, if_neg hdone]
    have hrounds : ∀ m, m ≤ k / T + 1 → (if 0 < n then min n.toNat m else m) = m := by
      intro m hm
      split <;> omega
    rcases div_mod_succ hT k with ⟨hlt, hdiv, hmod⟩ | ⟨heq, hdiv, hmod⟩
    · have hsame : rounds T n (k + 1) = rounds T n k := by rw [rounds, rounds, hdiv]
      simp only
      rw [if_neg (by omega), append_nil, firings, firings, hsame]
    · have hnow : rounds T n k = k / T := hrounds _ (Nat.le_succ _)
      have hnext : rounds T n (k + 1) = k / T + 1 := by
        rw [rounds, hdiv]
        exact hrounds _ (Nat.le_refl _)
      have htick : (k / T + 1) * T = k + 1 := by
        have hk := Nat.div_add_mod k T
        rw [Nat.add_mul, Nat.one_mul, Nat.mul_comm]
        omega
      simp only
      rw [if_pos (by omega), firings, firings, hnow, hnext, range_succ, map_append,
        map_singleton, htick]

/-- The timer at its place, and what it has queued so far. -/
structure OnSchedule (i : Nat) (f : α) (T : Nat) (n : Int) (z : TimerClock α)
    (os : List (Firing α)) : Prop where
  place : z.table[i]? = some (scheduled f T n z.ticks)
  queued : os.filter (fun o => o.iTimerId == i) = firings i f T n z.ticks

theorem OnSchedule.step {i : Nat} {z : TimerClock α} {os : List (Firing α)} {a : TimerAct α}
    (hT : 0 < T) (hn : 0 < n ∨ n = timerTaskAlways) (h : OnSchedule i f T n z os)
    (ha : a.Elsewhere i z) :
    ∃ z' o, z.step a = some (z', o) ∧ OnSchedule i f T n z' (os ++ o) := by
  by_cases htick : a = .tick
  · subst htick
    refine ⟨_, _, rfl, ?_, ?_⟩
    · show (sceneTaskTimerRun z.table).1[i]? = _
      rw [sceneTaskTimerRun_fst, getElem?_map, h.place, map_some,
        scheduled_tick hT hn]
    · have hover := filter_timersOver i 0 z.table
      rw [Nat.zero_add, h.place] at hover
      rw [filter_append, h.queued, firings_tick i hT, List.filter_map]
      have hqueued := congrArg (List.map fun o => (⟨z.ticks + 1, o.1, o.2⟩ : Firing α)) hover
      refine congrArg (firings i f T n z.ticks ++ ·) (hqueued.trans ?_)
      cases scheduled f T n z.ticks with
      | none => rfl
      | some t =>
        simp only
        split <;> rfl
  · obtain ⟨ts, hstep, hplace⟩ := ha.step htick
    refine ⟨_, _, hstep, hplace.trans h.place, ?_⟩
    rw [append_nil]
    exact h.queued

end Schedule

/-- A timer that is made gets a free place.  Whatever happens at the other places
afterwards, its function is queued at the ticks `T`, `2T` up to `nT`, and the place
holds the timer with what is left of its rounds and of its time, or is free again
after the last round. -/
theorem timer_schedule {ts : TimerList α} (hfree : none ∈ ts) (f : α) {T : Nat} (hT : 0 < T)
    {n : Int} (hn : 0 < n ∨ n = timerTaskAlways) :
    ∃ i ts', ts[i]? = some none ∧ sceneTaskTimerCreate ts f T n = some ts' ∧
      (∀ j, j ≠ i → ts'[j]? = ts[j]?) ∧
      ∀ acts, Run.Along TimerClock.step (fun z a => a.Elsewhere i z) ⟨0, ts'⟩ acts →
        ∃ z os, Run.run TimerClock.step ⟨0, ts'⟩ acts = some (z, os) ∧
          z.table[i]? = some (scheduled f T n z.ticks) ∧
          os.filter (fun o => o.iTimerId == i) = firings i f T n z.ticks := by
  have hlt := firstFree_lt hfree
  have hnever : ¬(n = 0 ∨ n < -1) := by
    have halways : timerTaskAlways = -1 := rfl
    omega
  refine ⟨firstFree ts, ts.set (firstFree ts) (some ⟨f, n, T, T⟩), getElem?_firstFree hlt, ?_,
    fun j hj => getElem?_set_ne hj.symm, fun acts hacts => ?_⟩
  · rw [sceneTaskTimerCreate, if_neg (Nat.ne_of_gt hT), if_neg hnever, takeFree_eq _ hlt]
  · have hstart : OnSchedule (firstFree ts) f T n
        ⟨0, ts.set (firstFree ts) (some ⟨f, n, T, T⟩)⟩ [] := by
      constructor
      · show (ts.set (firstFree ts) (some ⟨f, n, T, T⟩))[firstFree ts]? = _
        rw [getElem?_set_self hlt, scheduled, Nat.zero_div, if_neg (by omega), Nat.zero_mod]
        simp
      · rw [firings, rounds, Nat.zero_div, Nat.min_zero, ite_self]
        rfl
    obtain ⟨z, os, hrun, hz⟩ := Run.run_progress
      (I := fun z os => OnSchedule (firstFree ts) f T n z os)
      (fun z os a hz ha => hz.step hT hn ha) hstart hacts
    exact ⟨z, os, hrun, hz.place, hz.queued⟩

/-- A timer of three seconds and two rounds, in a table with two free places. -/
theorem timer_schedule_two :
    ∃ i ts', [none, none][i]? = some (none : Option (TaskTimer Nat)) ∧
      sceneTaskTimerCreate [none, none] 7 3 2 = some ts' ∧
      (∀ j, j ≠ i → ts'[j]? = [none, none][j]?) ∧
      ∀ acts, Run.Along TimerClock.step (fun z a => a.Elsewhere i z) ⟨0, ts'⟩ acts →
        ∃ z os, Run.run TimerClock.step ⟨0, ts'⟩ acts = some (z, os) ∧
          z.table[i]? = some (scheduled 7 3 2 z.ticks) ∧
          os.filter (fun o => o.iTimerId == i) = firings i 7 3 2 z.ticks :=
  timer_schedule (by simp) 7 (by decide) (Or.inl (by decide))

end Clock

end Honyar.LocalScene
