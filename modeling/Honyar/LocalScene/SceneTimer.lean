import Honyar.LocalScene.Engine

/-!
# Timers and the clock

`scene_timer.c`: a table of timers, counted down once a second.  A timer whose
time is over runs its function; one that is to run once gives its place free.
The table is generic in the argument of the function; `Continue` timers, the
only ones there are, have the node of the hash table they were started with.

`Clocked` is the engine with this table: events start timers in it, and a tick of
the clock runs those that are over.
-/

namespace Honyar.LocalScene

/-! ## The table -/

/-- `scene_task_timer_t` of a timer in use, without its function. -/
structure TaskTimer (α : Type) where
  pFunArg : α
  iFunExecTime : Int
  ulTime : Nat
  ulRunTime : Nat
deriving DecidableEq, Repr

/-- `g_pstTimerList`: `none` is a place that is not in use. -/
abbrev TimerList (α : Type) : Type := List (Option (TaskTimer α))

/-- `TIMER_TASK_ALWAYS`. -/
def timerTaskAlways : Int := -1

/-- `TIMER_TASK_ONCE`. -/
def timerTaskOnce : Int := 1

section Table

variable {α : Type}

/-- The first place that is not in use is taken; `none` when there is none and
the source writes behind the table: it compares with `>` where the search ends at
`g_iTimerNum`. -/
def takeFree (t : TaskTimer α) : TimerList α → Option (TimerList α)
  | [] => none
  | none :: ts => some (some t :: ts)
  | some u :: ts => (takeFree t ts).map (some u :: ·)

/-- `scene_task_timer_create`. -/
def sceneTaskTimerCreate (ts : TimerList α) (pFunArg : α) (ulTime : Nat) (iFunExecTime : Int) :
    Option (TimerList α) :=
  if ulTime = 0 then some ts
  else if iFunExecTime = 0 ∨ iFunExecTime < -1 then some ts
  else takeFree ⟨pFunArg, iFunExecTime, ulTime, ulTime⟩ ts

/-- A timer after it ran: it is started again, or gives its place free. -/
def TaskTimer.again (t : TaskTimer α) : Option (TaskTimer α) :=
  let iFunExecTime :=
    if timerTaskAlways ≠ t.iFunExecTime then t.iFunExecTime - 1 else t.iFunExecTime
  if iFunExecTime ≠ 0 then some { t with iFunExecTime := iFunExecTime, ulRunTime := t.ulTime }
  else none

/-- `scene_task_timer_run`: the table after a tick, and the timers that ran, in
the order of their places. -/
def sceneTaskTimerRun : TimerList α → TimerList α × List (TaskTimer α)
  | [] => ([], [])
  | none :: ts => let r := sceneTaskTimerRun ts; (none :: r.1, r.2)
  | some t :: ts =>
    let r := sceneTaskTimerRun ts
    if t.ulRunTime ≤ 1 then (t.again :: r.1, t :: r.2)
    else (some { t with ulRunTime := t.ulRunTime - 1 } :: r.1, r.2)

end Table

/-! ## The engine and the clock -/

/-- The engine and the table of its timers; a timer is started with the address
of a node of the hash table. -/
structure Clocked where
  engine : Engine
  timers : TimerList Nat
deriving DecidableEq

/-- What happens: an event, or a tick of the clock. -/
inductive ClockAct where
  | event (iTime : Int) (pstEventInfo : Event)
  | tick (iTime : Int)
deriving DecidableEq

/-- What is to be seen of the timers. -/
inductive ClockOut where
  /-- `scene_task_timer_create` is called for a condition. -/
  | armed (pstCondPtr ulTime : Nat)
  /-- The timer of a condition puts the scene into the execution queue. -/
  | queued (pstCondPtr ulTime : Nat) (pstQueueValue : QueueNode)
deriving DecidableEq, Repr

/-- The function of a timer that ran. -/
def timerFun (iTime : Int) (x : SceneList) (t : TaskTimer Nat) :
    Option (SceneList × List ClockOut) := do
  let (x, os) ← sceneContinueTriggerTimerFun { x with timers := [⟨t.pFunArg, t.ulTime⟩] } iTime 0
  return (x, (execs os).map (.queued t.pFunArg t.ulTime))

/-- The timers an event has started get their places in the table. -/
def createTimers (ts : TimerList Nat) (started : List ContinueTimer) : Option (TimerList Nat) :=
  started.foldlM
    (fun ts t => sceneTaskTimerCreate ts t.pstCondPtr t.ulTime.toNat timerTaskOnce) ts

namespace Clocked

/-- An event. -/
def event (z : Clocked) (iTime : Int) (pstEventInfo : Event) :
    Option (Clocked × List ClockOut) := do
  let (y, _) ← sceneListEvent z.engine iTime pstEventInfo
  let ts ← createTimers z.timers y.list.timers
  return (⟨{ y with list := { y.list with timers := [] } }, ts⟩,
    y.list.timers.map fun t => .armed t.pstCondPtr t.ulTime.toNat)

/-- A tick. -/
def tick (z : Clocked) (iTime : Int) : Option (Clocked × List ClockOut) := do
  let r := sceneTaskTimerRun z.timers
  let (x, os) ← Run.run (timerFun iTime) z.engine.list r.2
  return (⟨{ z.engine with list := x }, r.1⟩, os)

/-- One step. -/
def step (z : Clocked) : ClockAct → Option (Clocked × List ClockOut)
  | .event iTime e => z.event iTime e
  | .tick iTime => z.tick iTime

/-- The engine with `iTimerNum` free places. -/
def start (y : Engine) (iTimerNum : Nat) : Clocked := ⟨y, List.replicate iTimerNum none⟩

end Clocked

/-- `ucSceneCondTrue` of the scene a timer looks at. -/
def SceneList.sceneTrue? (x : SceneList) (pstCondPtr : Nat) : Option Bool := do
  let e ← x.ptrNode? pstCondPtr
  let s ← x.scene? e.pstScene
  return s.ucSceneCondTrue

end Honyar.LocalScene
