import Honyar.LocalScene.CondOps
import Honyar.LocalScene.SceneSync

/-!
# The engine

What happens to the scene list from outside: requests that change scenes,
conditions and panels, device events, the check of the time conditions once a
minute, timers that run out, and the thread that empties the execution queue.

Every operation returns the new state and its effects: which conditions an event
was compared with, and which scenes were appended to the execution queue.  An
operation that follows a pointer to nothing, or to something of another type, is
`none`.  Requests to the database succeed.
-/

namespace Honyar.LocalScene

open CText

/-- `scene_list_class_t` and the list of `scene_sync.c`. -/
structure Engine where
  list : SceneList
  sync : SyncList
deriving DecidableEq

/-- The engine as it is started. -/
def Engine.init : Engine := ⟨.init, .init⟩

/-- What an operation does that is to be seen. -/
inductive Effect where
  /-- The condition is compared with the value of an event. -/
  | eval (pstScene : Nat) (pstCondPtr : CondPtr .event)
  /-- `scene_list_exec` appends the scene to the execution queue. -/
  | exec (pstQueueValue : QueueNode)
deriving DecidableEq, Repr

/-- What was appended to the execution queue. -/
def execs (os : List Effect) : List QueueNode :=
  os.filterMap fun
    | .exec q => some q
    | .eval _ _ => none

/-- The conditions that were compared. -/
def evals (os : List Effect) : List (Nat × CondPtr .event) :=
  os.filterMap fun
    | .eval a p => some (a, p)
    | .exec _ => none

/-! ## Executing and activating scenes -/

/-- `acSceneEnable` is `"0"`. -/
def SceneInfo.disabled (s : SceneInfo) : Bool := strncmpEq stateMaxLen s.acSceneEnable ['0']

/-- `acSceneEnable` is `"1"`. -/
def SceneInfo.enabled (s : SceneInfo) : Bool := strncmpEq stateMaxLen s.acSceneEnable ['1']

/-- What `scene_list_exec` appends for the scene at `a`. -/
def queueNode (iTime : Int) (a : Nat) (s : SceneInfo) : QueueNode where
  iExecDelayed := atoi s.acExecDelayed
  iTime := iTime
  pstScene := a
  acSceneId := s.acSceneId
  acSceneEnable := s.acSceneEnable

namespace SceneList

/-- `scene_list_exec`. -/
def exec (x : SceneList) (iTime : Int) (a : Nat) (s : SceneInfo) : SceneList × List Effect :=
  ({ x with pstExecQueue := x.pstExecQueue ++ [queueNode iTime a s] },
    [.exec (queueNode iTime a s)])

/-- `scene_list_active`. -/
def active (x : SceneList) (iTime : Int) (a : Nat) : Option (SceneList × List Effect) := do
  let s ← x.scene? a
  let iSize := (s.list .or .time).iCount + (s.list .or .event).iCount +
    (s.list .and .time).iCount + (s.list .and .event).iCount
  if s.cManualTriggerFlag then
    if s.enabled then return x.exec iTime a s else return (x, [])
  else if s.enabled then
    if 0 = iSize then return x.exec iTime a s else return (x, [])
  else return (x, [])

/-- What the updates of a condition of the scene at `a` set off; `pstCondPtr` is
the node of the hash table a timer is started with. -/
def fire (x : SceneList) (iTime : Int) (a : Nat) (s : SceneInfo) (pstCondPtr : Nat) :
    List Trigger → SceneList × List Effect
  | [] => (x, [])
  | .exec :: ts =>
    let r := x.exec iTime a s
    let rs := r.1.fire iTime a s pstCondPtr ts
    (rs.1, r.2 ++ rs.2)
  | .timer ulTime :: ts =>
    fire { x with timers := x.timers ++ [⟨pstCondPtr, ulTime⟩] } iTime a s pstCondPtr ts

end SceneList

/-! ## Events -/

/-- `"StateSync"`. -/
def triggerStateSync : CText := ['S', 't', 'a', 't', 'e', 'S', 'y', 'n', 'c']

/-- `COND_MAX_NUM`. -/
def condMaxNum : Nat := 128

/-- `acLastValue` after an event: written only when it changes. -/
def EventCond.seen (pstEventInfo : Event) (c : EventCond) : EventCond :=
  if strncmpEq valueMaxLen c.acLastValue pstEventInfo.acValue then c
  else { c with acLastValue := strncpy valueMaxLen pstEventInfo.acValue }

/-- A `StateSync` condition sees a new value: an answer is taken off its queue,
a report is passed on to the other `Or` event conditions of the scene. -/
def stateSync (y : SyncList) (iTime : Int) (s : SceneInfo) (pstEventInfo : Event) :
    Option SyncList :=
  let r := sceneSyncEvent y iTime pstEventInfo.acDevId pstEventInfo.acKey pstEventInfo.acValue
  if r.2 then some r.1
  else
    ((s.list .or .event).conds.take condMaxNum).foldlM (fun y (c : EventCond) =>
      if strncmpEq devIdMaxLen pstEventInfo.acDevId c.acDevId &&
        strncmpEq keyMaxLen pstEventInfo.acKey c.acKey then some y
      else sceneSyncEventReqAdd y iTime c.acDevId c.acKey pstEventInfo.acValue) r.1

/-- The body of the loop of `scene_list_event` over the chain of conditions. -/
def eventCondNode (iTime : Int) (pstEventInfo : Event) (x : Engine) (p : PtrNode) :
    Option (Engine × List Effect) := do
  let s ← x.list.scene? p.pstScene
  if s.disabled then return (x, [])
  else
    let q ← p.condPtr? .event
    let c ← s.node? q
    if c.stCond.acTriggerType = triggerStateSync then
      let y ←
        if strncmpEq valueMaxLen c.stCond.acLastValue pstEventInfo.acValue then some x.sync
        else stateSync x.sync iTime s pstEventInfo
      return (⟨x.list.setScene p.pstScene (s.modifyCond q (EventCond.seen pstEventInfo)), y⟩,
        [.eval p.pstScene q])
    else
      let iTrue := sceneEventCondIsTrue c.stCond pstEventInfo
      let (s, ts) ← sceneEventCondTrueUpdate (s.modifyCond q (EventCond.seen pstEventInfo)) iTrue q
      let r := (x.list.setScene p.pstScene s).fire iTime p.pstScene s p.addr ts
      return (⟨r.1, x.sync⟩, .eval p.pstScene q :: r.2)

/-- `pScenePanelNode` of a node. -/
def PtrNode.panelPtr? (e : PtrNode) : Option Nat :=
  match e.target with
  | .panel a => some a
  | _ => none

/-- The panel at an address. -/
def SceneInfo.panel? (s : SceneInfo) (a : Nat) : Option ScenePanelNode :=
  s.pstPanel.find? fun n => n.addr == a

/-- The body of the loop of `scene_list_event` over the chain of panels. -/
def eventPanelNode (iTime : Int) (x : Engine) (p : PtrNode) : Option (Engine × List Effect) := do
  let s ← x.list.scene? p.pstScene
  let n ← s.panel? (← p.panelPtr?)
  if strncmpEq stateMaxLen n.stPanel.acEnable ['1'] then
    let (y, os) ← x.list.active iTime p.pstScene
    return (⟨y, x.sync⟩, os)
  else return (x, [])

/-- `scene_list_event`. -/
def sceneListEvent (x : Engine) (iTime : Int) (pstEventInfo : Event) :
    Option (Engine × List Effect) :=
  let ps := ptrHashFindAll x.list.pHashTable
    (eventHashKey pstEventInfo.acDevId pstEventInfo.acKey)
  if ps ≠ [] then Run.run (eventCondNode iTime pstEventInfo) x ps
  else
    Run.run (eventPanelNode iTime) x (ptrHashFindAll x.list.pHashTable
      (panelHashKey pstEventInfo.acDevId pstEventInfo.acKey pstEventInfo.acValue))

/-! ## The check of the time conditions -/

/-- The time conditions of a scene in the order the check visits them: the `Or`
list before the `And` list. -/
def SceneInfo.timePtrs (s : SceneInfo) : List (CondPtr .time) :=
  let ptrs (l : Logic) : List (CondPtr .time) :=
    (s.list l .time).walk.flatMap fun n => n.pstCond.map fun c => ⟨l, n.addr, c.addr⟩
  ptrs .or ++ ptrs .and

/-- One time condition is checked; the check may mark it as lost. -/
def timeCondCheck (now : Tm) (s : SceneInfo) (p : CondPtr .time) :
    Option (SceneInfo × List Trigger) := do
  let c ← s.node? p
  let r := sceneTimeCondIsTrue now c.stCond
  sceneTimeCondTrueUpdate (s.modifyCond p fun _ => r.2) r.1 p

/-- The check of one scene. -/
def sceneTimeCheck (now : Tm) (s : SceneInfo) : Option (SceneInfo × List Trigger) :=
  Run.run (timeCondCheck now) s s.timePtrs

/-- The loop of `scene_list_time_true_all`.  A time condition starts no timer, so
the node of the hash table is not given. -/
def timeTrueLoop (iTime : Int) (now : Tm) : SceneList → List SceneNode →
    Option (SceneList × List Effect)
  | x, [] => some (x, [])
  | x, n :: ns => do
    let (s, ts) ← sceneTimeCheck now n.stSceneInfo
    let r := (x.setScene n.addr s).fire iTime n.addr s 0 ts
    let rs ← timeTrueLoop iTime now r.1 ns
    return (rs.1, r.2 ++ rs.2)

/-- `scene_list_time_true_all`. -/
def sceneListTimeTrueAll (x : SceneList) (iTime : Int) (now : Tm) :
    Option (SceneList × List Effect) :=
  timeTrueLoop iTime now x x.stList

/-! ## Timers -/

/-- `_scene_continue_trigger_timer_fun`, when the `i`-th timer runs out. -/
def sceneContinueTriggerTimerFun (x : SceneList) (iTime : Int) (i : Nat) :
    Option (SceneList × List Effect) := do
  let t ← x.timers[i]?
  let x := { x with timers := x.timers.eraseIdx i }
  let e ← x.ptrNode? t.pstCondPtr
  let s ← x.scene? e.pstScene
  if s.ucSceneCondTrue then return x.exec iTime e.pstScene s else return (x, [])

/-! ## Panels -/

/-- `scene_bind`. -/
def sceneBind (x : SceneList) (a : Nat) (pstPanelInfo : ScenePanel) : Option SceneList := do
  let s ← x.scene? a
  let acHashKey := panelHashKey pstPanelInfo.acDevId pstPanelInfo.acKey pstPanelInfo.acValue
  match ptrHashFind x.pHashTable acHashKey s.acSceneId with
  | some e =>
    let n ← e.panelPtr?
    let t ← x.scene? e.pstScene
    return x.setScene e.pstScene
      { t with
        pstPanel := t.pstPanel.map fun m =>
          if m.addr = n then
            { m with stPanel := { m.stPanel with
              acEnable := strncpy stateMaxLen pstPanelInfo.acEnable } }
          else m }
  | none =>
    return { x.setScene a { s with pstPanel := s.pstPanel ++ [⟨x.heap, pstPanelInfo⟩] } with
      pHashTable := ptrHashInst x.pHashTable acHashKey
        { addr := x.heap + 1
          acId := strncpy indexMaxLen s.acSceneId
          pstScene := a
          target := .panel x.heap }
      heap := x.heap + 2 }

/-- `scene_unbind`. -/
def sceneUnbind (x : SceneList) (a : Nat) (pstPanelInfo : ScenePanel) :
    Option (SceneList × ErrNo) := do
  let s ← x.scene? a
  let acHashKey := panelHashKey pstPanelInfo.acDevId pstPanelInfo.acKey pstPanelInfo.acValue
  match ptrHashFind x.pHashTable acHashKey s.acSceneId with
  | some e =>
    let n ← e.panelPtr?
    if e.pstScene = a then
      return ({ x.setScene a { s with pstPanel := s.pstPanel.filter (·.addr != n) } with
          pHashTable := ptrHashDel x.pHashTable acHashKey s.acSceneId }, .noErr)
    else none
  | none => return (x, .notFoundErr)

/-- `scene_bind_clear`: the panels are taken out of the hash table and freed;
`pstPanel` is left as it is. -/
def sceneBindClear (x : SceneList) (a : Nat) : Option SceneList := do
  let s ← x.scene? a
  return { x with
    pHashTable := s.pstPanel.foldl (fun h n =>
      ptrHashDel h (panelHashKey n.stPanel.acDevId n.stPanel.acKey n.stPanel.acValue)
        s.acSceneId) x.pHashTable }

/-! ## Deleting scenes -/

/-- `scene_list_del`. -/
def sceneListDel (x : SceneList) (pcSceneId : CText) : Option (SceneList × ErrNo) :=
  match sceneListGet x pcSceneId with
  | none => some (x, .notFoundErr)
  | some a => do
    let x ← sceneTimeOrCondClear x a
    let x ← sceneEventOrCondClear x a
    let x ← sceneTimeAndCondClear x a
    let x ← sceneEventAndCondClear x a
    let x ← sceneBindClear x a
    return ({ x with stList := x.stList.filter (·.addr != a) }, .noErr)

/-! ## Steps -/

/-- What happens to the engine.  A request names its scene by the id. -/
inductive Act where
  | sceneAdd (pstInfo : SceneText)
  | sceneDel (pcSceneId : CText)
  | condAdd (pcSceneId : CText) (l : Logic) (k : Kind) (pstCondInfo : Cond k)
  | condDel (pcSceneId : CText) (l : Logic) (k : Kind) (pstCondInfo : Cond k)
  | condClear (pcSceneId : CText) (l : Logic) (k : Kind)
  | bind (pcSceneId : CText) (pstPanelInfo : ScenePanel)
  | unbind (pcSceneId : CText) (pstPanelInfo : ScenePanel)
  | event (iTime : Int) (pstEventInfo : Event)
  | timeTrueAll (iTime : Int) (now : Tm)
  | timeout (iTime : Int) (iTimerId : Nat)
  | execQueue (iTime : Int)

namespace Engine

/-- A request to the scene with this id; nothing when there is none. -/
def request (x : Engine) (pcSceneId : CText) (f : Nat → Option SceneList) :
    Option (Engine × List Effect) :=
  match sceneListGet x.list pcSceneId with
  | none => some (x, [])
  | some a => (f a).map fun y => (⟨y, x.sync⟩, [])

/-- The thread `scene_exec`: the synchronisation commands are sent, and the
scenes whose delay is over are executed and leave the queue. -/
def execQueue (x : Engine) (iTime : Int) : Engine :=
  ⟨{ x.list with
      pstExecQueue := x.list.pstExecQueue.filter fun q =>
        q.iExecDelayed ≠ 0 ∧ ¬ iTime - q.iTime ≥ q.iExecDelayed },
    (sceneSyncEventReqExec x.sync iTime).1⟩

/-- One step. -/
def step (x : Engine) : Act → Option (Engine × List Effect)
  | .sceneAdd i => some (⟨hySceneAdd x.list i, x.sync⟩, [])
  | .sceneDel i => (sceneListDel x.list i).map fun r => (⟨r.1, x.sync⟩, [])
  | .condAdd i l _ c => x.request i fun a => (sceneCondAdd x.list a l c).map Prod.fst
  | .condDel i l _ c => x.request i fun a => (sceneCondDel x.list a l c).map Prod.fst
  | .condClear i l k => x.request i fun a => sceneCondClear x.list a l k
  | .bind i n => x.request i fun a => sceneBind x.list a n
  | .unbind i n => x.request i fun a => (sceneUnbind x.list a n).map Prod.fst
  | .event t e => sceneListEvent x t e
  | .timeTrueAll t now => (sceneListTimeTrueAll x.list t now).map fun r => (⟨r.1, x.sync⟩, r.2)
  | .timeout t i => (sceneContinueTriggerTimerFun x.list t i).map fun r => (⟨r.1, x.sync⟩, r.2)
  | .execQueue t => some (x.execQueue t, [])

end Engine

end Honyar.LocalScene
