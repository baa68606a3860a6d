import Honyar.Lib.Run
import Honyar.LocalScene.Value
import Mathlib.Data.List.Nodup

/-!
# Synchronisation commands

`scene_sync.c` keeps, for each attribute of a device that is to follow another,
a queue of at most 32 values with one flag a value that says whether the value
was sent.  A request appends a value, the periodic execution sends the values
whose flag is clear, and a report of the device answers one value that was sent.

An entry of a queue carries, besides its value, the number of the request that
made it: the source has no such number, and nothing below depends on it but the
statement that no entry is sent twice.

A write behind the last place of the array is `none`.
-/

namespace Honyar.LocalScene

open CText

/-! ## The flags -/

/-- `_scene_sync_event_send_flag_get`. -/
def syncFlagGet (uiSendFlag : BitVec 32) (iEventId : Nat) : Bool :=
  (uiSendFlag >>> iEventId) &&& 1#32 == 1#32

/-- `_scene_sync_event_send_flag_set`. -/
def syncFlagSet (uiSendFlag : BitVec 32) (iEventId : Nat) : BitVec 32 :=
  uiSendFlag ||| (1#32 <<< iEventId)

/-- `_scene_sync_event_send_flag_clean`.  The source negates the shifted one
with `!`, which is 0 whatever is shifted. -/
def syncFlagClean (uiSendFlag : BitVec 32) (iEventId : Nat) : BitVec 32 :=
  uiSendFlag &&& (if 1#32 <<< iEventId = 0#32 then 1#32 else 0#32)

/-! ## The queues -/

/-- `EVENT_MAX_NUM`. -/
def eventMaxNum : Nat := 32

/-- `SYNC_EVENT_LOSE_TIME`, in seconds. -/
def syncEventLoseTime : Int := 30

/-- `SYNC_EVENT_SAFE_TIME`, in seconds. -/
def syncEventSafeTime : Int := 2

/-- `SYNC_EVENT_DELAY_TIME`, in seconds. -/
def syncEventDelayTime : Int := 1

/-- `SYNC_EVENT_SAFE_NUM`. -/
def syncEventSafeNum : Nat := 4

/-- An entry of `aiValue`, with the number of its request. -/
structure SyncEntry where
  iValue : Int
  iSeq : Nat
deriving DecidableEq, Repr

/-- `scene_sync_node_t`; `iValueTotal` is the length of `aiValue`, and the time
is in seconds. -/
structure SyncNode where
  acDevId : CText
  acKey : CText
  aiValue : List SyncEntry
  uiSendFlag : BitVec 32
  iProtect : Bool
  iCount : Nat
  stActiveTime : Int
deriving DecidableEq, Repr

/-- What `_scene_sync_ctrl_dispatch` is called with, and for which entry. -/
structure SyncDispatch where
  acDevId : CText
  acKey : CText
  acValue : CText
  iSeq : Nat
deriving DecidableEq, Repr

/-- `g_pstSceneSyncEventList`, and the number of the next entry. -/
structure SyncList where
  nodes : List SyncNode
  iSeq : Nat
deriving DecidableEq, Repr

namespace SyncNode

/-- The queue is the one of this attribute. -/
def isFor (n : SyncNode) (pcDevId pcKey : CText) : Bool :=
  strncmpEq devIdMaxLen n.acDevId pcDevId && strncmpEq keyMaxLen n.acKey pcKey

/-- The entry at place `i` was sent. -/
def sent (n : SyncNode) (i : Nat) : Bool := syncFlagGet n.uiSendFlag i

/-- Appends an entry and cleans its flag. -/
def push (n : SyncNode) (e : SyncEntry) : Option SyncNode :=
  if n.aiValue.length < eventMaxNum then
    some { n with
      aiValue := n.aiValue ++ [e]
      uiSendFlag := syncFlagClean n.uiSendFlag n.aiValue.length }
  else none

/-- An entry in the loop that keeps those that were sent. -/
def keepSent (n : SyncNode) (r : List SyncEntry × BitVec 32) (e : SyncEntry × Nat) :
    List SyncEntry × BitVec 32 :=
  if n.sent e.2 then (r.1 ++ [e.1], syncFlagSet r.2 r.1.length) else r

/-- Drops the entries that were not sent. -/
def dropUnsent (n : SyncNode) : SyncNode :=
  let r := n.aiValue.zipIdx.foldl n.keepSent ([], 0#32)
  { n with aiValue := r.1, uiSendFlag := r.2 }

/-- The requests of one protection period are counted, and too many of them turn
the protection on. -/
def count (n : SyncNode) (now : Int) : SyncNode :=
  let iCount := if now - n.stActiveTime < syncEventSafeTime then n.iCount + 1 else 0
  { n with
    iCount := iCount
    iProtect := n.iProtect || decide (iCount ≥ syncEventSafeNum) }

/-- A request to a queue that exists: under protection the new value replaces
those that wait. -/
def reqAdd (n : SyncNode) (now : Int) (e : SyncEntry) : Option SyncNode := do
  let n := n.count now
  let n ← (if n.iProtect then n.dropUnsent else n).push e
  return { n with stActiveTime := now }

/-- An entry in the loop that sends those whose flag is clear; the flags are
those of the queue, written in the loop. -/
def sendOne (n : SyncNode) (r : BitVec 32 × List SyncDispatch) (e : SyncEntry × Nat) :
    BitVec 32 × List SyncDispatch :=
  if syncFlagGet r.1 e.2 then r
  else
    (syncFlagSet r.1 e.2, r.2 ++ [{
      acDevId := n.acDevId
      acKey := n.acKey
      acValue := (toString e.1.iValue).toList
      iSeq := e.1.iSeq }])

/-- Sends the entries whose flag is clear and sets it. -/
def sendAll (n : SyncNode) : SyncNode × List SyncDispatch :=
  let r := n.aiValue.zipIdx.foldl n.sendOne (n.uiSendFlag, [])
  ({ n with uiSendFlag := r.1 }, r.2)

/-- The execution of one queue: an empty or an old queue is deleted, a queue
under protection waits for its delay. -/
def reqExec (n : SyncNode) (now : Int) : Option (SyncNode × List SyncDispatch) :=
  if n.aiValue.length = 0 then none
  else if now - n.stActiveTime ≥ syncEventLoseTime then none
  else if n.iProtect then
    let n :=
      if now - n.stActiveTime ≥ syncEventSafeTime then { n with iProtect := false, iCount := 0 }
      else n
    if now - n.stActiveTime < syncEventDelayTime then some (n, []) else some n.sendAll
  else some n.sendAll

/-- An entry in the loop that looks for the one a report answers. -/
def answerOne (n : SyncNode) (iValue : Int) (r : (List SyncEntry × BitVec 32) × Bool)
    (e : SyncEntry × Nat) : (List SyncEntry × BitVec 32) × Bool :=
  if n.sent e.2 then
    if !r.2 && e.1.iValue == iValue then (r.1, true)
    else ((r.1.1 ++ [e.1], syncFlagSet r.1.2 r.1.1.length), r.2)
  else ((r.1.1 ++ [e.1], syncFlagClean r.1.2 r.1.1.length), r.2)

/-- A report to a queue: the first entry that was sent with this value is
answered, unless an earlier queue had it. -/
def event (n : SyncNode) (now : Int) (iValue : Int) (ucFoundFlag : Bool) : SyncNode × Bool :=
  let r := n.aiValue.zipIdx.foldl (n.answerOne iValue) (([], 0#32), ucFoundFlag)
  ({ n with aiValue := r.1.1, uiSendFlag := r.1.2, stActiveTime := now }, r.2)

end SyncNode

/-! ## The three operations -/

/-- The list as it is made. -/
def SyncList.init : SyncList := ⟨[], 0⟩

/-- The loop of `scene_sync_event_req_add` over the queues; `iSeq` numbers the
entries it makes. -/
def syncReqAddLoop (now : Int) (pcDevId pcKey pcValue : CText) :
    List SyncNode → Nat → Option (List SyncNode × Nat)
  | [], iSeq => some ([], iSeq)
  | n :: ns, iSeq => do
    if n.isFor pcDevId pcKey then
      let n' ← n.reqAdd now ⟨atoi pcValue, iSeq⟩
      let (ns', iSeq') ← syncReqAddLoop now pcDevId pcKey pcValue ns (iSeq + 1)
      return (n' :: ns', iSeq')
    else
      let (ns', iSeq') ← syncReqAddLoop now pcDevId pcKey pcValue ns iSeq
      return (n :: ns', iSeq')

/-- `scene_sync_event_req_add`. -/
def sceneSyncEventReqAdd (x : SyncList) (now : Int) (pcDevId pcKey pcValue : CText) :
    Option SyncList := do
  if x.nodes.any fun n => n.isFor pcDevId pcKey then
    let (ns, iSeq) ← syncReqAddLoop now pcDevId pcKey pcValue x.nodes x.iSeq
    return ⟨ns, iSeq⟩
  else
    return {
      nodes := x.nodes ++ [{
        acDevId := strncpy devIdMaxLen pcDevId
        acKey := strncpy keyMaxLen pcKey
        aiValue := [⟨atoi pcValue, x.iSeq⟩]
        uiSendFlag := 0#32
        iProtect := false
        iCount := 1
        stActiveTime := now }]
      iSeq := x.iSeq + 1 }

/-- `scene_sync_event_req_exec`, where every dispatch succeeds. -/
def sceneSyncEventReqExec (x : SyncList) (now : Int) : SyncList × List SyncDispatch :=
  ({ x with nodes := x.nodes.filterMap fun n => (n.reqExec now).map Prod.fst },
    x.nodes.flatMap fun n => ((n.reqExec now).map Prod.snd).getD [])

/-- The loop of `scene_sync_event` over the queues. -/
def syncEventLoop (now : Int) (pcDevId pcKey pcValue : CText) :
    List SyncNode → Bool → List SyncNode × Bool
  | [], ucFoundFlag => ([], ucFoundFlag)
  | n :: ns, ucFoundFlag =>
    let r := if n.isFor pcDevId pcKey then n.event now (atoi pcValue) ucFoundFlag
      else (n, ucFoundFlag)
    let rs := syncEventLoop now pcDevId pcKey pcValue ns r.2
    (r.1 :: rs.1, rs.2)

/-- `scene_sync_event`: the report answers a request.  The callers do not tell
the result -1, of an empty list, from 0. -/
def sceneSyncEvent (x : SyncList) (now : Int) (pcDevId pcKey pcValue : CText) : SyncList × Bool :=
  let r := syncEventLoop now pcDevId pcKey pcValue x.nodes false
  ({ x with nodes := r.1 }, r.2)

end Honyar.LocalScene
