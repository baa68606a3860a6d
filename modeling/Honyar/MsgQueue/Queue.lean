import Honyar.Lib.DoubleList

/-!
# The message queue

Messages of all types wait in one list; a second list has an entry for each type, with a
semaphore and a count of its own, and a third semaphore counts all messages.  Entries that
have had no message for an hour are removed by whoever looks for a type.

A call that would touch a block given back, or walk on without an end, is `none`.
-/

namespace Honyar.MsgQueue

/-- `msg_link_list_node_t` without its links. -/
structure Msg where
  iMsgType : Int
  aucMsg : List UInt8
deriving DecidableEq

/-- `msg_type_link_list_node_t` without its links; of the time stamp only the seconds count. -/
structure TypeInfo where
  iMsgType : Int
  sem : Nat
  iCount : Int
  uiSec : UInt32

/-- `msg_queue_private_t`. -/
structure MsgQueue where
  msgs : DoubleList Msg
  types : DoubleList TypeInfo
  sem : Nat
  iMsgCount : Int
  iMsgTypeCount : Int

/-- What a call meets: the clock when it looks for the type and when it makes an entry for
one, and whether there is memory for an entry and for a message. -/
structure Env where
  now : UInt32
  later : UInt32
  typeMem : Bool
  msgMem : Bool

/-- The return codes. -/
inductive Ret where
  | noErr
  | paraErr
  | generalErr
  | queuePushErr
  | queuePopErr
deriving DecidableEq

/-- Seconds after which an entry without messages goes. -/
def msgTypeCheckTimeout : UInt32 := 3600

/-- `new_msg_queue`. -/
def newMsgQueue : MsgQueue := ⟨.empty, .empty, 0, 0, 0⟩

/-- `msg_link_list_tail_insert`. -/
def msgLinkListTailInsert (iMsgType : Int) (pMsgData : List UInt8) (q : MsgQueue) :
    Option MsgQueue := do
  let msgs ← q.msgs.tailInsert ⟨iMsgType, pMsgData⟩
  return { q with msgs := msgs, iMsgCount := q.iMsgCount + 1 }

/-- `msg_link_list_del`. -/
def msgLinkListDel (p : Nat) (q : MsgQueue) : Option MsgQueue := do
  let msgs ← q.msgs.del p
  return { q with msgs := msgs, iMsgCount := q.iMsgCount - 1 }

/-- `msg_type_link_list_tail_insert`, with a semaphore at zero. -/
def msgTypeLinkListTailInsert (e : Env) (iMsgType : Int) (q : MsgQueue) : Option MsgQueue := do
  let types ← q.types.tailInsert ⟨iMsgType, 0, 0, e.later⟩
  return { q with types := types, iMsgTypeCount := q.iMsgTypeCount + 1 }

/-- `msg_type_link_list_del`. -/
def msgTypeLinkListDel (p : Nat) (q : MsgQueue) : Option MsgQueue := do
  let types ← q.types.del p
  return { q with types := types, iMsgTypeCount := q.iMsgTypeCount - 1 }

/-- Writing to the entry at `p`. -/
def setType (p : Nat) (f : TypeInfo → TypeInfo) (q : MsgQueue) : Option MsgQueue := do
  let types ← q.types.modify p f
  return { q with types := types }

/-- An entry without messages that nobody asked for lately. -/
def Expired (now : UInt32) (i : TypeInfo) : Prop :=
  i.iCount = 0 ∧ msgTypeCheckTimeout ≤ now - i.uiSec

instance (now : UInt32) (i : TypeInfo) : Decidable (Expired now i) :=
  inferInstanceAs (Decidable (_ ∧ _))

/-- The loop of `msg_type_find` from an entry on: the expired entries it comes across go, and
the one it finds has its time renewed. -/
def msgTypeFindFrom (now : UInt32) (iMsgType : Int) :
    Nat → Option Nat → MsgQueue → Option (MsgQueue × Option Nat)
  | _, none, q => some (q, none)
  | 0, some _, _ => none
  | n + 1, some p, q => do
    let c ← q.types.heap p
    if Expired now c.data then
      let q' ← msgTypeLinkListDel p q
      msgTypeFindFrom now iMsgType n c.next q'
    else if iMsgType = c.data.iMsgType then
      let q' ← setType p (fun i => { i with uiSec := now }) q
      return (q', some p)
    else msgTypeFindFrom now iMsgType n c.next q

/-- `msg_type_find`: the entry of a type, made when there is none. -/
def msgTypeFind (e : Env) (iMsgType : Int) (q : MsgQueue) :
    Option (MsgQueue × Option Nat) := do
  let (q, found) ← msgTypeFindFrom e.now iMsgType q.types.fresh q.types.head q
  if found.isSome then return (q, found)
  else if e.typeMem then
    let q ← msgTypeLinkListTailInsert e iMsgType q
    return (q, q.types.tail)
  else return (q, none)

/-- `msg_queue_push`. -/
def msgQueuePush (e : Env) (iMsgType : Int) (pData : List UInt8) (q : MsgQueue) :
    Option (MsgQueue × Ret) :=
  if iMsgType < 0 ∨ pData.length ≤ 0 then some (q, .paraErr)
  else do
    let (q, info) ← msgTypeFind e iMsgType q
    match info with
    | none => return (q, .generalErr)
    | some p =>
      if e.msgMem then
        let q ← msgLinkListTailInsert iMsgType pData q
        let q ← setType p (fun i => { i with iCount := i.iCount + 1, sem := i.sem + 1 }) q
        return ({ q with sem := q.sem + 1 }, .noErr)
      else return (q, .queuePushErr)

/-- What `msg_queue_pop` copies out of a message: its type and what of it fits. -/
def copyOut (iMsgLen : Int) (m : Msg) : Msg :=
  ⟨m.iMsgType, m.aucMsg.take iMsgLen.toNat⟩

/-- `msg_queue_pop` with `iTimeOut` zero; `-1` asks for any type.  A semaphore that is tried
at zero stays there. -/
def msgQueuePop (e : Env) (iMsgType iMsgLen : Int) (q : MsgQueue) :
    Option (MsgQueue × Except Ret Msg) :=
  if iMsgType < -1 ∨ iMsgLen ≤ 0 then some (q, .error .paraErr)
  else if iMsgType = -1 then
    if q.sem = 0 then some (q, .error .generalErr)
    else
      let q := { q with sem := q.sem - 1 }
      match q.msgs.head with
      | none => some (q, .error .queuePopErr)
      | some p => do
        let m ← q.msgs.data p
        let q ← msgLinkListDel p q
        let (q, info) ← msgTypeFind e m.iMsgType q
        match info with
        | none => return (q, .ok (copyOut iMsgLen m))
        | some i =>
          let q ← setType i (fun i => { i with sem := i.sem - 1, iCount := i.iCount - 1 }) q
          return (q, .ok (copyOut iMsgLen m))
  else do
    let (q, info) ← msgTypeFind e iMsgType q
    match info with
    | none => return (q, .error .generalErr)
    | some i =>
      let c ← q.types.data i
      if c.sem = 0 then return (q, .error .generalErr)
      else
        let q ← setType i (fun i => { i with sem := i.sem - 1 }) q
        let found ← q.msgs.find fun m => m.iMsgType = iMsgType
        match found with
        | none => return (q, .error .queuePopErr)
        | some p =>
          let m ← q.msgs.data p
          let q ← msgLinkListDel p q
          let q ← setType i (fun i => { i with iCount := i.iCount - 1 }) q
          return ({ q with sem := q.sem - 1 }, .ok (copyOut iMsgLen m))

/-! ## Runs -/

/-- A call, with what it meets. -/
inductive Op where
  | push (e : Env) (iMsgType : Int) (pData : List UInt8)
  | pop (e : Env) (iMsgType iMsgLen : Int)

/-- What a call gives back. -/
inductive Out where
  | pushed (r : Ret)
  | popped (r : Except Ret Msg)

/-- One call; it is noted with its result. -/
def step (q : MsgQueue) (op : Op) : Option (MsgQueue × List (Op × Out)) :=
  match op with
  | .push e t d => (msgQueuePush e t d q).map fun (q, r) => (q, [(op, .pushed r)])
  | .pop e t n => (msgQueuePop e t n q).map fun (q, r) => (q, [(op, .popped r)])

end Honyar.MsgQueue
