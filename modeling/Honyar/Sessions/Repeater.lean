import Honyar.Lib.DoubleList
import Honyar.Lib.Run

/-!
# The data repeater

data_repeater.c: messages that were sent wait in a doubly linked list for their response.  A
response takes out the oldest message it matches; the managing thread sends a message again when
its time is out, as often as the repeater allows, and then drops it.

A block's address is not given out again, so that it tells which message is meant.  A step that
would touch a block given back is `none`.
-/

namespace Honyar.Sessions

open Option List

variable {α ρ : Type}

/-- `base_timeval_t`, as far as it is compared. -/
structure Timeval where
  uiSec : UInt32
  uiMsec : UInt32
deriving DecidableEq

/-- `data_repeater_link_list_node_t` without its links. -/
structure RepeaterNode (α : Type) where
  stTimestamp : Timeval
  iResendCount : Int
  iSyncFlag : Int
  iDataLen : Int
  aucData : α

/-- `data_repeater_private_t`; `list` has the links and both ends. -/
structure Repeater (α : Type) where
  list : DoubleList (RepeaterNode α)
  iLen : Int
  iTimeOut : Int
  iMaxResend : Int

/-- What the calls return. -/
inductive RepeaterRet where
  | noErr
  | paraErr
  | listInsertErr
  | notFoundErr
deriving DecidableEq

/-- What a call or a pass of the thread does outside the list. -/
inductive RepeaterOut (α : Type) where
  /-- The registered callback sends the message of a block again. -/
  | resend (p : Nat) (pData : α) (iDataLen : Int)
  /-- The message of a block is returned, with this many of its bytes. -/
  | sendData (p : Nat) (pSendData : α) (iSendDataLen : Int)
  | ret (iRet : RepeaterRet)

/-! ## The functions -/

/-- `new_data_repeater`. -/
def newDataRepeater (iTimeOut iMaxResend : Int) : Option (Repeater α) :=
  if iTimeOut ≤ 0 ∨ iMaxResend ≤ 0 then none else some ⟨.empty, 0, iTimeOut, iMaxResend⟩

/-- `data_repeater_link_list_tail_insert`, with its new node. -/
def dataRepeaterLinkListTailInsert (z : Repeater α) (iSendFlag : Int) (pData : α) (iDataLen : Int)
    (stNow : Timeval) : Option (Repeater α) := do
  let list ← z.list.tailInsert ⟨stNow, z.iMaxResend, iSendFlag, iDataLen, pData⟩
  return { z with list := list, iLen := z.iLen + 1 }

/-- `data_repeater_link_list_del`. -/
def dataRepeaterLinkListDel (z : Repeater α) (p : Nat) : Option (Repeater α) := do
  let list ← z.list.del p
  return { z with list := list, iLen := z.iLen - 1 }

/-- `data_repeater_send_push`; `mem` is whether there is memory for the node. -/
def dataRepeaterSendPush (z : Repeater α) (iSendFlag : Int) (pData : α) (iDataLen : Int)
    (stNow : Timeval) (mem : Bool) : Option (Repeater α × List (RepeaterOut α)) :=
  if iDataLen ≤ 0 then some (z, [.ret .paraErr])
  else if mem then
    (dataRepeaterLinkListTailInsert z iSendFlag pData iDataLen stNow).map fun z =>
      (z, [.ret .noErr])
  else some (z, [.ret .listInsertErr])

/-- `data_repeater_respond_push`. -/
def dataRepeaterRespondPush (pDataMatchingCb : α → ρ → Bool) (z : Repeater α) (pRecvData : ρ)
    (iRecvDataLen iSendDataLen : Int) : Option (Repeater α × List (RepeaterOut α)) :=
  if iRecvDataLen ≤ 0 ∨ iSendDataLen ≤ 0 then some (z, [.ret .paraErr])
  else if z.iLen = 0 then some (z, [.ret .notFoundErr])
  else do
    match ← z.list.find fun nd => pDataMatchingCb nd.aucData pRecvData with
    | none => return (z, [.ret .notFoundErr])
    | some p =>
      let nd ← z.list.data p
      let z ← dataRepeaterLinkListDel z p
      return (z, [.sendData p nd.aucData
        (if iSendDataLen ≥ nd.iDataLen then nd.iDataLen else iSendDataLen), .ret .noErr])

/-- The time of a message is out; the differences are those of `unsigned int`. -/
def timedOut (iTimeOut : Int) (stNow stTimestamp : Timeval) : Bool :=
  (iTimeOut / 1000).toNat < (stNow.uiSec - stTimestamp.uiSec).toNat ||
    ((stNow.uiSec - stTimestamp.uiSec).toNat = (iTimeOut / 1000).toNat &&
      (iTimeOut % 1000).toNat ≤ (stNow.uiMsec - stTimestamp.uiMsec).toNat)

/-- A message that is sent again. -/
def RepeaterNode.again (stNow : Timeval) (nd : RepeaterNode α) : RepeaterNode α :=
  { nd with stTimestamp := stNow, iResendCount := nd.iResendCount - 1 }

/-- The loop of `data_repeater_manage` from a node on. -/
def dataRepeaterManageFrom (stNow : Timeval) :
    Nat → Option Nat → Repeater α → Option (Repeater α × List (RepeaterOut α))
  | _, none, z => some (z, [])
  | 0, some _, _ => none
  | n + 1, some p, z => do
    let c ← z.list.heap p
    if timedOut z.iTimeOut stNow c.data.stTimestamp then
      if c.data.iResendCount = 0 then
        let z ← dataRepeaterLinkListDel z p
        dataRepeaterManageFrom stNow n c.next z
      else if 0 < c.data.iResendCount then
        let list ← z.list.modify p (RepeaterNode.again stNow)
        let next ← list.next (some p)
        let (z, os) ← dataRepeaterManageFrom stNow n next { z with list := list }
        return (z, .resend p c.data.aucData c.data.iDataLen :: os)
      else dataRepeaterManageFrom stNow n c.next z
    else dataRepeaterManageFrom stNow n c.next z

/-- A pass of `data_repeater_manage`. -/
def dataRepeaterManage (z : Repeater α) (stNow : Timeval) :
    Option (Repeater α × List (RepeaterOut α)) :=
  if z.iLen = 0 then some (z, []) else dataRepeaterManageFrom stNow z.list.fresh z.list.head z

/-- The loop of `data_repeater_link_list_clear` from a node on: the callback for the data, then the
block.  `none` of the callback is memory it may not touch. -/
def dataRepeaterLinkListClearFrom {ω : Type} (pFreeDataCb : α → Int → Option (List ω)) :
    Nat → Option Nat → Repeater α → Option (Repeater α × List ω)
  | _, none, z => some (z, [])
  | 0, some _, _ => none
  | n + 1, some p, z => do
    let c ← z.list.heap p
    let os ← pFreeDataCb c.data.aucData c.data.iDataLen
    let list ← z.list.free p
    let (z, os') ← dataRepeaterLinkListClearFrom pFreeDataCb n c.next
      { z with list := list, iLen := z.iLen - 1 }
    return (z, os ++ os')

/-- `destroy_data_repeater`: what the callback did. -/
def Repeater.destroy {ω : Type} (pFreeDataCb : α → Int → Option (List ω)) (z : Repeater α) :
    Option (List ω) :=
  if z.iLen ≠ 0 then
    (dataRepeaterLinkListClearFrom pFreeDataCb z.list.fresh z.list.head z).map Prod.snd
  else some []

/-- What happens to a repeater. -/
inductive RepeaterAct (α ρ : Type) where
  | sendPush (iSendFlag : Int) (pData : α) (iDataLen : Int) (stNow : Timeval) (mem : Bool)
  | respondPush (pRecvData : ρ) (iRecvDataLen iSendDataLen : Int)
  | manage (stNow : Timeval)

def Repeater.step (pDataMatchingCb : α → ρ → Bool) (z : Repeater α) :
    RepeaterAct α ρ → Option (Repeater α × List (RepeaterOut α))
  | .sendPush iSendFlag pData iDataLen stNow mem =>
    dataRepeaterSendPush z iSendFlag pData iDataLen stNow mem
  | .respondPush pRecvData iRecvDataLen iSendDataLen =>
    dataRepeaterRespondPush pDataMatchingCb z pRecvData iRecvDataLen iSendDataLen
  | .manage stNow => dataRepeaterManage z stNow

/-! ## The messages that wait -/

/-- The pending messages, the oldest first. -/
def Repeater.pending (z : Repeater α) : List (Nat × RepeaterNode α) := z.list.items

/-- What a pass leaves of a message. -/
def RepeaterNode.pass (iTimeOut : Int) (stNow : Timeval) (nd : RepeaterNode α) :
    Option (RepeaterNode α) :=
  if timedOut iTimeOut stNow nd.stTimestamp then
    if nd.iResendCount = 0 then none
    else if 0 < nd.iResendCount then some (nd.again stNow)
    else some nd
  else some nd

/-- The messages a pass leaves. -/
def passed (iTimeOut : Int) (stNow : Timeval) (xs : List (Nat × RepeaterNode α)) :
    List (Nat × RepeaterNode α) :=
  xs.filterMap fun q => (q.2.pass iTimeOut stNow).map fun nd => (q.1, nd)

/-- The messages a pass sends again. -/
def resent (iTimeOut : Int) (stNow : Timeval) (xs : List (Nat × RepeaterNode α)) :
    List (RepeaterOut α) :=
  (xs.filter fun q => timedOut iTimeOut stNow q.2.stTimestamp && decide (0 < q.2.iResendCount)).map
    fun q => .resend q.1 q.2.aucData q.2.iDataLen

/-- How often the message of a block was sent again. -/
def resends (p : Nat) : List (RepeaterOut α) → Nat
  | [] => 0
  | .resend q _ _ :: os => (if q = p then 1 else 0) + resends p os
  | .sendData _ _ _ :: os => resends p os
  | .ret _ :: os => resends p os

/-- What is to happen to the messages that wait, of which the next is called `f`: a message that
is pushed goes behind the others, a response takes the oldest it matches, and a pass sends again
and drops. -/
def serve (pDataMatchingCb : α → ρ → Bool) (iTimeOut iMaxResend : Int) (f : Nat)
    (xs : List (Nat × RepeaterNode α)) :
    RepeaterAct α ρ → (Nat × List (Nat × RepeaterNode α)) × List (RepeaterOut α)
  | .sendPush iSendFlag pData iDataLen stNow mem =>
    if iDataLen ≤ 0 then ((f, xs), [.ret .paraErr])
    else if mem then
      ((f + 1, xs ++ [(f, ⟨stNow, iMaxResend, iSendFlag, iDataLen, pData⟩)]), [.ret .noErr])
    else ((f, xs), [.ret .listInsertErr])
  | .respondPush pRecvData iRecvDataLen iSendDataLen =>
    if iRecvDataLen ≤ 0 ∨ iSendDataLen ≤ 0 then ((f, xs), [.ret .paraErr])
    else
      match xs.find? fun q => pDataMatchingCb q.2.aucData pRecvData with
      | none => ((f, xs), [.ret .notFoundErr])
      | some q => ((f, xs.eraseP fun q => pDataMatchingCb q.2.aucData pRecvData),
          [.sendData q.1 q.2.aucData (min iSendDataLen q.2.iDataLen), .ret .noErr])
  | .manage stNow => ((f, passed iTimeOut stNow xs), resent iTimeOut stNow xs)

/-- A step serves the messages that wait, and `iLen` is their number. -/
structure Repeater.Served (pDataMatchingCb : α → ρ → Bool) (z : Repeater α) (a : RepeaterAct α ρ)
    (z' : Repeater α) (os : List (RepeaterOut α)) : Prop where
  serve : ((z'.list.fresh, z'.pending), os) =
    serve pDataMatchingCb z.iTimeOut z.iMaxResend z.list.fresh z.pending a
  iLen : z'.iLen = z'.pending.length

/-! ## The links -/

/-- The repeater is well formed, with these settings, and its list stands for `xs`. -/
structure Repeater.Stands (t n : Int) (f : Nat) (xs : List (Nat × RepeaterNode α))
    (z : Repeater α) : Prop where
  holds : z.list.Holds xs
  iLen : z.iLen = xs.length
  fresh : z.list.fresh = f
  iTimeOut : z.iTimeOut = t
  iMaxResend : z.iMaxResend = n

namespace Repeater.Stands

variable {t n : Int} {f : Nat} {xs : List (Nat × RepeaterNode α)} {z : Repeater α}

theorem pending (hz : z.Stands t n f xs) : z.pending = xs := hz.holds.items_eq

theorem of_new {t n : Int} (h : newDataRepeater t n = some z) : z.Stands t n 0 [] := by
  rw [newDataRepeater] at h
  split at h
  · cases h
  · obtain rfl := some.inj h
    exact ⟨DoubleList.holds_empty, rfl, rfl, rfl, rfl⟩

theorem tailInsert (hz : z.Stands t n f xs) (iSendFlag : Int) (pData : α) (iDataLen : Int)
    (stNow : Timeval) :
    ∃ z', dataRepeaterLinkListTailInsert z iSendFlag pData iDataLen stNow = some z' ∧
      z'.Stands t n (f + 1) (xs ++ [(f, ⟨stNow, n, iSendFlag, iDataLen, pData⟩)]) := by
  obtain ⟨list, hlist, hfresh, hholds⟩ :=
    hz.holds.tailInsert ⟨stNow, z.iMaxResend, iSendFlag, iDataLen, pData⟩
  rw [hz.fresh, hz.iMaxResend] at hholds
  refine ⟨{ z with list := list, iLen := z.iLen + 1 }, ?_, hholds, ?_, ?_, hz.iTimeOut,
    hz.iMaxResend⟩
  · rw [dataRepeaterLinkListTailInsert, hlist]
    rfl
  · rw [hz.iLen, length_append, length_singleton]
    rfl
  · rw [hfresh, hz.fresh]

theorem del {as bs : List (Nat × RepeaterNode α)} {p : Nat} {nd : RepeaterNode α}
    (hz : z.Stands t n f (as ++ (p, nd) :: bs)) :
    ∃ z', dataRepeaterLinkListDel z p = some z' ∧ z'.Stands t n f (as ++ bs) := by
  obtain ⟨list, hlist, hfresh, hholds⟩ := hz.holds.del
  refine ⟨{ z with list := list, iLen := z.iLen - 1 }, ?_, hholds, ?_, hfresh.trans hz.fresh,
    hz.iTimeOut, hz.iMaxResend⟩
  · rw [dataRepeaterLinkListDel, hlist]
    rfl
  · show z.iLen - 1 = _
    rw [hz.iLen, length_append, length_append, length_cons]
    omega

/-- The walk of a pass, from a message on: those before it are done. -/
theorem manageFrom {as bs : List (Nat × RepeaterNode α)} {k : Nat} (stNow : Timeval)
    (hz : z.Stands t n f (as ++ bs)) (hk : bs.length ≤ k) :
    ∃ z', dataRepeaterManageFrom stNow k (DoubleList.firstOr none bs) z =
        some (z', resent t stNow bs) ∧ z'.Stands t n f (as ++ passed t stNow bs) := by
  induction bs generalizing as z k with
  | nil =>
    refine ⟨z, ?_, hz⟩
    cases k <;> rfl
  | cons q bs ih =>
    obtain ⟨p, nd⟩ := q
    obtain _ | k := k
    · cases hk
    have hk : bs.length ≤ k := Nat.le_of_succ_le_succ hk
    -- a message that stays as it is counts as done
    have hkeep (hpass : nd.pass t stNow = some nd)
        (hnot : (timedOut t stNow nd.stTimestamp && decide (0 < nd.iResendCount)) = false) :
        ∃ z', dataRepeaterManageFrom stNow k (DoubleList.firstOr none bs) z =
            some (z', resent t stNow ((p, nd) :: bs)) ∧
          z'.Stands t n f (as ++ passed t stNow ((p, nd) :: bs)) := by
      have hz₁ : z.Stands t n f ((as ++ [(p, nd)]) ++ bs) := by
        rwa [append_assoc, singleton_append]
      obtain ⟨z', hrun, hz'⟩ := ih hz₁ hk
      refine ⟨z', ?_, ?_⟩
      · rw [hrun, resent, resent, filter_cons_of_neg (by rw [hnot]; exact Bool.false_ne_true)]
      · rw [passed, filterMap_cons_some (b := (p, nd)) (by rw [hpass]; rfl)]
        rwa [append_assoc, singleton_append] at hz'
    rw [DoubleList.firstOr_cons, dataRepeaterManageFrom, hz.holds.heap_eq]
    by_cases hout : timedOut t stNow nd.stTimestamp = true
    · have hout' : timedOut z.iTimeOut stNow nd.stTimestamp = true := by rw [hz.iTimeOut, hout]
      simp only [bind_eq_bind, bind_some, if_pos hout']
      by_cases hzero : nd.iResendCount = 0
      · obtain ⟨z₁, hdel, hz₁⟩ := hz.del
        obtain ⟨z', hrun, hz'⟩ := ih hz₁ hk
        have hpass : nd.pass t stNow = none := by
          rw [RepeaterNode.pass, if_pos hout, if_pos hzero]
        have hnot : ¬ (0 : Int) < nd.iResendCount := by omega
        refine ⟨z', ?_, ?_⟩
        · rw [if_pos hzero, hdel, bind_some, hrun, resent, resent, filter_cons_of_neg]
          simp [hnot]
        · rwa [passed, filterMap_cons_none (by rw [hpass]; rfl)]
      · rw [if_neg hzero]
        by_cases hpos : 0 < nd.iResendCount
        · obtain ⟨list, hlist, hfresh, hholds⟩ := hz.holds.modify (RepeaterNode.again stNow)
          have hz₁ : ({ z with list := list } : Repeater α).Stands t n f
              ((as ++ [(p, nd.again stNow)]) ++ bs) := by
            refine ⟨?_, ?_, hfresh.trans hz.fresh, hz.iTimeOut, hz.iMaxResend⟩
            · rwa [append_assoc, singleton_append]
            · show z.iLen = _
              rw [hz.iLen]
              simp
          obtain ⟨z', hrun, hz'⟩ := ih hz₁ hk
          have hpass : nd.pass t stNow = some (nd.again stNow) := by
            rw [RepeaterNode.pass, if_pos hout, if_neg hzero, if_pos hpos]
          refine ⟨z', ?_, ?_⟩
          · rw [if_pos hpos, hlist, bind_some, hholds.next_some, bind_some, hrun,
              bind_some, resent, resent, filter_cons_of_pos, map_cons,
              Option.pure_def]
            simp [hout, hpos]
          · rw [passed, filterMap_cons_some (b := (p, nd.again stNow)) (by rw [hpass]; rfl)]
            rwa [append_assoc, singleton_append] at hz'
        · rw [if_neg hpos]
          refine hkeep ?_ (by rw [decide_eq_false hpos, Bool.and_false])
          rw [RepeaterNode.pass, if_pos hout, if_neg hzero, if_neg hpos]
    · have hout' : ¬ timedOut z.iTimeOut stNow nd.stTimestamp = true := by rwa [hz.iTimeOut]
      simp only [bind_eq_bind, bind_some, if_neg hout']
      refine hkeep (by rw [RepeaterNode.pass, if_neg hout]) ?_
      rw [Bool.eq_false_iff.mpr hout, Bool.false_and]

theorem manage (hz : z.Stands t n f xs) (stNow : Timeval) :
    ∃ z', dataRepeaterManage z stNow = some (z', resent t stNow xs) ∧
      z'.Stands t n f (passed t stNow xs) := by
  rw [dataRepeaterManage]
  by_cases hlen : z.iLen = 0
  · have hnil : xs = [] := by
      rw [hz.iLen] at hlen
      exact eq_nil_of_length_eq_zero (Int.ofNat.inj hlen)
    subst hnil
    rw [if_pos hlen]
    exact ⟨z, rfl, hz⟩
  · rw [if_neg hlen, hz.holds.head]
    have hz' : z.Stands t n f ([] ++ xs) := hz
    exact manageFrom stNow hz' hz.holds.length_le

theorem respondPush (hz : z.Stands t n f xs) (pDataMatchingCb : α → ρ → Bool) (pRecvData : ρ)
    {iRecvDataLen iSendDataLen : Int} (hlen : ¬ (iRecvDataLen ≤ 0 ∨ iSendDataLen ≤ 0)) :
    ∃ z' os, dataRepeaterRespondPush pDataMatchingCb z pRecvData iRecvDataLen iSendDataLen =
        some (z', os) ∧
      match xs.find? fun q => pDataMatchingCb q.2.aucData pRecvData with
      | none => z'.Stands t n f xs ∧ os = [.ret .notFoundErr]
      | some q =>
        z'.Stands t n f (xs.eraseP fun q => pDataMatchingCb q.2.aucData pRecvData) ∧
          os = [.sendData q.1 q.2.aucData (min iSendDataLen q.2.iDataLen), .ret .noErr] := by
  rw [dataRepeaterRespondPush, if_neg hlen]
  by_cases hzero : z.iLen = 0
  · have hnil : xs = [] := by
      rw [hz.iLen] at hzero
      exact eq_nil_of_length_eq_zero (Int.ofNat.inj hzero)
    subst hnil
    rw [if_pos hzero]
    exact ⟨z, _, rfl, hz, rfl⟩
  · rw [if_neg hzero, hz.holds.find]
    cases hfind : xs.find? fun q => pDataMatchingCb q.2.aucData pRecvData with
    | none => exact ⟨z, _, rfl, hz, rfl⟩
    | some q =>
      obtain ⟨p, nd⟩ := q
      obtain ⟨hmatch, as, bs, rfl, has⟩ := find?_eq_some_iff_append.mp hfind
      obtain ⟨z', hdel, hz'⟩ := hz.del
      have hdata : z.list.data p = some nd := by
        rw [DoubleList.data, hz.holds.heap_eq, map_some]
      have hnot : ∀ r ∈ as, ¬ pDataMatchingCb r.2.aucData pRecvData = true := fun r hr h => by
        have hr := has r hr
        rw [h] at hr
        cases hr
      refine ⟨z', [.sendData p nd.aucData (min iSendDataLen nd.iDataLen), .ret .noErr], ?_, ?_, rfl⟩
      · simp only [map_some, bind_eq_bind, bind_some, hdata, hdel,
          Option.pure_def]
        rw [Int.min_comm, Int.min_def]
      · rw [eraseP_append_right _ hnot, eraseP_cons_of_pos
          (p := fun q : Nat × RepeaterNode α => pDataMatchingCb q.2.aucData pRecvData) hmatch]
        exact hz'

/-- Every step goes through and does what is to happen to the messages that wait. -/
theorem step (hz : z.Stands t n f xs) (pDataMatchingCb : α → ρ → Bool) (a : RepeaterAct α ρ) :
    ∃ z', z.step pDataMatchingCb a = some (z', (serve pDataMatchingCb t n f xs a).2) ∧
      z'.Stands t n (serve pDataMatchingCb t n f xs a).1.1
        (serve pDataMatchingCb t n f xs a).1.2 := by
  cases a with
  | sendPush iSendFlag pData iDataLen stNow mem =>
    rw [Repeater.step, dataRepeaterSendPush, serve]
    by_cases hlen : iDataLen ≤ 0
    · simp only [if_pos hlen]
      exact ⟨z, rfl, hz⟩
    · simp only [if_neg hlen]
      cases mem with
      | false => exact ⟨z, rfl, hz⟩
      | true =>
        obtain ⟨z', hins, hz'⟩ := hz.tailInsert iSendFlag pData iDataLen stNow
        refine ⟨z', ?_, hz'⟩
        rw [if_pos rfl, hins]
        rfl
  | respondPush pRecvData iRecvDataLen iSendDataLen =>
    rw [Repeater.step, serve]
    by_cases hlen : iRecvDataLen ≤ 0 ∨ iSendDataLen ≤ 0
    · rw [dataRepeaterRespondPush]
      simp only [if_pos hlen]
      exact ⟨z, rfl, hz⟩
    · obtain ⟨z', os, hstep, h⟩ := hz.respondPush pDataMatchingCb pRecvData hlen
      rw [hstep]
      simp only [if_neg hlen]
      cases hfind : xs.find? fun q => pDataMatchingCb q.2.aucData pRecvData with
      | none =>
        rw [hfind] at h
        exact ⟨z', by rw [h.2], h.1⟩
      | some q =>
        rw [hfind] at h
        exact ⟨z', by rw [h.2], h.1⟩
  | manage stNow => exact hz.manage stNow

theorem served (hz : z.Stands t n f xs) {pDataMatchingCb : α → ρ → Bool} {a : RepeaterAct α ρ}
    {z' : Repeater α} {os : List (RepeaterOut α)} (h : z.step pDataMatchingCb a = some (z', os)) :
    z.Served pDataMatchingCb a z' os := by
  obtain ⟨z₁, hstep, hz₁⟩ := hz.step pDataMatchingCb a
  obtain ⟨rfl, rfl⟩ := Prod.mk.inj (some.inj (hstep.symm.trans h))
  refine ⟨?_, ?_⟩
  · rw [hz₁.pending, hz₁.fresh, hz.iTimeOut, hz.iMaxResend, hz.fresh, hz.pending]
  · rw [hz₁.iLen, hz₁.pending]

end Repeater.Stands

/-! ## Counting -/

section

variable {t n : Int} {f p : Nat} {xs : List (Nat × RepeaterNode α)} {stNow : Timeval}

@[simp] theorem resends_append (p : Nat) (os os' : List (RepeaterOut α)) :
    resends p (os ++ os') = resends p os + resends p os' := by
  induction os with
  | nil => exact (Nat.zero_add _).symm
  | cons o os ih =>
    cases o with
    | resend q pData iDataLen =>
      rw [cons_append, resends, resends, ih, Nat.add_assoc]
    | sendData q pSendData iSendDataLen => exact ih
    | ret iRet => exact ih

theorem resends_resent_of_notMem (hp : p ∉ xs.map Prod.fst) :
    resends p (resent t stNow xs) = 0 := by
  induction xs with
  | nil => rfl
  | cons q xs ih =>
    obtain ⟨hq, hxs⟩ := ne_and_not_mem_of_not_mem_cons hp
    rw [resent, filter_cons]
    split
    · rw [map_cons, resends, if_neg (Ne.symm hq), Nat.zero_add]
      exact ih hxs
    · exact ih hxs

theorem resends_resent {q : Nat × RepeaterNode α} (hnodup : (xs.map Prod.fst).Nodup) (hq : q ∈ xs) :
    resends q.1 (resent t stNow xs) =
      if timedOut t stNow q.2.stTimestamp && decide (0 < q.2.iResendCount) then 1 else 0 := by
  induction xs with
  | nil => cases hq
  | cons r xs ih =>
    obtain ⟨hr, hnodup⟩ := nodup_cons.mp hnodup
    rw [resent, filter_cons]
    rcases mem_cons.mp hq with rfl | hq
    · have hrest : resends _ (resent t stNow xs) = 0 := resends_resent_of_notMem hr
      split
      · rw [map_cons, resends, if_pos rfl]
        exact congrArg (1 + ·) hrest
      · exact hrest
    · have hne : r.1 ≠ q.1 := fun h => hr (h ▸ List.mem_map_of_mem hq)
      split
      · rw [map_cons, resends, if_neg hne, Nat.zero_add]
        exact ih hnodup hq
      · exact ih hnodup hq

theorem mem_passed {q : Nat × RepeaterNode α} :
    q ∈ passed t stNow xs ↔ ∃ nd, (q.1, nd) ∈ xs ∧ nd.pass t stNow = some q.2 := by
  rw [passed, mem_filterMap]
  constructor
  · rintro ⟨r, hr, heq⟩
    obtain ⟨nd, hnd, rfl⟩ := map_eq_some_iff.mp heq
    exact ⟨r.2, hr, hnd⟩
  · rintro ⟨nd, hnd, hpass⟩
    exact ⟨(q.1, nd), hnd, by rw [hpass]; rfl⟩

/-- What a message has been sent again and what it has left add up to the same after a pass. -/
theorem RepeaterNode.count_pass {nd nd' : RepeaterNode α} (h : nd.pass t stNow = some nd')
    (hnd : 0 ≤ nd.iResendCount) :
    ((if timedOut t stNow nd.stTimestamp && decide (0 < nd.iResendCount) then 1 else 0 : Nat) :
      Int) +
        nd'.iResendCount = nd.iResendCount ∧ 0 ≤ nd'.iResendCount := by
  rw [RepeaterNode.pass] at h
  by_cases hout : timedOut t stNow nd.stTimestamp = true
  · rw [if_pos hout] at h
    by_cases hzero : nd.iResendCount = 0
    · rw [if_pos hzero] at h
      cases h
    · have hpos : 0 < nd.iResendCount := by omega
      rw [if_neg hzero, if_pos hpos] at h
      obtain rfl := some.inj h
      rw [if_pos (by rw [hout, decide_eq_true hpos]; rfl)]
      refine ⟨?_, ?_⟩
      · show ((1 : Nat) : Int) + (nd.iResendCount - 1) = nd.iResendCount
        omega
      · show 0 ≤ nd.iResendCount - 1
        omega
  · rw [if_neg hout] at h
    obtain rfl := some.inj h
    rw [if_neg (by rw [Bool.eq_false_iff.mpr hout, Bool.false_and]; exact Bool.false_ne_true)]
    exact ⟨Int.zero_add _, hnd⟩

/-- After what `log` says, every message that waits has the tries left it has not used, and no
message has used more than there are. -/
structure Bounded (n : Int) (f : Nat) (xs : List (Nat × RepeaterNode α))
    (log : List (RepeaterOut α)) : Prop where
  nodup : (xs.map Prod.fst).Nodup
  lt : ∀ q ∈ xs, q.1 < f
  left : ∀ q ∈ xs, (resends q.1 log : Int) + q.2.iResendCount = n ∧ 0 ≤ q.2.iResendCount
  bound : ∀ p, (resends p log : Int) ≤ n
  unborn : ∀ p, f ≤ p → resends p log = 0

variable {log : List (RepeaterOut α)}

theorem Bounded.quiet {ys : List (Nat × RepeaterNode α)} {os : List (RepeaterOut α)}
    (h : Bounded n f xs log) (hys : ys.Sublist xs) (hos : ∀ p, resends p os = 0) :
    Bounded n f ys (log ++ os) where
  nodup := h.nodup.sublist (hys.map _)
  lt q hq := h.lt q (hys.subset hq)
  left q hq := by
    rw [resends_append, hos, Nat.add_zero]
    exact h.left q (hys.subset hq)
  bound p := by
    rw [resends_append, hos, Nat.add_zero]
    exact h.bound p
  unborn p hp := by
    rw [resends_append, hos, Nat.add_zero]
    exact h.unborn p hp

theorem Bounded.push (h : Bounded n f xs log) (hn : 0 ≤ n) (nd : RepeaterNode α)
    (hnd : nd.iResendCount = n) : Bounded n (f + 1) (xs ++ [(f, nd)]) log where
  nodup := by
    rw [map_append, nodup_append]
    refine ⟨h.nodup, nodup_singleton _, ?_⟩
    rintro p hp q hq rfl
    obtain ⟨r, hr, rfl⟩ := List.mem_map.mp hp
    exact absurd (mem_singleton.mp hq) (Nat.ne_of_lt (h.lt r hr))
  lt q hq := by
    rcases mem_append.mp hq with hq | hq
    · exact Nat.lt_succ_of_lt (h.lt q hq)
    · rw [mem_singleton.mp hq]
      exact Nat.lt_succ_self f
  left q hq := by
    rcases mem_append.mp hq with hq | hq
    · exact h.left q hq
    · rw [mem_singleton.mp hq, h.unborn f (Nat.le_refl f), hnd]
      exact ⟨Int.zero_add n, hn⟩
  bound := h.bound
  unborn p hp := h.unborn p (Nat.le_of_succ_le hp)

theorem passed_keys_sublist (t : Int) (stNow : Timeval) (xs : List (Nat × RepeaterNode α)) :
    ((passed t stNow xs).map Prod.fst).Sublist (xs.map Prod.fst) := by
  induction xs with
  | nil => exact List.Sublist.refl _
  | cons q xs ih =>
    rw [passed, filterMap_cons]
    cases hpass : q.2.pass t stNow with
    | none => exact ih.cons q.1
    | some nd => exact ih.cons_cons q.1

theorem Bounded.manage (h : Bounded n f xs log) (stNow : Timeval) :
    Bounded n f (passed t stNow xs) (log ++ resent t stNow xs) where
  nodup := h.nodup.sublist (passed_keys_sublist t stNow xs)
  lt q hq := by
    obtain ⟨nd, hnd, -⟩ := mem_passed.mp hq
    exact h.lt (q.1, nd) hnd
  left q hq := by
    obtain ⟨nd, hnd, hpass⟩ := mem_passed.mp hq
    have hleft : (resends q.1 log : Int) + nd.iResendCount = n ∧ 0 ≤ nd.iResendCount := h.left _ hnd
    obtain ⟨hcount, hpos⟩ := RepeaterNode.count_pass hpass hleft.2
    have hagain : resends q.1 (resent t stNow xs) =
        if timedOut t stNow nd.stTimestamp && decide (0 < nd.iResendCount) then 1 else 0 :=
      resends_resent h.nodup hnd
    refine ⟨?_, hpos⟩
    rw [resends_append, hagain, Int.natCast_add, Int.add_assoc, hcount]
    exact hleft.1
  bound p := by
    rw [resends_append]
    by_cases hp : p ∈ xs.map Prod.fst
    · obtain ⟨q, hq, rfl⟩ := List.mem_map.mp hp
      obtain ⟨hsum, hpos⟩ := h.left q hq
      rw [resends_resent h.nodup hq]
      split
      · rename_i hdue
        have htry : 0 < q.2.iResendCount := of_decide_eq_true (Bool.and_eq_true_iff.mp hdue).2
        push_cast
        omega
      · push_cast
        omega
    · rw [resends_resent_of_notMem hp]
      exact h.bound p
  unborn p hp := by
    have hnot : p ∉ xs.map Prod.fst := fun hmem => by
      obtain ⟨q, hq, rfl⟩ := List.mem_map.mp hmem
      exact absurd (h.lt q hq) (Nat.not_lt.mpr hp)
    rw [resends_append, resends_resent_of_notMem hnot]
    exact h.unborn p hp

theorem Bounded.serve (hn : 0 ≤ n) (pDataMatchingCb : α → ρ → Bool) (h : Bounded n f xs log)
    (a : RepeaterAct α ρ) :
    Bounded n (Sessions.serve pDataMatchingCb t n f xs a).1.1
      (Sessions.serve pDataMatchingCb t n f xs a).1.2
      (log ++ (Sessions.serve pDataMatchingCb t n f xs a).2) := by
  cases a with
  | sendPush iSendFlag pData iDataLen stNow mem =>
    rw [Sessions.serve]
    split
    · exact h.quiet (List.Sublist.refl xs) fun _ => rfl
    split
    · have hquiet : Bounded n f xs (log ++ [.ret .noErr]) :=
        h.quiet (List.Sublist.refl xs) fun _ => rfl
      exact hquiet.push hn ⟨stNow, n, iSendFlag, iDataLen, pData⟩ rfl
    · exact h.quiet (List.Sublist.refl xs) fun _ => rfl
  | respondPush pRecvData iRecvDataLen iSendDataLen =>
    rw [Sessions.serve]
    split
    · exact h.quiet (List.Sublist.refl xs) fun _ => rfl
    · cases hfind : xs.find? fun q => pDataMatchingCb q.2.aucData pRecvData with
      | none => exact h.quiet (List.Sublist.refl xs) fun _ => rfl
      | some q => exact h.quiet eraseP_sublist fun _ => rfl
  | manage stNow => exact h.manage stNow

/-- A message that does not wait is not sent again, and does not come back. -/
theorem serve_of_notMem (pDataMatchingCb : α → ρ → Bool) {p : Nat} (hp : p < f)
    (hnot : p ∉ xs.map Prod.fst) (a : RepeaterAct α ρ) :
    p < (serve pDataMatchingCb t n f xs a).1.1 ∧
      p ∉ (serve pDataMatchingCb t n f xs a).1.2.map Prod.fst ∧
      resends p (serve pDataMatchingCb t n f xs a).2 = 0 := by
  cases a with
  | sendPush iSendFlag pData iDataLen stNow mem =>
    rw [serve]
    split
    · exact ⟨hp, hnot, rfl⟩
    split
    · refine ⟨Nat.lt_succ_of_lt hp, ?_, rfl⟩
      rw [map_append, mem_append, map_singleton, mem_singleton]
      rintro (hmem | rfl)
      · exact hnot hmem
      · exact Nat.lt_irrefl _ hp
    · exact ⟨hp, hnot, rfl⟩
  | respondPush pRecvData iRecvDataLen iSendDataLen =>
    rw [serve]
    split
    · exact ⟨hp, hnot, rfl⟩
    · cases hfind : xs.find? fun q => pDataMatchingCb q.2.aucData pRecvData with
      | none => exact ⟨hp, hnot, rfl⟩
      | some q =>
        refine ⟨hp, fun hmem => hnot ?_, rfl⟩
        exact (eraseP_sublist.map Prod.fst).subset hmem
  | manage stNow =>
    exact ⟨hp, fun hmem => hnot ((passed_keys_sublist t stNow xs).subset hmem),
      resends_resent_of_notMem hnot⟩

end

/-! ## Runs -/

section

variable {t n : Int} {pDataMatchingCb : α → ρ → Bool} {z : Repeater α}

/-- What the steps of a run rely on. -/
def Repeater.Counted (t n : Int) (z : Repeater α) (log : List (RepeaterOut α)) : Prop :=
  ∃ f xs, z.Stands t n f xs ∧ Bounded n f xs log

theorem Repeater.Counted.step {log : List (RepeaterOut α)} (hz : z.Counted t n log) (hn : 0 ≤ n)
    (a : RepeaterAct α ρ) :
    ∃ z' os, z.step pDataMatchingCb a = some (z', os) ∧ z'.Counted t n (log ++ os) := by
  obtain ⟨f, xs, hstands, hbounded⟩ := hz
  obtain ⟨z', hstep, hstands'⟩ := hstands.step pDataMatchingCb a
  exact ⟨z', _, hstep, _, _, hstands', hbounded.serve hn pDataMatchingCb a⟩

/-- The message of `p` was pushed, and waits no more. -/
def Repeater.Gone (t n : Int) (p : Nat) (z : Repeater α) : Prop :=
  ∃ f xs, z.Stands t n f xs ∧ p < f ∧ p ∉ xs.map Prod.fst

theorem Repeater.Gone.run {p : Nat} {acts : List (RepeaterAct α ρ)} {z' : Repeater α}
    {os : List (RepeaterOut α)} (hz : z.Gone t n p)
    (h : Run.run (Repeater.step pDataMatchingCb) z acts = some (z', os)) : resends p os = 0 := by
  have hkeep : z'.Gone t n p ∧ resends p ([] ++ os) = 0 := by
    refine Run.run_invariant (P := fun _ _ => True)
      (I := fun z log => z.Gone t n p ∧ resends p log = 0)
      ?_ (show z.Gone t n p ∧ resends p [] = 0 from ⟨hz, rfl⟩)
      (Run.along_of_forall (P := fun _ => True) (fun _ _ => trivial) z) h
    rintro z log a z₁ o ⟨⟨f, xs, hstands, hp, hnot⟩, hlog⟩ - hstep
    obtain ⟨z₂, hstep₂, hstands₂⟩ := hstands.step pDataMatchingCb a
    obtain ⟨rfl, rfl⟩ := Prod.mk.inj (some.inj (hstep₂.symm.trans hstep))
    obtain ⟨hp', hnot', hquiet⟩ := serve_of_notMem (t := t) (n := n) pDataMatchingCb hp hnot a
    exact ⟨⟨_, _, hstands₂, hp', hnot'⟩, by rw [resends_append, hlog, hquiet]⟩
  exact hkeep.2

end

/-- From a new repeater every run goes through; each step serves the pending messages in order and
`iLen` counts them; no message is sent again more often than the repeater allows, and none once it
was matched or dropped. -/
theorem repeater_bounded {iTimeOut iMaxResend : Int} {z₀ : Repeater α}
    (hnew : newDataRepeater iTimeOut iMaxResend = some z₀) (pDataMatchingCb : α → ρ → Bool)
    (acts : List (RepeaterAct α ρ)) :
    ∃ z os, Run.run (Repeater.step pDataMatchingCb) z₀ acts = some (z, os) ∧
      Run.Along (Repeater.step pDataMatchingCb) (fun z a =>
        ∃ z' os, z.step pDataMatchingCb a = some (z', os) ∧ z.Served pDataMatchingCb a z' os)
        z₀ acts ∧
      (∀ p, (resends p os : Int) ≤ iMaxResend) ∧
      ∀ as bs z₁ os₁ os₂, acts = as ++ bs →
        Run.run (Repeater.step pDataMatchingCb) z₀ as = some (z₁, os₁) →
        Run.run (Repeater.step pDataMatchingCb) z₁ bs = some (z, os₂) →
        ∀ p < z₁.list.fresh, p ∉ z₁.pending.map Prod.fst → resends p os₂ = 0 := by
  have hn : 0 ≤ iMaxResend := by
    rw [newDataRepeater] at hnew
    split at hnew
    · cases hnew
    · omega
  have hz₀ : z₀.Counted iTimeOut iMaxResend [] :=
    ⟨0, [], .of_new hnew, nodup_nil, by simp, by simp, fun _ => hn, fun _ _ => rfl⟩
  have hstep : ∀ (z : Repeater α) log a, z.Counted iTimeOut iMaxResend log → True →
      ∃ z' o, z.step pDataMatchingCb a = some (z', o) ∧
        z'.Counted iTimeOut iMaxResend (log ++ o) := fun z log a hz _ => hz.step hn a
  have hall (z : Repeater α) (as : List (RepeaterAct α ρ)) :
      Run.Along (Repeater.step pDataMatchingCb) (fun _ _ => True) z as :=
    Run.along_of_forall (P := fun _ => True) (fun _ _ => trivial) z
  obtain ⟨z, os, hrun, f, xs, -, hbounded⟩ := Run.run_progress hstep hz₀ (hall z₀ acts)
  refine ⟨z, os, hrun, ?_, hbounded.bound, ?_⟩
  · refine (Run.along_iff_along_of (C := fun _ _ => True)
      (R := fun z => ∃ log, z.Counted iTimeOut iMaxResend log) ?_ ?_ ⟨[], hz₀⟩
      (hall z₀ acts)).mpr (hall z₀ acts)
    · rintro z a ⟨log, f, xs, hstands, hbounded⟩ -
      obtain ⟨z', hs, -⟩ := hstands.step pDataMatchingCb a
      exact iff_true_intro ⟨z', _, hs, hstands.served hs⟩
    · rintro z a z' o ⟨log, hz⟩ - - hs
      obtain ⟨z₁, o₁, hs₁, hz₁⟩ := hstep z log a hz trivial
      obtain ⟨rfl, rfl⟩ := Prod.mk.inj (some.inj (hs₁.symm.trans hs))
      exact ⟨_, hz₁⟩
  · intro as bs z₁ os₁ os₂ _ hrun₁ hrun₂ p hp hnot
    obtain ⟨z₂, os', hrun', f, xs, hstands, -⟩ := Run.run_progress hstep hz₀ (hall z₀ as)
    obtain ⟨rfl, -⟩ := Prod.mk.inj (some.inj (hrun'.symm.trans hrun₁))
    rw [hstands.pending] at hnot
    exact Repeater.Gone.run ⟨f, xs, hstands, hstands.fresh ▸ hp, hnot⟩ hrun₂

/-- A message that is sent again once, and then dropped. -/
theorem repeater_bounded_dropped :
    ∃ z os, Run.run (Repeater.step fun d r : Nat => d == r) ⟨.empty, 0, 1000, 1⟩
        [.sendPush 0 7 1 ⟨0, 0⟩ true, .manage ⟨1, 0⟩, .manage ⟨2, 0⟩, .respondPush 7 1 1] =
          some (z, os) ∧
      Run.Along (Repeater.step fun d r : Nat => d == r) (fun z a =>
        ∃ z' os, z.step (fun d r : Nat => d == r) a = some (z', os) ∧
          z.Served (fun d r : Nat => d == r) a z' os) ⟨.empty, 0, 1000, 1⟩
        [.sendPush 0 7 1 ⟨0, 0⟩ true, .manage ⟨1, 0⟩, .manage ⟨2, 0⟩, .respondPush 7 1 1] ∧
      (∀ p, (resends p os : Int) ≤ 1) ∧
      ∀ as bs z₁ os₁ os₂,
        [.sendPush 0 7 1 ⟨0, 0⟩ true, .manage ⟨1, 0⟩, .manage ⟨2, 0⟩, .respondPush 7 1 1] =
          as ++ bs →
        Run.run (Repeater.step fun d r : Nat => d == r) ⟨.empty, 0, 1000, 1⟩ as = some (z₁, os₁) →
        Run.run (Repeater.step fun d r : Nat => d == r) z₁ bs = some (z, os₂) →
        ∀ p < z₁.list.fresh, p ∉ z₁.pending.map Prod.fst → resends p os₂ = 0 :=
  repeater_bounded (show newDataRepeater 1000 1 = some _ from rfl) _ _

end Honyar.Sessions
