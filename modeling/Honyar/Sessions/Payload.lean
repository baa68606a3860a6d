import Honyar.Lib.Custody
import Honyar.Sessions.Repeater
import Honyar.Sessions.Types

/-!
# The payload of a message

What becomes of `pProcessedData` between the send queue and the end of a message: the send loop
of `session_sys_exec`, the receive path, the passes of the repeaters and their end.  A payload gets
a token when its message is taken from the queue.

A message that is written and does not wait for a response, and one that a response takes out,
have their payload released.  A message without a session, one that is not written, and one that
is given up do not; and the callback for those that wait when a repeater is destroyed is called
with other arguments than it takes.
-/

namespace Honyar.Sessions

open Option List

/-- `session_data_t`, as far as the loop and the repeater use it. -/
structure SessionData where
  iSessionType : SessionType
  iSessionId : Id
  iSync : Int
  iResend : Int
  /-- The token of the payload; `none` is `NULL`. -/
  pProcessedData : Option Nat
  iDataLen : Int
  aucData : List UInt8

/-- `sizeof(session_data_t)`, with pointers of four bytes. -/
def sizeofSessionData : Int := 2084

/-- What the loop reads and writes of a `session_conf_t`. -/
structure Sending where
  iActiveFlag : Bool
  pstDataRepeater : Option (Repeater SessionData)
  pRespondMatchingCb : Option (SessionData → SessionData → Bool)

/-- The sessions by their ids, the number of payloads taken from the queue, and the payloads
`base_free` was called with. -/
structure SendLoop where
  sessions : Id → Option Sending
  tokens : Nat
  freed : List Nat

/-- What is done besides. -/
inductive LoopOut where
  | resend (pData : SessionData)
  /-- `__session_report_session_data`. -/
  | report (pstData : SessionData)
  /-- A push to `pstSyncRecvMsgQueue`. -/
  | syncRecv (pstData : SessionData)

/-- The repeater a message that was written goes to. -/
def Sending.repeats (s : Sending) (d : SessionData) : Option (Repeater SessionData) :=
  if d.iResend = 1 ∧ s.pRespondMatchingCb.isSome then s.pstDataRepeater else none

/-- The message the repeater sends again. -/
def RepeaterOut.resent? : RepeaterOut SessionData → Option LoopOut
  | .resend _ pData _ => some (.resend pData)
  | .sendData _ _ _ | .ret _ => none

/-- What `respondPush` returned. -/
def returned? : List (RepeaterOut SessionData) → Option SessionData
  | [] => none
  | .sendData _ pSendData _ :: _ => some pSendData
  | .resend _ _ _ :: os => returned? os
  | .ret _ :: os => returned? os

/-- Where the response to a message goes. -/
def SessionData.answered (d pstData : SessionData) : List LoopOut :=
  if d.iSync = 0 then [.report pstData] else if d.iSync = 1 then [.syncRecv pstData] else []

/-- `_session_data_repeater_free_data_cb_handle`, as the repeater calls it.  It takes the repeater
before the data and the length, and is called with the data and the length: it takes the length
for an address. -/
def sessionDataRepeaterFreeDataCbHandle (_ : SessionData) (_ : Int) : Option (List Nat) := none

namespace SendLoop

def setSession (z : SendLoop) (iSessionId : Id) (s : Option Sending) : SendLoop :=
  { z with sessions := Function.update z.sessions iSessionId s }

/-- `base_free` of a payload, unless it is `NULL`. -/
def baseFree (z : SendLoop) (pProcessedData : Option Nat) : SendLoop :=
  { z with freed := z.freed ++ pProcessedData.toList }

/-! ## The functions -/

/-- The payload of a message gets its token. -/
def take (z : SendLoop) (d : SessionData) (hasPayload : Bool) : SendLoop × SessionData :=
  if hasPayload then ({ z with tokens := z.tokens + 1 }, { d with pProcessedData := some z.tokens })
  else (z, { d with pProcessedData := none })

/-- One message of the send loop of `session_sys_exec`, of which `iSendDataLen` bytes are
written. -/
def send (z : SendLoop) (d : SessionData) (hasPayload : Bool) (iSendDataLen : Int)
    (stNow : Timeval) (mem : Bool) : Option SendLoop :=
  let (z, d) := z.take d hasPayload
  match z.sessions d.iSessionId with
  | none => some z
  | some s =>
    if iSendDataLen ≠ d.iDataLen then
      some (z.setSession d.iSessionId (some { s with iActiveFlag := false }))
    else
      match s.repeats d with
      | some r =>
        (dataRepeaterSendPush r d.iSync d sizeofSessionData stNow mem).map fun x =>
          z.setSession d.iSessionId (some { s with pstDataRepeater := some x.1 })
      | none => some (z.baseFree d.pProcessedData)

/-- A packet in `_session_report_protocol_data`. -/
def reportProtocolData (z : SendLoop) (iSessionId : Id) (stSessionRecvData : SessionData) :
    Option (SendLoop × List LoopOut) :=
  match z.sessions iSessionId with
  | none => some (z, [])
  | some s =>
    match s.pstDataRepeater, s.pRespondMatchingCb with
    | some r, some cb => do
      let (r, os) ← dataRepeaterRespondPush cb r stSessionRecvData sizeofSessionData
        sizeofSessionData
      let z := z.setSession iSessionId (some { s with pstDataRepeater := some r })
      match returned? os with
      | some d => return (z.baseFree d.pProcessedData, d.answered stSessionRecvData)
      | none => return (z, [.report stSessionRecvData])
    | _, _ => some (z, [.report stSessionRecvData])

/-- A pass of the repeater of a session. -/
def manage (z : SendLoop) (iSessionId : Id) (stNow : Timeval) : Option (SendLoop × List LoopOut) :=
  match z.sessions iSessionId with
  | none => some (z, [])
  | some s =>
    match s.pstDataRepeater with
    | none => some (z, [])
    | some r =>
      (dataRepeaterManage r stNow).map fun x =>
        (z.setSession iSessionId (some { s with pstDataRepeater := some x.1 }),
          x.2.filterMap RepeaterOut.resent?)

/-- `session_close`, which destroys the repeater. -/
def close (z : SendLoop) (iSessionId : Id) : Option SendLoop :=
  match z.sessions iSessionId with
  | none => some z
  | some s =>
    match s.pstDataRepeater with
    | none => some (z.setSession iSessionId none)
    | some r =>
      (r.destroy sessionDataRepeaterFreeDataCbHandle).map fun ks =>
        ({ z with freed := z.freed ++ ks }).setSession iSessionId none

/-- `session_callback_reg` of a matching callback. -/
def callbackReg (z : SendLoop) (iSessionId : Id) (pFun : SessionData → SessionData → Bool) :
    SendLoop :=
  match z.sessions iSessionId with
  | none => z
  | some s =>
    if s.pstDataRepeater.isSome then
      z.setSession iSessionId (some { s with pRespondMatchingCb := some pFun })
    else z

end SendLoop

/-- What happens to the sessions. -/
inductive LoopAct where
  | send (d : SessionData) (hasPayload : Bool) (iSendDataLen : Int) (stNow : Timeval) (mem : Bool)
  | recv (iSessionId : Id) (stSessionRecvData : SessionData)
  | manage (iSessionId : Id) (stNow : Timeval)
  | close (iSessionId : Id)
  | callbackReg (iSessionId : Id) (pFun : SessionData → SessionData → Bool)

namespace SendLoop

def step (z : SendLoop) : LoopAct → Option (SendLoop × List LoopOut)
  | .send d hasPayload iSendDataLen stNow mem =>
    (z.send d hasPayload iSendDataLen stNow mem).map fun z => (z, [])
  | .recv iSessionId stSessionRecvData => z.reportProtocolData iSessionId stSessionRecvData
  | .manage iSessionId stNow => z.manage iSessionId stNow
  | .close iSessionId => (z.close iSessionId).map fun z => (z, [])
  | .callbackReg iSessionId pFun => some (z.callbackReg iSessionId pFun, [])

end SendLoop

/-! ## Custody -/

/-- The payloads of messages. -/
def tokensOf (xs : List (Nat × RepeaterNode SessionData)) : List Nat :=
  xs.filterMap fun q => q.2.aucData.pProcessedData

/-- The payloads of the messages that can still be sent again. -/
def heldBy (s : Option Sending) : List Nat :=
  match s.bind Sending.pstDataRepeater with
  | none => []
  | some r => tokensOf r.pending

namespace SendLoop

/-- Which payloads wait where, and which were released. -/
def custody (z : SendLoop) : Custody Id := ⟨fun id => heldBy (z.sessions id), z.tokens, z.freed⟩

/-- A payload of a message that can still be sent again was not released, and every other was,
once. -/
def Accounted (z : SendLoop) : Prop := z.custody.Accounted

/-- A message with a payload has a session, is written, and finds memory where it is to wait; no
message with a payload is given up; no message waits in a repeater that is destroyed. -/
def Safe (z : SendLoop) : LoopAct → Prop
  | .send d hasPayload iSendDataLen _ mem => hasPayload = true →
      ∃ s, z.sessions d.iSessionId = some s ∧ iSendDataLen = d.iDataLen ∧
        ((s.repeats d).isSome = true → mem = true)
  | .recv _ _ => True
  | .manage iSessionId stNow => ∀ s r, z.sessions iSessionId = some s →
      s.pstDataRepeater = some r → ∀ q ∈ r.pending,
        timedOut r.iTimeOut stNow q.2.stTimestamp = true → q.2.iResendCount = 0 →
          q.2.aucData.pProcessedData = none
  | .close iSessionId => ∀ s r, z.sessions iSessionId = some s → s.pstDataRepeater = some r →
      r.pending = []
  | .callbackReg _ _ => True

/-- No payload waits twice, and the repeaters are well formed. -/
structure Formed (z : SendLoop) : Prop where
  sound : z.custody.Sound
  stands : ∀ id s r, z.sessions id = some s → s.pstDataRepeater = some r →
    ∃ t n f, r.Stands t n f r.pending

end SendLoop

section

variable {z : SendLoop} {id : Id} {s : Sending} {r : Repeater SessionData}

theorem heldBy_of_repeater (h : s.pstDataRepeater = some r) :
    heldBy (some s) = tokensOf r.pending := by
  rw [heldBy, bind_some, h]

theorem Sending.repeats_eq_some {d : SessionData} (h : s.repeats d = some r) :
    s.pstDataRepeater = some r := by
  rw [repeats] at h
  split at h
  · exact h
  · cases h

theorem tokensOf_append (xs ys : List (Nat × RepeaterNode SessionData)) :
    tokensOf (xs ++ ys) = tokensOf xs ++ tokensOf ys := filterMap_append ..

theorem tokensOf_cons (q : Nat × RepeaterNode SessionData)
    (xs : List (Nat × RepeaterNode SessionData)) :
    tokensOf (q :: xs) = q.2.aucData.pProcessedData.toList ++ tokensOf xs := by
  rw [tokensOf, filterMap_cons]
  cases q.2.aucData.pProcessedData <;> rfl

section

variable {α : Type} {t : Int} {stNow : Timeval} {nd nd' : RepeaterNode α}

theorem RepeaterNode.pass_aucData (h : nd.pass t stNow = some nd') : nd'.aucData = nd.aucData := by
  rw [pass] at h
  split at h
  · split at h
    · cases h
    split at h
    · obtain rfl := some.inj h
      rfl
    · obtain rfl := some.inj h
      rfl
  · obtain rfl := some.inj h
    rfl

theorem RepeaterNode.pass_eq_none_iff :
    nd.pass t stNow = none ↔ timedOut t stNow nd.stTimestamp = true ∧ nd.iResendCount = 0 := by
  rw [pass]
  by_cases hout : timedOut t stNow nd.stTimestamp = true
  · rw [if_pos hout, and_iff_right hout]
    by_cases hzero : nd.iResendCount = 0
    · rw [if_pos hzero]
      exact iff_of_true rfl hzero
    · rw [if_neg hzero]
      refine iff_of_false ?_ hzero
      split <;> exact some_ne_none _
  · rw [if_neg hout]
    exact iff_of_false (some_ne_none _) fun h => hout h.1

end

variable {t : Int} {stNow : Timeval} {xs : List (Nat × RepeaterNode SessionData)}

theorem tokensOf_passed_cons (q : Nat × RepeaterNode SessionData) :
    tokensOf (passed t stNow (q :: xs)) =
      (if q.2.pass t stNow = none then [] else q.2.aucData.pProcessedData.toList) ++
        tokensOf (passed t stNow xs) := by
  rw [passed, filterMap_cons]
  cases hpass : q.2.pass t stNow with
  | none =>
    rw [if_pos rfl]
    rfl
  | some nd =>
    rw [if_neg (some_ne_none nd), ← RepeaterNode.pass_aucData hpass]
    exact tokensOf_cons (q.1, nd) _

theorem tokensOf_passed_sublist (t : Int) (stNow : Timeval)
    (xs : List (Nat × RepeaterNode SessionData)) :
    (tokensOf (passed t stNow xs)).Sublist (tokensOf xs) := by
  induction xs with
  | nil => exact List.Sublist.refl _
  | cons q xs ih =>
    rw [tokensOf_passed_cons, tokensOf_cons]
    split
    · exact ih.trans (sublist_append_right ..)
    · exact (List.Sublist.refl _).append ih

/-- A pass keeps all payloads when no message that has one is given up. -/
theorem tokensOf_passed_iff :
    tokensOf (passed t stNow xs) = tokensOf xs ↔
      ∀ q ∈ xs, timedOut t stNow q.2.stTimestamp = true → q.2.iResendCount = 0 →
        q.2.aucData.pProcessedData = none := by
  induction xs with
  | nil => exact iff_of_true rfl fun q hq => absurd hq not_mem_nil
  | cons q xs ih =>
    have hrest := (tokensOf_passed_sublist t stNow xs).length_le
    rw [forall_mem_cons, ← ih, tokensOf_passed_cons, tokensOf_cons, ← and_imp,
      ← RepeaterNode.pass_eq_none_iff]
    by_cases hpass : q.2.pass t stNow = none
    · rw [if_pos hpass, nil_append]
      constructor
      · intro h
        have hlen := congrArg List.length h
        rw [length_append] at hlen
        have hnil : q.2.aucData.pProcessedData.toList = [] :=
          eq_nil_of_length_eq_zero (by omega)
        rw [hnil, nil_append] at h
        exact ⟨fun _ => toList_eq_nil_iff.mp hnil, h⟩
      · rintro ⟨hnone, h⟩
        rw [hnone hpass, h]
        rfl
    · rw [if_neg hpass, append_cancel_left_eq]
      exact (and_iff_right fun h => absurd h hpass).symm

/-! ## One step -/

namespace SendLoop

@[simp] theorem sessions_setSession_self (z : SendLoop) (id : Id) (s : Option Sending) :
    (z.setSession id s).sessions id = s := Function.update_self ..

theorem sessions_setSession_of_ne (z : SendLoop) (s : Option Sending) {i : Id} (h : i ≠ id) :
    (z.setSession id s).sessions i = z.sessions i := Function.update_of_ne h ..

theorem custody_setSession (z : SendLoop) (id : Id) (s : Option Sending) :
    (z.setSession id s).custody = z.custody.hold id (heldBy s) := by
  have hheld : (fun i => heldBy ((z.setSession id s).sessions i)) =
      Function.update (fun i => heldBy (z.sessions i)) id (heldBy s) := by
    funext i
    by_cases hi : i = id
    · rw [hi, sessions_setSession_self, Function.update_self]
    · rw [sessions_setSession_of_ne z s hi, Function.update_of_ne hi]
  rw [custody, hheld]
  rfl

theorem custody_setSession_of_eq {s' : Option Sending} (h : heldBy s' = heldBy (z.sessions id)) :
    (z.setSession id s').custody = z.custody := by
  rw [custody_setSession, h]
  exact z.custody.hold_held id

theorem Formed.setSession (hz : z.Formed) {s' : Option Sending}
    (hsound : (z.setSession id s').custody.Sound)
    (hr : ∀ s r, s' = some s → s.pstDataRepeater = some r → ∃ t n f, r.Stands t n f r.pending) :
    (z.setSession id s').Formed where
  sound := hsound
  stands i s r hs hrep := by
    by_cases hi : i = id
    · rw [hi, sessions_setSession_self] at hs
      exact hr s r hs hrep
    · rw [sessions_setSession_of_ne z s' hi] at hs
      exact hz.stands i s r hs hrep

theorem Formed.setSession_of_eq (hz : z.Formed) (hs : z.sessions id = some s) (s' : Sending)
    (h : s'.pstDataRepeater = s.pstDataRepeater) :
    (z.setSession id (some s')).Formed ∧ (z.setSession id (some s')).custody = z.custody := by
  have hheld : heldBy (some s') = heldBy (z.sessions id) := by
    rw [hs, heldBy, heldBy, bind_some, bind_some, h]
  have hcustody := custody_setSession_of_eq hheld
  refine ⟨hz.setSession (hcustody ▸ hz.sound) ?_, hcustody⟩
  rintro s'' r hs'' hrep
  obtain rfl := some.inj hs''
  exact hz.stands id s r hs (h ▸ hrep)

/-- What a step comes to: it is safe and the books stay right, or it is not and they do not. -/
def Settles (z : SendLoop) (a : LoopAct) : Prop :=
  (z.Safe a ∧ ∃ z' os, z.step a = some (z', os) ∧ z'.Formed ∧ z'.Accounted) ∨
    (¬ z.Safe a ∧ ∀ z' os, z.step a = some (z', os) → ¬ z'.Accounted)

end SendLoop

theorem dataRepeaterSendPush_tokens (hr : ∃ t n f, r.Stands t n f r.pending) (iSync : Int)
    (d : SessionData) (stNow : Timeval) (mem : Bool) :
    ∃ x, dataRepeaterSendPush r iSync d sizeofSessionData stNow mem = some x ∧
      (∃ t n f, x.1.Stands t n f x.1.pending) ∧
      tokensOf x.1.pending =
        tokensOf r.pending ++ if mem then d.pProcessedData.toList else [] := by
  obtain ⟨t, n, f, hr⟩ := hr
  rw [dataRepeaterSendPush, if_neg (by decide)]
  cases mem with
  | false =>
    refine ⟨(r, [.ret .listInsertErr]), rfl, ⟨t, n, f, hr⟩, ?_⟩
    exact (append_nil _).symm
  | true =>
    obtain ⟨r', hins, hr'⟩ := hr.tailInsert iSync d sizeofSessionData stNow
    refine ⟨(r', [.ret .noErr]), ?_, ⟨t, n, f + 1, ?_⟩, ?_⟩
    · rw [if_pos rfl, hins]
      rfl
    · rw [hr'.pending]
      exact hr'
    · rw [hr'.pending, tokensOf_append, tokensOf_cons]
      simp [tokensOf]

theorem dataRepeaterRespondPush_tokens (hr : ∃ t n f, r.Stands t n f r.pending)
    (cb : SessionData → SessionData → Bool) (d : SessionData) :
    ∃ r' os, dataRepeaterRespondPush cb r d sizeofSessionData sizeofSessionData = some (r', os) ∧
      (∃ t n f, r'.Stands t n f r'.pending) ∧
      match returned? os with
      | none => tokensOf r'.pending = tokensOf r.pending
      | some d' => ∃ as bs, tokensOf r.pending = as ++ (d'.pProcessedData.toList ++ bs) ∧
          tokensOf r'.pending = as ++ bs := by
  obtain ⟨t, n, f, hr⟩ := hr
  obtain ⟨r', os, hstep, h⟩ := hr.respondPush cb d
    (show ¬ (sizeofSessionData ≤ 0 ∨ sizeofSessionData ≤ 0) by decide)
  refine ⟨r', os, hstep, ?_⟩
  cases hfind : r.pending.find? fun q => cb q.2.aucData d with
  | none =>
    rw [hfind] at h
    obtain ⟨hr', rfl⟩ := h
    refine ⟨⟨t, n, f, ?_⟩, ?_⟩
    · rwa [hr'.pending]
    · show tokensOf r'.pending = _
      rw [hr'.pending]
  | some q =>
    rw [hfind] at h
    obtain ⟨hr', rfl⟩ := h
    refine ⟨⟨t, n, f, ?_⟩, ?_⟩
    · rwa [hr'.pending]
    · obtain ⟨hmatch, as, bs, hsplit, has⟩ := find?_eq_some_iff_append.mp hfind
      have hnot : ∀ p ∈ as, ¬ cb p.2.aucData d = true := fun p hp h => by
        have hp := has p hp
        rw [h] at hp
        cases hp
      refine ⟨tokensOf as, tokensOf bs, ?_, ?_⟩
      · rw [hsplit, tokensOf_append, tokensOf_cons]
      · rw [hr'.pending, hsplit, eraseP_append_right _ hnot, eraseP_cons_of_pos
          (p := fun q : Nat × RepeaterNode SessionData => cb q.2.aucData d) hmatch, tokensOf_append]

theorem destroy_eq (hr : ∃ t n f, r.Stands t n f r.pending) :
    r.destroy sessionDataRepeaterFreeDataCbHandle = if r.pending = [] then some [] else none := by
  obtain ⟨t, n, f, hr⟩ := hr
  rw [Repeater.destroy]
  cases hpending : r.pending with
  | nil =>
    have hlen : ¬ r.iLen ≠ 0 := by
      rw [hr.iLen, hpending]
      decide
    rw [if_neg hlen, if_pos rfl]
  | cons q xs =>
    have hlen : r.iLen ≠ 0 := by
      rw [hr.iLen, hpending]
      exact Int.natCast_ne_zero.mpr (Nat.succ_ne_zero _)
    obtain ⟨p, nd⟩ := q
    have hholds := hr.holds
    rw [hpending] at hholds
    obtain ⟨k, hk⟩ : ∃ k, r.list.fresh = k + 1 :=
      Nat.exists_eq_succ_of_ne_zero (Nat.ne_zero_of_lt (hholds.lt _ mem_cons_self))
    have hheap : r.list.heap p = some _ := hholds.linked.1
    rw [if_pos hlen, if_neg (cons_ne_nil _ _), hholds.head, DoubleList.firstOr_cons, hk,
      dataRepeaterLinkListClearFrom, hheap]
    rfl

namespace SendLoop

theorem Settles.of_step {z' : SendLoop} {a : LoopAct} {os : List LoopOut}
    (hstep : z.step a = some (z', os)) (hformed : z'.Formed) (hsafe : z.Safe a ↔ z'.Accounted) :
    z.Settles a := by
  by_cases hacc : z'.Accounted
  · exact .inl ⟨hsafe.mpr hacc, z', os, hstep, hformed, hacc⟩
  · refine .inr ⟨fun h => hacc (hsafe.mp h), fun z'' os' hstep' => ?_⟩
    obtain ⟨rfl, -⟩ := Prod.mk.inj (some.inj (hstep.symm.trans hstep'))
    exact hacc

theorem custody_baseFree_none (z : SendLoop) : (z.baseFree none).custody = z.custody := by
  rw [custody, baseFree, toList_none, append_nil]
  rfl

theorem Formed.send_null (hz : z.Formed) (hacc : z.Accounted) (d : SessionData) (iSendDataLen : Int)
    (stNow : Timeval) (mem : Bool) :
    ∃ z', z.send d false iSendDataLen stNow mem = some z' ∧ z'.Formed ∧ z'.Accounted := by
  rw [send, take]
  simp only [Bool.false_eq_true, if_false]
  cases hs : z.sessions d.iSessionId with
  | none => exact ⟨z, rfl, hz, hacc⟩
  | some s =>
    by_cases hlen : iSendDataLen = d.iDataLen
    · simp only [if_neg (not_not_intro hlen)]
      cases hrep : s.repeats { d with pProcessedData := none } with
      | none =>
        have hcustody := z.custody_baseFree_none
        exact ⟨_, rfl, ⟨hcustody ▸ hz.sound, hz.stands⟩, by rwa [Accounted, hcustody]⟩
      | some r =>
        have hold := Sending.repeats_eq_some hrep
        obtain ⟨⟨r', os⟩, hpush, hr', htokens⟩ := dataRepeaterSendPush_tokens
          (hz.stands _ _ _ hs hold) d.iSync { d with pProcessedData := none } stNow mem
        have hsame : heldBy (some { s with pstDataRepeater := some r' }) =
            heldBy (z.sessions d.iSessionId) := by
          rw [hs, heldBy_of_repeater hold, heldBy_of_repeater rfl, htokens]
          cases mem <;> exact append_nil _
        have hcustody := custody_setSession_of_eq hsame
        refine ⟨z.setSession d.iSessionId (some { s with pstDataRepeater := some r' }), ?_, ?_, ?_⟩
        · simp only [hpush, map_some]
        · refine hz.setSession (hcustody ▸ hz.sound) ?_
          rintro s' r'' hs' hrep'
          obtain rfl := some.inj hs'
          obtain rfl := some.inj hrep'
          exact hr'
        · rw [Accounted, hcustody]
          exact hacc
    · simp only [if_pos hlen]
      obtain ⟨hformed, hcustody⟩ := hz.setSession_of_eq hs { s with iActiveFlag := false } rfl
      exact ⟨_, rfl, hformed, by rwa [Accounted, hcustody]⟩

/-- The payload has its token. -/
def issued (z : SendLoop) : SendLoop := { z with tokens := z.tokens + 1 }

theorem Formed.issued (hz : z.Formed) : z.issued.Formed := ⟨hz.sound.issue, hz.stands⟩

theorem Formed.send_payload (hz : z.Formed) (hacc : z.Accounted) (d : SessionData)
    (iSendDataLen : Int) (stNow : Timeval) (mem : Bool) :
    z.Settles (.send d true iSendDataLen stNow mem) := by
  have hlost : ∀ z' : SendLoop, z'.custody = z.custody.issue → ¬ z'.Accounted := fun z' h => by
    rw [Accounted, h]
    exact hz.sound.not_accounted_issue
  rw [Settles, step, send, take, Safe]
  simp only [if_true, true_implies]
  cases hs : z.sessions d.iSessionId with
  | none =>
    refine .inr ⟨?_, ?_⟩
    · rintro ⟨s, hs', -⟩
      cases hs'
    · rintro z' os hstep
      obtain ⟨rfl, -⟩ := Prod.mk.inj (some.inj hstep)
      exact hlost _ rfl
  | some s =>
    by_cases hlen : iSendDataLen = d.iDataLen
    · simp only [if_neg (not_not_intro hlen)]
      cases hrep : s.repeats { d with pProcessedData := some z.tokens } with
      | none =>
        refine .inl ⟨⟨s, rfl, hlen, ?_⟩, _, _, rfl, ⟨hz.sound.issue_release, hz.stands⟩,
          hacc.issue_release hz.sound⟩
        intro h
        have hnone : s.repeats d = none := hrep
        rw [hnone] at h
        cases h
      | some r =>
        have hold := Sending.repeats_eq_some hrep
        obtain ⟨⟨r', os⟩, hpush, hr', htokens⟩ := dataRepeaterSendPush_tokens
          (hz.stands _ _ _ hs hold) d.iSync { d with pProcessedData := some z.tokens } stNow mem
        have hheld : z.custody.held d.iSessionId = tokensOf r.pending := by
          show heldBy (z.sessions d.iSessionId) = _
          rw [hs, heldBy_of_repeater hold]
        have hcustody := z.issued.custody_setSession d.iSessionId
          (some { s with pstDataRepeater := some r' })
        rw [heldBy_of_repeater rfl, htokens, ← hheld] at hcustody
        have hr'' : ∀ s' r'', some { s with pstDataRepeater := some r' } = some s' →
            s'.pstDataRepeater = some r'' → ∃ t n f, r''.Stands t n f r''.pending := by
          rintro s' r'' hs' hrep'
          obtain rfl := some.inj hs'
          obtain rfl := some.inj hrep'
          exact hr'
        simp only [hpush, map_some]
        cases mem with
        | true =>
          refine .inl ⟨⟨s, rfl, hlen, fun _ => rfl⟩, _, _, rfl, ?_, ?_⟩
          · refine hz.issued.setSession ?_ hr''
            rw [hcustody]
            exact hz.sound.issue_hold d.iSessionId
          · rw [Accounted]
            refine (congrArg Custody.Accounted hcustody).mpr ?_
            exact hacc.issue_hold hz.sound d.iSessionId
        | false =>
          refine .inr ⟨?_, ?_⟩
          · rintro ⟨s', hs', -, hmem⟩
            obtain rfl := some.inj hs'
            have hsome : (s.repeats d).isSome = true := isSome_of_eq_some hrep
            cases hmem hsome
          · rintro z' os' hstep
            obtain ⟨rfl, -⟩ := Prod.mk.inj (some.inj hstep)
            refine hlost _ (hcustody.trans ?_)
            rw [if_neg Bool.false_ne_true, append_nil]
            exact z.custody.issue.hold_held d.iSessionId
    · simp only [if_pos hlen]
      refine .inr ⟨?_, ?_⟩
      · rintro ⟨s', -, hlen', -⟩
        exact hlen hlen'
      · rintro z' os hstep
        obtain ⟨rfl, -⟩ := Prod.mk.inj (some.inj hstep)
        exact hlost _ (hz.issued.setSession_of_eq hs { s with iActiveFlag := false } rfl).2

theorem custody_setRepeater (z : SendLoop) (id : Id) (s : Sending) (r : Repeater SessionData) :
    (z.setSession id (some { s with pstDataRepeater := some r })).custody =
      z.custody.hold id (tokensOf r.pending) := by
  rw [custody_setSession, heldBy_of_repeater rfl]

theorem Formed.setRepeater (hz : z.Formed) {r' : Repeater SessionData}
    (hsound : (z.custody.hold id (tokensOf r'.pending)).Sound)
    (hr' : ∃ t n f, r'.Stands t n f r'.pending) :
    (z.setSession id (some { s with pstDataRepeater := some r' })).Formed := by
  refine hz.setSession ?_ ?_
  · rwa [custody_setRepeater]
  · rintro s' r'' hs' hrep'
    obtain rfl := some.inj hs'
    obtain rfl := some.inj hrep'
    exact hr'

theorem custody_held (hs : z.sessions id = some s) (hrep : s.pstDataRepeater = some r) :
    z.custody.held id = tokensOf r.pending := by
  show heldBy (z.sessions id) = _
  rw [hs, heldBy_of_repeater hrep]

theorem reportProtocolData_eq (hs : z.sessions id = some s) (hrep : s.pstDataRepeater = some r)
    {cb : SessionData → SessionData → Bool} (hcb : s.pRespondMatchingCb = some cb) {d : SessionData}
    {r' : Repeater SessionData} {os : List (RepeaterOut SessionData)}
    (hpush : dataRepeaterRespondPush cb r d sizeofSessionData sizeofSessionData = some (r', os)) :
    z.reportProtocolData id d = some (
      match returned? os with
      | some d' =>
        ((z.setSession id (some { s with pstDataRepeater := some r' })).baseFree d'.pProcessedData,
          d'.answered d)
      | none => (z.setSession id (some { s with pstDataRepeater := some r' }), [.report d])) := by
  simp only [reportProtocolData, hs, hrep, hcb, hpush, bind_eq_bind, bind_some]
  cases returned? os <;> rfl

theorem Formed.recv (hz : z.Formed) (hacc : z.Accounted) (id : Id) (d : SessionData) :
    ∃ z' os, z.reportProtocolData id d = some (z', os) ∧ z'.Formed ∧ z'.Accounted := by
  cases hs : z.sessions id with
  | none => exact ⟨z, [], by simp only [reportProtocolData, hs], hz, hacc⟩
  | some s =>
    cases hrep : s.pstDataRepeater with
    | none => exact ⟨z, [.report d], by simp only [reportProtocolData, hs, hrep], hz, hacc⟩
    | some r =>
      cases hcb : s.pRespondMatchingCb with
      | none =>
        exact ⟨z, [.report d], by simp only [reportProtocolData, hs, hrep, hcb], hz, hacc⟩
      | some cb =>
        obtain ⟨r', os, hpush, hr', htokens⟩ :=
          dataRepeaterRespondPush_tokens (hz.stands id s r hs hrep) cb d
        have hheld := custody_held hs hrep
        have hcustody := z.custody_setRepeater id s r'
        rw [reportProtocolData_eq hs hrep hcb hpush]
        cases hret : returned? os with
        | none =>
          rw [hret] at htokens
          have htokens : tokensOf r'.pending = tokensOf r.pending := htokens
          have hsame : z.custody.hold id (tokensOf r'.pending) = z.custody := by
            rw [htokens, ← hheld, Custody.hold_held]
          refine ⟨_, _, rfl, hz.setRepeater (by rw [hsame]; exact hz.sound) hr', ?_⟩
          rw [Accounted, hcustody, hsame]
          exact hacc
        | some d' =>
          rw [hret] at htokens
          obtain ⟨as, bs, hsplit, hrest⟩ := htokens
          cases htoken : d'.pProcessedData with
          | none =>
            rw [htoken] at hsplit
            have hsame : z.custody.hold id (tokensOf r'.pending) = z.custody := by
              rw [hrest, show as ++ bs = z.custody.held id from (hheld.trans hsplit).symm,
                Custody.hold_held]
            have hformed : (z.setSession id (some
                { s with pstDataRepeater := some r' })).Formed :=
              hz.setRepeater (by rw [hsame]; exact hz.sound) hr'
            have hnone := custody_baseFree_none
              (z.setSession id (some { s with pstDataRepeater := some r' }))
            refine ⟨_, _, rfl, ⟨?_, hformed.stands⟩, ?_⟩
            · simp only [htoken, hnone]
              exact hformed.sound
            · simp only [htoken, Accounted, hnone, hcustody, hsame]
              exact hacc
          | some k =>
            rw [htoken] at hsplit
            have hsplit : z.custody.held id = as ++ k :: bs := hheld.trans hsplit
            have hfree : ((z.setSession id (some
                { s with pstDataRepeater := some r' })).baseFree (some k)).custody =
                (z.custody.hold id (as ++ bs)).release k := by
              rw [← hrest, ← hcustody]
              rfl
            have hsub : (as ++ bs).Sublist (z.custody.held id) := by
              rw [hsplit]
              exact (List.Sublist.refl as).append (sublist_cons_self k bs)
            have hformed : (z.setSession id (some
                { s with pstDataRepeater := some r' })).Formed :=
              hz.setRepeater (hrest ▸ hz.sound.hold_sublist hsub) hr'
            refine ⟨_, _, rfl, ⟨?_, hformed.stands⟩, ?_⟩
            · simp only [htoken, hfree]
              exact hz.sound.hold_release hsplit
            · simp only [htoken, Accounted, hfree]
              exact hacc.hold_release hz.sound hsplit

theorem forall_repeater_iff {P : Repeater SessionData → Prop} (hs : z.sessions id = some s)
    (hrep : s.pstDataRepeater = some r) :
    (∀ s r, z.sessions id = some s → s.pstDataRepeater = some r → P r) ↔ P r := by
  constructor
  · exact fun h => h s r hs hrep
  · rintro h s' r' hs' hrep'
    obtain rfl := some.inj (hs.symm.trans hs')
    obtain rfl := some.inj (hrep.symm.trans hrep')
    exact h

theorem forall_repeater_of_none {P : Repeater SessionData → Prop}
    (hs : (z.sessions id).bind Sending.pstDataRepeater = none) :
    ∀ s r, z.sessions id = some s → s.pstDataRepeater = some r → P r := fun s r hs' hrep => by
  rw [hs', bind_some, hrep] at hs
  cases hs

theorem Formed.settles_manage (hz : z.Formed) (hacc : z.Accounted) (id : Id) (stNow : Timeval) :
    z.Settles (.manage id stNow) := by
  cases hs : z.sessions id with
  | none =>
    refine .inl ⟨forall_repeater_of_none (by rw [hs]; rfl), z, [], ?_, hz, hacc⟩
    simp only [step, manage, hs]
  | some s =>
    cases hrep : s.pstDataRepeater with
    | none =>
      refine .inl ⟨forall_repeater_of_none (by rw [hs]; exact hrep), z, [], ?_, hz, hacc⟩
      simp only [step, manage, hs, hrep]
    | some r =>
      obtain ⟨t, n, f, hr⟩ := hz.stands id s r hs hrep
      obtain ⟨r', hpass, hr'⟩ := hr.manage stNow
      have hheld := custody_held hs hrep
      have hcustody := z.custody_setRepeater id s r'
      rw [hr'.pending] at hcustody
      have hsub : (tokensOf (passed t stNow r.pending)).Sublist (z.custody.held id) := by
        rw [hheld]
        exact tokensOf_passed_sublist t stNow r.pending
      have hsafe : z.Safe (.manage id stNow) ↔
          (z.setSession id (some { s with pstDataRepeater := some r' })).Accounted := by
        rw [Safe, forall_repeater_iff hs hrep, hr.iTimeOut, ← tokensOf_passed_iff, ← hheld,
          ← hacc.hold_iff hz.sound hsub, Accounted, hcustody]
      have hstep : z.step (.manage id stNow) =
          some (z.setSession id (some { s with pstDataRepeater := some r' }),
            (resent t stNow r.pending).filterMap RepeaterOut.resent?) := by
        simp only [step, manage, hs, hrep, hpass, map_some]
      refine .of_step hstep (hz.setRepeater ?_ ⟨t, n, f, ?_⟩) hsafe
      · rw [hr'.pending]
        exact hz.sound.hold_sublist hsub
      · rw [hr'.pending]
        exact hr'

theorem Formed.settles_close (hz : z.Formed) (hacc : z.Accounted) (id : Id) :
    z.Settles (.close id) := by
  have hgone (hnone : heldBy (z.sessions id) = []) :
      (z.setSession id none).Formed ∧ (z.setSession id none).Accounted := by
    have hcustody : (z.setSession id none).custody = z.custody :=
      custody_setSession_of_eq hnone.symm
    refine ⟨hz.setSession (by rw [hcustody]; exact hz.sound) ?_, ?_⟩
    · rintro s r ⟨⟩
    · rwa [Accounted, hcustody]
  cases hs : z.sessions id with
  | none =>
    refine .inl ⟨forall_repeater_of_none (by rw [hs]; rfl), z, [], ?_, hz, hacc⟩
    simp only [step, close, hs, map_some]
  | some s =>
    cases hrep : s.pstDataRepeater with
    | none =>
      obtain ⟨hformed, hacc'⟩ := hgone (by rw [hs, heldBy, bind_some, hrep])
      refine .inl ⟨forall_repeater_of_none (by rw [hs]; exact hrep), _, [], ?_, hformed, hacc'⟩
      simp only [step, close, hs, hrep, map_some]
    | some r =>
      have hdestroy := destroy_eq (hz.stands id s r hs hrep)
      have hsafe : z.Safe (.close id) ↔ r.pending = [] := forall_repeater_iff hs hrep
      by_cases hempty : r.pending = []
      · obtain ⟨hformed, hacc'⟩ := hgone (by
          rw [hs, heldBy_of_repeater hrep, hempty]
          rfl)
        rw [if_pos hempty] at hdestroy
        refine .inl ⟨hsafe.mpr hempty, _, [], ?_, hformed, hacc'⟩
        simp only [step, close, hs, hrep, hdestroy, map_some, append_nil]
      · rw [if_neg hempty] at hdestroy
        refine .inr ⟨fun h => hempty (hsafe.mp h), fun z' os hstep => ?_⟩
        simp only [step, close, hs, hrep, hdestroy, map_none] at hstep
        cases hstep

theorem Formed.settles (hz : z.Formed) (hacc : z.Accounted) (a : LoopAct) : z.Settles a := by
  cases a with
  | send d hasPayload iSendDataLen stNow mem =>
    cases hasPayload with
    | true => exact hz.send_payload hacc d iSendDataLen stNow mem
    | false =>
      obtain ⟨z', hsend, hz', hacc'⟩ := hz.send_null hacc d iSendDataLen stNow mem
      refine .inl ⟨?_, z', [], ?_, hz', hacc'⟩
      · rintro ⟨⟩
      · rw [step, hsend]
        rfl
  | recv id d => exact .inl ⟨trivial, hz.recv hacc id d⟩
  | manage id stNow => exact hz.settles_manage hacc id stNow
  | close id => exact hz.settles_close hacc id
  | callbackReg id pFun =>
    refine .inl ⟨trivial, _, _, rfl, ?_⟩
    rw [callbackReg]
    cases hs : z.sessions id with
    | none => exact ⟨hz, hacc⟩
    | some s =>
      simp only
      split
      · obtain ⟨hformed, hcustody⟩ := hz.setSession_of_eq hs
          { s with pRespondMatchingCb := some pFun } rfl
        exact ⟨hformed, by rwa [Accounted, hcustody]⟩
      · exact ⟨hz, hacc⟩

end SendLoop

end

/-! ## Runs -/

/-- The step goes through, and leaves the books right. -/
def SendLoop.Keeps (z : SendLoop) (a : LoopAct) : Prop :=
  ∃ z' os, z.step a = some (z', os) ∧ z'.Accounted

/-- From sessions whose repeaters are new, whatever happens, all steps leave the books of the
payloads right exactly when each of them is safe. -/
theorem payload_released_once_iff {z : SendLoop}
    (hnew : ∀ id s r, z.sessions id = some s → s.pstDataRepeater = some r →
      ∃ iTimeOut iMaxResend, newDataRepeater iTimeOut iMaxResend = some r)
    (htokens : z.tokens = 0) (hfreed : z.freed = []) (acts : List LoopAct) :
    Run.Along SendLoop.step SendLoop.Keeps z acts ↔
      Run.Along SendLoop.step SendLoop.Safe z acts := by
  have hheld : ∀ id, z.custody.held id = [] := fun id => by
    show heldBy (z.sessions id) = []
    cases hs : z.sessions id with
    | none => rfl
    | some s =>
      cases hrep : s.pstDataRepeater with
      | none => rw [heldBy, bind_some, hrep]
      | some r =>
        obtain ⟨t, n, hr⟩ := hnew id s r hs hrep
        rw [heldBy_of_repeater hrep, (Repeater.Stands.of_new hr).pending]
        rfl
  have hformed : z.Formed := by
    refine ⟨⟨fun id => ?_, fun i j k hi => ?_, fun i k hi => ?_, fun k hk => ?_⟩, ?_⟩
    · rw [hheld id]
      exact nodup_nil
    · rw [hheld i] at hi
      cases hi
    · rw [hheld i] at hi
      cases hi
    · rw [SendLoop.custody, hfreed] at hk
      cases hk
    · intro id s r hs hrep
      obtain ⟨t, n, hr⟩ := hnew id s r hs hrep
      have hstands := Repeater.Stands.of_new hr
      exact ⟨t, n, 0, hstands.pending ▸ hstands⟩
  have hacc : z.Accounted := fun k hk => by
    have hk : k < z.tokens := hk
    rw [htokens] at hk
    cases hk
  refine Run.along_iff_along_of (C := fun _ _ => True)
    (R := fun z => z.Formed ∧ z.Accounted) ?_ ?_ ⟨hformed, hacc⟩
    (Run.along_of_forall (P := fun _ => True) (fun _ _ => trivial) z)
  · rintro z a ⟨hz, hacc⟩ -
    rcases hz.settles hacc a with ⟨hsafe, z', os, hstep, -, hacc'⟩ | ⟨hnot, hlost⟩
    · exact iff_of_true ⟨z', os, hstep, hacc'⟩ hsafe
    · exact iff_of_false (fun ⟨z', os, hstep, hacc'⟩ => hlost z' os hstep hacc') hnot
  · rintro z a z' os ⟨hz, hacc⟩ - hsafe hstep
    rcases hz.settles hacc a with ⟨-, z₁, os₁, hstep₁, hz₁, hacc₁⟩ | ⟨hnot, -⟩
    · obtain ⟨rfl, -⟩ := Prod.mk.inj (some.inj (hstep₁.symm.trans hstep))
      exact ⟨hz₁, hacc₁⟩
    · exact absurd hsafe hnot

/-- A message that is written, waits and is answered. -/
theorem payload_released_once_answered :
    Run.Along SendLoop.step SendLoop.Keeps
        ⟨fun _ => some ⟨true, some ⟨.empty, 0, 200, 3⟩, some fun _ _ => true⟩, 0, []⟩
        [.send ⟨.uart, 5, 0, 1, none, 1, [7]⟩ true 1 ⟨0, 0⟩ true,
          .recv 5 ⟨.uart, 5, 0, 0, none, 1, [7]⟩] ↔
      Run.Along SendLoop.step SendLoop.Safe
        ⟨fun _ => some ⟨true, some ⟨.empty, 0, 200, 3⟩, some fun _ _ => true⟩, 0, []⟩
        [.send ⟨.uart, 5, 0, 1, none, 1, [7]⟩ true 1 ⟨0, 0⟩ true,
          .recv 5 ⟨.uart, 5, 0, 0, none, 1, [7]⟩] := by
  refine payload_released_once_iff (fun id s r hs hrep => ?_) rfl rfl _
  obtain rfl := some.inj hs
  exact ⟨200, 3, hrep⟩

/-- A message whose writing fails: nobody has its payload, and nobody released it. -/
theorem payload_released_once_unwritten :
    ¬ Run.Along SendLoop.step SendLoop.Keeps ⟨fun _ => some ⟨true, none, none⟩, 0, []⟩
      [.send ⟨.uart, 5, 0, 0, none, 1, [7]⟩ true 0 ⟨0, 0⟩ true] := by
  rintro ⟨⟨z', os, hstep, hacc⟩, -⟩
  obtain ⟨rfl, -⟩ := Prod.mk.inj (some.inj hstep)
  have hone := (hacc 0 Nat.one_pos).2 ?_
  · cases hone
  · rintro ⟨i, hi⟩
    by_cases h : i = 5
    · subst h
      cases hi
    · revert hi
      show ¬ 0 ∈ heldBy ((SendLoop.setSession _ _ _).sessions i)
      rw [SendLoop.sessions_setSession_of_ne _ _ h]
      exact not_mem_nil

end Honyar.Sessions
