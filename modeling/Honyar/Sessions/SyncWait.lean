import Honyar.Sessions.Payload

/-!
# Synchronous waits

`session_send` and `session_recv` on sessions that are not served asynchronously: both read until
something comes or a time is over.  Only the milliseconds and microseconds of the end are compared,
with a clock that is not read again.  So each loop runs once at most or until something comes, and
which of these depends on where in the second it starts.  What `session_recv` read it does not
return.
-/

namespace Honyar.Sessions

open Option Nat

/-- All of `base_timeval_t`. -/
structure ClockTime where
  uiSec : UInt32
  uiMsec : UInt32
  uiUsec : UInt32
deriving DecidableEq

/-- `stEnd` of both functions. -/
def ClockTime.ending (stNow : ClockTime) (iTimeOut : Int) : ClockTime where
  uiSec := stNow.uiSec + (stNow.uiMsec + UInt32.ofInt iTimeOut) / 1000
  uiMsec := (stNow.uiMsec + UInt32.ofInt iTimeOut) % 1000
  uiUsec := stNow.uiUsec

/-- The condition of the loop of `session_send`. -/
def ClockTime.sendGoesOn (stNow stEnd : ClockTime) : Bool :=
  decide (stNow.uiUsec < stEnd.uiUsec) ||
    (decide (stNow.uiUsec = stEnd.uiUsec) && decide (stNow.uiMsec ≤ stEnd.uiMsec))

/-- The condition of the loop of `session_recv`. -/
def ClockTime.recvGoesOn (stNow stEnd : ClockTime) : Bool :=
  decide (stNow.uiUsec < stEnd.uiUsec) ||
    (decide (stNow.uiUsec = stEnd.uiUsec) && decide (stNow.uiMsec < stEnd.uiMsec))

/-- The loop of `session_send` from a read on: how often it has read when it is left, and what it
read last. -/
def sessionSendWaitFrom (stNow stEnd : ClockTime) (reads : Nat → Int) :
    Nat → Nat → Int → Option (Nat × Int)
  | 0, _, _ => none
  | n + 1, i, iRecvDataLen =>
    if stNow.sendGoesOn stEnd then
      if 0 < reads i then some (i + 1, reads i)
      else sessionSendWaitFrom stNow stEnd reads n (i + 1) (reads i)
    else some (i, iRecvDataLen)

/-- The loop of `session_recv`, which reads before it compares. -/
def sessionRecvWaitFrom (stNow stEnd : ClockTime) (reads : Nat → Int) :
    Nat → Nat → Option (Nat × Int)
  | 0, _ => none
  | n + 1, i =>
    if 0 < reads i then some (i + 1, reads i)
    else if stNow.recvGoesOn stEnd then sessionRecvWaitFrom stNow stEnd reads n (i + 1)
    else some (i + 1, reads i)

/-- What the calls of the functions give. -/
structure WaitEnv where
  /-- The write function of the type. -/
  iSendDataLen : Int
  /-- The pushes to the send queue. -/
  pushed : Nat → Int
  /-- The pop from the queue that is waited for, and the length that comes with it. -/
  popped : Int
  poppedLen : Int
  stNow : ClockTime
  /-- The read function of the type, call after call. -/
  reads : Nat → Int

def sessionSendErr : Int := -272

def timeOutErr : Int := -260

/-- `SESSION_PUSH_MAX_NUM`. -/
def sessionPushMaxNum : Nat := 3

/-- What a call returns, and its wait, if it came to one. -/
structure Waited where
  iRet : Int
  wait : Option (Nat × Int)
deriving DecidableEq

/-- `session_send`; a loop that is not left within `n` rounds is `none`. -/
def sessionSend (n : Nat) (pSendData : SessionData) (hasRecvData : Bool) (iTimeOut : Int)
    (env : WaitEnv) : Option Waited :=
  if hasRecvData ∧ iTimeOut < 0 then some ⟨generalErr, none⟩
  else if pSendData.iSessionType.info.iAsyn then
    if ∀ i < sessionPushMaxNum, env.pushed i < 0 then some ⟨generalErr, none⟩
    else if pSendData.iSync = 1 ∧ hasRecvData ∧ env.popped < 0 then some ⟨generalErr, none⟩
    else some ⟨pSendData.iDataLen, none⟩
  else if env.iSendDataLen ≠ pSendData.iDataLen then some ⟨generalErr, none⟩
  else if pSendData.iSync = 1 ∧ hasRecvData then
    (sessionSendWaitFrom env.stNow (env.stNow.ending iTimeOut) env.reads n 0 0).map fun w =>
      ⟨pSendData.iDataLen, some w⟩
  else some ⟨pSendData.iDataLen, none⟩

/-- `session_recv` on a session of this type, if it is found. -/
def sessionRecv (n : Nat) (found : Option SessionType) (iTimeOut : Int) (env : WaitEnv) :
    Option Waited :=
  if 0 ≤ env.popped then some ⟨env.poppedLen, none⟩
  else
    match found with
    | none => some ⟨generalErr, none⟩
    | some iSessionType =>
      if iSessionType.info.iAsyn then some ⟨generalErr, none⟩
      else
        (sessionRecvWaitFrom env.stNow (env.stNow.ending iTimeOut) env.reads n 0).map fun w =>
          ⟨if 0 ≤ w.2 then generalErr else w.2, some w⟩

/-! ## When the loops are to be left -/

/-- A wait that is left after `k` reads: at the first that gives something, or before a round that
is too late. -/
def LeavesAfter (late : Nat → Prop) (reads : Nat → Int) (k : Nat) : Prop :=
  (∀ i < k, ¬ late i) ∧
    (((∀ i < k, reads i ≤ 0) ∧ late k) ∨ ∃ j, k = j + 1 ∧ (∀ i < j, reads i ≤ 0) ∧ 0 < reads j)

/-- A round of `session_send` begins too late when the time is over. -/
def sendLate (iTimeOut : Int) (elapsed : Nat → Nat) (i : Nat) : Prop := iTimeOut < elapsed i

/-- The first round of `session_recv` never begins too late, the others when the time is up. -/
def recvLate (iTimeOut : Int) (elapsed : Nat → Nat) (i : Nat) : Prop :=
  0 < i ∧ iTimeOut ≤ elapsed i

/-- What `session_recv` is to return for what it read last. -/
def RecvReturns (len iRet : Int) : Prop := if 0 < len then iRet = len else iRet < 0

/-- The milliseconds of the end are not below those of the start: the loop of `session_send` never
sees the time as over. -/
def ClockTime.SendWaits (stNow : ClockTime) (iTimeOut : Int) : Prop :=
  stNow.uiMsec.toNat ≤ (stNow.uiMsec.toNat + iTimeOut.toNat) % 1000

/-- They are above those of the start, for `session_recv`. -/
def ClockTime.RecvWaits (stNow : ClockTime) (iTimeOut : Int) : Prop :=
  stNow.uiMsec.toNat < (stNow.uiMsec.toNat + iTimeOut.toNat) % 1000

instance ClockTime.decidableSendWaits (stNow : ClockTime) (iTimeOut : Int) :
    Decidable (stNow.SendWaits iTimeOut) := inferInstanceAs (Decidable (_ ≤ _))

instance ClockTime.decidableRecvWaits (stNow : ClockTime) (iTimeOut : Int) :
    Decidable (stNow.RecvWaits iTimeOut) := inferInstanceAs (Decidable (_ < _))

section

variable {stNow : ClockTime} {iTimeOut : Int} {reads : Nat → Int}

theorem toNat_ending (hm : stNow.uiMsec.toNat < 1000) (h0 : 0 ≤ iTimeOut)
    (hint : iTimeOut < 2 ^ 31) :
    (stNow.ending iTimeOut).uiMsec.toNat = (stNow.uiMsec.toNat + iTimeOut.toNat) % 1000 := by
  have hout : (UInt32.ofInt iTimeOut).toNat = iTimeOut.toNat := by
    rw [UInt32.ofInt, UInt32.toNat_ofNat']
    omega
  have hsum : (stNow.uiMsec + UInt32.ofInt iTimeOut).toNat =
      stNow.uiMsec.toNat + iTimeOut.toNat := by
    rw [UInt32.toNat_add, hout]
    omega
  rw [ClockTime.ending, UInt32.toNat_mod, hsum]
  rfl

theorem sendGoesOn_iff (hm : stNow.uiMsec.toNat < 1000) (h0 : 0 ≤ iTimeOut)
    (hint : iTimeOut < 2 ^ 31) :
    stNow.sendGoesOn (stNow.ending iTimeOut) = true ↔ stNow.SendWaits iTimeOut := by
  have husec : (stNow.ending iTimeOut).uiUsec = stNow.uiUsec := rfl
  rw [ClockTime.sendGoesOn, husec, ClockTime.SendWaits, ← toNat_ending hm h0 hint,
    ← UInt32.le_iff_toNat_le]
  simp

theorem recvGoesOn_iff (hm : stNow.uiMsec.toNat < 1000) (h0 : 0 ≤ iTimeOut)
    (hint : iTimeOut < 2 ^ 31) :
    stNow.recvGoesOn (stNow.ending iTimeOut) = true ↔ stNow.RecvWaits iTimeOut := by
  have husec : (stNow.ending iTimeOut).uiUsec = stNow.uiUsec := rfl
  rw [ClockTime.recvGoesOn, husec, ClockTime.RecvWaits, ← toNat_ending hm h0 hint,
    ← UInt32.lt_iff_toNat_lt]
  simp

/-! ## Loops that see no end -/

/-- Reading until something comes. -/
def pollFrom (reads : Nat → Int) : Nat → Nat → Option (Nat × Int)
  | 0, _ => none
  | n + 1, i => if 0 < reads i then some (i + 1, reads i) else pollFrom reads n (i + 1)

theorem sessionSendWaitFrom_eq_poll {stEnd : ClockTime} (hgo : stNow.sendGoesOn stEnd = true)
    (n i : Nat)
    (len : Int) : sessionSendWaitFrom stNow stEnd reads n i len = pollFrom reads n i := by
  induction n generalizing i len with
  | zero => rfl
  | succ n ih => rw [sessionSendWaitFrom, if_pos hgo, pollFrom, ih]

theorem sessionRecvWaitFrom_eq_poll {stEnd : ClockTime} (hgo : stNow.recvGoesOn stEnd = true)
    (n i : Nat) : sessionRecvWaitFrom stNow stEnd reads n i = pollFrom reads n i := by
  induction n generalizing i with
  | zero => rfl
  | succ n ih => rw [sessionRecvWaitFrom, if_pos hgo, pollFrom, ih]

theorem of_pollFrom {n i k : Nat} {len : Int} (h : pollFrom reads n i = some (k, len)) :
    ∃ j, k = j + 1 ∧ (∀ m, i ≤ m → m < j → reads m ≤ 0) ∧ 0 < reads j ∧ len = reads j := by
  induction n generalizing i with
  | zero => cases h
  | succ n ih =>
    rw [pollFrom] at h
    split at h
    · rename_i hpos
      cases h
      exact ⟨i, rfl, fun m hle hlt => absurd hle (not_le.mpr hlt), hpos, rfl⟩
    · rename_i hnot
      obtain ⟨j, hk, hbefore, hpos, hlen⟩ := ih h
      refine ⟨j, hk, fun m hle hlt => ?_, hpos, hlen⟩
      rcases eq_or_lt_of_le hle with rfl | hlt'
      · exact Int.not_lt.mp hnot
      · exact hbefore m hlt' hlt

theorem pollFrom_of_first {i j : Nat} (hbefore : ∀ m, i ≤ m → m < i + j → reads m ≤ 0)
    (hpos : 0 < reads (i + j)) : pollFrom reads (j + 1) i = some (i + j + 1, reads (i + j)) := by
  induction j generalizing i with
  | zero => exact if_pos hpos
  | succ j ih =>
    have hfirst : ¬ 0 < reads i := Int.not_lt.mpr (hbefore i le_rfl (by omega))
    have hrest := ih (i := i + 1) (fun m hle hlt => hbefore m (by omega) (by omega))
      (by rwa [add_right_comm, add_assoc])
    rw [pollFrom, if_neg hfirst, hrest, add_right_comm i 1 j, add_assoc i j 1]

end

/-! ## The waits -/

section

variable {iTimeOut : Int} {elapsed : Nat → Nat} {env : WaitEnv}

theorem elapsed_mono (hstep : ∀ i, elapsed i + 100 ≤ elapsed (i + 1)) : Monotone elapsed :=
  monotone_nat_of_le_succ fun i => (le_add_right _ 100).trans (hstep i)

/-- `session_send` leaves its wait when it should exactly if it sees no end, and something comes
in time. -/
theorem sessionSend_leaves_iff {d : SessionData} (hasyn : d.iSessionType.info.iAsyn = false)
    (hsync : d.iSync = 1) (hsend : env.iSendDataLen = d.iDataLen)
    (hm : env.stNow.uiMsec.toNat < 1000) (h0 : 0 ≤ iTimeOut) (hint : iTimeOut < 2 ^ 31)
    (hstart : elapsed 0 = 0) (hstep : ∀ i, elapsed i + 100 ≤ elapsed (i + 1)) :
    (∃ n k len, sessionSend n d true iTimeOut env = some ⟨d.iDataLen, some (k, len)⟩ ∧
        LeavesAfter (sendLate iTimeOut elapsed) env.reads k) ↔
      env.stNow.SendWaits iTimeOut ∧
        ∃ j, (∀ i < j, env.reads i ≤ 0) ∧ 0 < env.reads j ∧ (elapsed j : Int) ≤ iTimeOut := by
  have heq (n : Nat) : sessionSend n d true iTimeOut env =
      (sessionSendWaitFrom env.stNow (env.stNow.ending iTimeOut) env.reads n 0 0).map fun w =>
        ⟨d.iDataLen, some w⟩ := by
    rw [sessionSend, if_neg (fun h => absurd h.2 (Int.not_lt.mpr h0)), hasyn,
      if_neg Bool.false_ne_true, if_neg (not_not_intro hsend), if_pos ⟨hsync, rfl⟩]
  have hmono := elapsed_mono hstep
  by_cases hgo : env.stNow.sendGoesOn (env.stNow.ending iTimeOut) = true
  · rw [and_iff_right ((sendGoesOn_iff hm h0 hint).mp hgo)]
    constructor
    · rintro ⟨n, k, len, hret, hlate, -⟩
      rw [heq, sessionSendWaitFrom_eq_poll hgo] at hret
      obtain ⟨w, hw, heq'⟩ := map_eq_some_iff.mp hret
      obtain rfl : w = (k, len) := some.inj (congrArg Waited.wait heq')
      obtain ⟨j, rfl, hbefore, hpos, -⟩ := of_pollFrom hw
      exact ⟨j, fun i hi => hbefore i (zero_le i) hi, hpos,
        Int.not_lt.mp (hlate j (lt_succ_self j))⟩
    · rintro ⟨j, hbefore, hpos, hle⟩
      have hpoll : pollFrom env.reads (j + 1) 0 = some (0 + j + 1, env.reads (0 + j)) :=
        pollFrom_of_first (fun m _ hlt => hbefore m (zero_add j ▸ hlt))
          ((zero_add j).symm ▸ hpos)
      refine ⟨j + 1, j + 1, env.reads j, ?_, fun i hi hlate => ?_, Or.inr ⟨j, rfl, hbefore, hpos⟩⟩
      · rw [heq, sessionSendWaitFrom_eq_poll hgo, hpoll, zero_add]
        rfl
      · have hij := hmono (le_of_lt_succ hi)
        have hover : iTimeOut < elapsed i := hlate
        omega
  · refine iff_of_false ?_ fun h => hgo ((sendGoesOn_iff hm h0 hint).mpr h.1)
    -- the loop is not entered, and at its start no time is over
    rintro ⟨n, k, len, hret, -, hleft⟩
    rw [heq] at hret
    obtain ⟨w, hw, heq'⟩ := map_eq_some_iff.mp hret
    obtain rfl : w = (k, len) := some.inj (congrArg Waited.wait heq')
    cases n with
    | zero => cases hw
    | succ n =>
      rw [sessionSendWaitFrom, if_neg hgo] at hw
      cases hw
      rcases hleft with ⟨-, hlate⟩ | ⟨j, hj, -⟩
      · have hover : iTimeOut < elapsed 0 := hlate
        rw [hstart] at hover
        exact absurd h0 (Int.not_le.mpr hover)
      · cases hj

/-- `session_recv` leaves its wait when it should and returns what it should exactly if it sees an
end at once, nothing comes first, and the time is up after one round. -/
theorem sessionRecv_leaves_iff {iSessionType : SessionType}
    (hasyn : iSessionType.info.iAsyn = false) (hpop : env.popped < 0)
    (hm : env.stNow.uiMsec.toNat < 1000) (h0 : 0 ≤ iTimeOut) (hint : iTimeOut < 2 ^ 31) :
    (∃ n k len iRet, sessionRecv n (some iSessionType) iTimeOut env = some ⟨iRet, some (k, len)⟩ ∧
        LeavesAfter (recvLate iTimeOut elapsed) env.reads k ∧ RecvReturns len iRet) ↔
      ¬ env.stNow.RecvWaits iTimeOut ∧ env.reads 0 ≤ 0 ∧ iTimeOut ≤ elapsed 1 := by
  have heq (n : Nat) : sessionRecv n (some iSessionType) iTimeOut env =
      (sessionRecvWaitFrom env.stNow (env.stNow.ending iTimeOut) env.reads n 0).map fun w =>
        ⟨if 0 ≤ w.2 then generalErr else w.2, some w⟩ := by
    rw [sessionRecv, if_neg (Int.not_le.mpr hpop)]
    simp only [hasyn, if_neg Bool.false_ne_true]
  -- what was read is not returned
  have hread {len iRet : Int} (hpos : 0 < len)
      (hret : iRet = if 0 ≤ len then generalErr else len) : ¬ RecvReturns len iRet := by
    rw [if_pos hpos.le] at hret
    rw [RecvReturns, if_pos hpos, hret, generalErr]
    omega
  by_cases hgo : env.stNow.recvGoesOn (env.stNow.ending iTimeOut) = true
  · refine iff_of_false ?_ fun h => h.1 ((recvGoesOn_iff hm h0 hint).mp hgo)
    rintro ⟨n, k, len, iRet, hret, -, hreturns⟩
    rw [heq, sessionRecvWaitFrom_eq_poll hgo] at hret
    obtain ⟨w, hw, heq'⟩ := map_eq_some_iff.mp hret
    obtain rfl : w = (k, len) := some.inj (congrArg Waited.wait heq')
    obtain ⟨j, -, -, hpos, rfl⟩ := of_pollFrom hw
    exact hread hpos (congrArg Waited.iRet heq').symm hreturns
  · rw [and_iff_right (mt (recvGoesOn_iff hm h0 hint).mpr hgo)]
    have hloop (n : Nat) : sessionRecvWaitFrom env.stNow (env.stNow.ending iTimeOut) env.reads
        (n + 1) 0 = some (1, env.reads 0) := by
      rw [sessionRecvWaitFrom, if_neg hgo]
      exact ite_self _
    constructor
    · rintro ⟨n, k, len, iRet, hret, ⟨-, hleft⟩, hreturns⟩
      rw [heq] at hret
      obtain ⟨w, hw, heq'⟩ := map_eq_some_iff.mp hret
      obtain rfl : w = (k, len) := some.inj (congrArg Waited.wait heq')
      cases n with
      | zero => cases hw
      | succ n =>
        rw [hloop] at hw
        obtain ⟨rfl, rfl⟩ := Prod.mk.inj (some.inj hw)
        rcases hleft with ⟨hbefore, hlate⟩ | ⟨j, hj, -, hpos⟩
        · exact ⟨hbefore 0 one_pos, hlate.2⟩
        · obtain rfl : 0 = j := succ.inj hj
          exact absurd hreturns (hread hpos (congrArg Waited.iRet heq').symm)
    · rintro ⟨hzero, hle⟩
      refine ⟨1, 1, env.reads 0, _, by rw [heq, hloop]; rfl,
        ⟨?_, Or.inl ⟨?_, one_pos, hle⟩⟩, ?_⟩
      · intro i hi hlate
        exact absurd hlate.1 (by omega)
      · intro i hi
        rwa [lt_one_iff.mp hi]
      · rw [RecvReturns, if_neg (Int.not_lt.mpr hzero)]
        split
        · decide
        · rename_i hneg
          exact Int.not_le.mp hneg

end

/-- Both waits on a session that is not served asynchronously: that of `session_send` is left when
it should exactly if the milliseconds of the end are not below those of the start and something
comes in time, and that of `session_recv` is, with what it is to return, exactly if the milliseconds
of the end are not above those of the start, nothing comes at once and the time is up after a
round. -/
theorem sync_waits_iff (iSessionType : SessionType) (hasyn : iSessionType.info.iAsyn = false)
    (iTimeOut : Int) (h0 : 0 ≤ iTimeOut) (hint : iTimeOut < 2 ^ 31) (elapsed : Nat → Nat)
    (hstart : elapsed 0 = 0) (hstep : ∀ i, elapsed i + 100 ≤ elapsed (i + 1)) (env : WaitEnv)
    (hm : env.stNow.uiMsec.toNat < 1000) (d : SessionData) (hd : d.iSessionType = iSessionType)
    (hsync : d.iSync = 1) (hsend : env.iSendDataLen = d.iDataLen) (hpop : env.popped < 0) :
    ((∃ n k len, sessionSend n d true iTimeOut env = some ⟨d.iDataLen, some (k, len)⟩ ∧
        LeavesAfter (sendLate iTimeOut elapsed) env.reads k) ↔
      env.stNow.SendWaits iTimeOut ∧
        ∃ j, (∀ i < j, env.reads i ≤ 0) ∧ 0 < env.reads j ∧ (elapsed j : Int) ≤ iTimeOut) ∧
    ((∃ n k len iRet, sessionRecv n (some iSessionType) iTimeOut env =
          some ⟨iRet, some (k, len)⟩ ∧
        LeavesAfter (recvLate iTimeOut elapsed) env.reads k ∧ RecvReturns len iRet) ↔
      ¬ env.stNow.RecvWaits iTimeOut ∧ env.reads 0 ≤ 0 ∧ iTimeOut ≤ elapsed 1) :=
  ⟨sessionSend_leaves_iff (hd ▸ hasyn) hsync hsend hm h0 hint hstart hstep,
    sessionRecv_leaves_iff hasyn hpop hm h0 hint⟩

/-- A message that is sent synchronously. -/
def asked : SessionData := ⟨.i2c, 7, 1, 0, none, 1, [0]⟩

/-- A wait from these milliseconds on, with a first read and the others. -/
def waiting (uiMsec : UInt32) (first later : Int) : WaitEnv where
  iSendDataLen := 1
  pushed := fun _ => 0
  popped := -1
  poppedLen := 0
  stNow := ⟨9, uiMsec, 0⟩
  reads := fun i => if i = 0 then first else later

/-- A response at the second read, and a wait of one round for nothing. -/
theorem sync_waits_sample :
    (∃ n k len, sessionSend n asked true 500 (waiting 100 0 4) = some ⟨1, some (k, len)⟩ ∧
        LeavesAfter (sendLate 500 fun i => 100 * i) (waiting 100 0 4).reads k) ∧
      ∃ n k len iRet, sessionRecv n (some .i2c) 100 (waiting 950 0 0) =
          some ⟨iRet, some (k, len)⟩ ∧
        LeavesAfter (recvLate 100 fun i => 100 * i) (waiting 950 0 0).reads k ∧
          RecvReturns len iRet := by
  refine ⟨(sync_waits_iff .i2c rfl 500 (by decide) (by decide) (fun i => 100 * i) rfl
      (fun i => le_rfl) (waiting 100 0 4) (by decide) asked rfl rfl rfl (by decide)).1.mpr
        ⟨by decide +kernel, 1, by decide +kernel, by decide +kernel, by decide⟩,
    (sync_waits_iff .i2c rfl 100 (by decide) (by decide) (fun i => 100 * i) rfl
      (fun i => le_rfl) (waiting 950 0 0) (by decide) asked rfl rfl rfl (by decide)).2.mpr
        ⟨by decide +kernel, by decide +kernel, by decide⟩⟩

/-- A wait that starts late in the second: `session_send` reads nothing although something is
there, and `session_recv` reads it and returns an error. -/
theorem sync_waits_fail :
    sessionSend 1 asked true 200 (waiting 900 4 4) = some ⟨1, some (0, 0)⟩ ∧
      ¬ LeavesAfter (sendLate 200 fun i => 100 * i) (waiting 900 4 4).reads 0 ∧
      sessionRecv 1 (some .i2c) 200 (waiting 900 4 4) = some ⟨-1, some (1, 4)⟩ ∧
      ¬ RecvReturns 4 (-1) := by
  refine ⟨by decide +kernel, ?_, by decide +kernel, ?_⟩
  · rintro ⟨-, ⟨-, hlate⟩ | ⟨j, hj, -⟩⟩
    · exact absurd hlate (by rw [sendLate]; decide)
    · cases hj
  · rw [RecvReturns]
    decide

end Honyar.Sessions
