import Honyar.Sessions.Payload

/-!
# The packets of a chunk

`_session_report_protocol_data`: a callback cuts packets off the bytes that were received, another
one may reject a packet, and the others go to whoever waits for them.  A rejected packet is to be
dropped, but the function returns there, and the bytes behind it are lost.  A packet that answers
a message sent neither synchronously nor asynchronously goes nowhere.
-/

namespace Honyar.Sessions

open Option

variable {ρ : Type}

/-- The callbacks of a session for what it receives; the parser has a state of its own. -/
structure RecvCallbacks (ρ : Type) where
  /-- How many of the bytes remain, and the packet in front of them. -/
  pDataSplitCombineCb : List UInt8 → Int × List UInt8
  /-- What is returned, and what is made of the data. -/
  pDataParserCb : Option (ρ → SessionData → ρ × Int × SessionData)

/-- The session that receives. -/
structure Receiver (ρ : Type) where
  cbs : RecvCallbacks ρ
  iSessionType : SessionType
  iSessionId : Id

/-- What the function changes. -/
structure Received (ρ : Type) where
  parser : ρ
  loop : SendLoop

/-- What is done with a packet. -/
inductive PacketOut where
  /-- The parser was called, and returned this. -/
  | parsed (uacRecvData : List UInt8) (iRet : Int)
  | out (o : LoopOut)

namespace Receiver

/-- `stSessionRecvData` of a packet. -/
def sessionData (v : Receiver ρ) (uacRecvData : List UInt8) : SessionData :=
  ⟨v.iSessionType, v.iSessionId, 0, 0, none, uacRecvData.length, uacRecvData⟩

/-- The parser on a packet, if there is one: its state, the data unless it is rejected, and that
it was called. -/
def parse (v : Receiver ρ) (u : ρ) (uacRecvData : List UInt8) :
    ρ × Option SessionData × List PacketOut :=
  match v.cbs.pDataParserCb with
  | none => (u, some (v.sessionData uacRecvData), [])
  | some cb =>
    let r := cb u (v.sessionData uacRecvData)
    (r.1, if r.2.1 < 0 then none else some r.2.2, [.parsed uacRecvData r.2.1])

/-- The loop of `_session_report_protocol_data`, with this many bytes remaining. -/
def sessionReportProtocolDataFrom (v : Receiver ρ) (pData : List UInt8) :
    Nat → Int → Received ρ → Option (Received ρ × List PacketOut)
  | 0, iRemainingDataLen, x => if iRemainingDataLen ≤ 0 then some (x, []) else none
  | n + 1, iRemainingDataLen, x =>
    if iRemainingDataLen ≤ 0 then some (x, [])
    else
      let cut := v.cbs.pDataSplitCombineCb (pData.drop (pData.length - iRemainingDataLen).toNat)
      if cut.2.length = 0 then sessionReportProtocolDataFrom v pData n cut.1 x
      else
        match v.parse x.parser cut.2 with
        -- the comment there says to go on with the data behind it
        | (u, none, log) => some ({ x with parser := u }, log)
        | (u, some d, log) => do
          let (z, os) ← x.loop.reportProtocolData v.iSessionId d
          let (x, os') ← sessionReportProtocolDataFrom v pData n cut.1 ⟨u, z⟩
          return (x, log ++ os.map .out ++ os')

/-- `_session_report_protocol_data`. -/
def sessionReportProtocolData (v : Receiver ρ) (pData : List UInt8) (x : Received ρ) :
    Option (Received ρ × List PacketOut) :=
  sessionReportProtocolDataFrom v pData pData.length pData.length x

end Receiver

/-! ## What is to happen to the packets -/

/-- The callback cuts a packet off, and returns how many bytes remain. -/
def Cuts (split : List UInt8 → Int × List UInt8) : Prop :=
  ∀ bs, bs ≠ [] → ∃ n : Nat, n < bs.length ∧ split bs = ((n : Int), bs.take (bs.length - n))

/-- The packets of a chunk. -/
def packetsFrom (split : List UInt8 → Int × List UInt8) : Nat → List UInt8 → List (List UInt8)
  | 0, _ => []
  | n + 1, bs =>
    if bs = [] then []
    else
      let cut := split bs
      cut.2 :: packetsFrom split n (bs.drop (bs.length - cut.1).toNat)

def packets (split : List UInt8 → Int × List UInt8) (bs : List UInt8) : List (List UInt8) :=
  packetsFrom split bs.length bs

/-- The oldest message of a session that waits for this response. -/
def SendLoop.request? (z : SendLoop) (iSessionId : Id) (d : SessionData) : Option SessionData := do
  let s ← z.sessions iSessionId
  let r ← s.pstDataRepeater
  let cb ← s.pRespondMatchingCb
  let q ← r.pending.find? fun q => cb q.2.aucData d
  return q.2.aucData

/-- Where a packet belongs: to who waits for it, if its message was sent synchronously. -/
def SendLoop.deliver (z : SendLoop) (iSessionId : Id) (d : SessionData) : LoopOut :=
  if (z.request? iSessionId d).any fun m => m.iSync = 1 then .syncRecv d else .report d

namespace Receiver

/-- A packet is dropped if the parser rejects it, and delivered otherwise. -/
def handle (v : Receiver ρ) (x : Received ρ) (uacRecvData : List UInt8) :
    Option (Received ρ × List PacketOut) :=
  match v.parse x.parser uacRecvData with
  | (u, none, log) => some ({ x with parser := u }, log)
  | (u, some d, log) =>
    (x.loop.reportProtocolData v.iSessionId d).map fun r =>
      (⟨u, r.1⟩, log ++ [.out (x.loop.deliver v.iSessionId d)])

/-- No packet follows a rejected one, and the messages that are answered were sent synchronously
or asynchronously. -/
def Unbroken (v : Receiver ρ) : Received ρ → List (List UInt8) → Prop
  | _, [] => True
  | x, p :: ps =>
    match v.parse x.parser p with
    | (_, none, _) => ps = []
    | (u, some d, _) =>
      (∀ m ∈ x.loop.request? v.iSessionId d, m.iSync = 0 ∨ m.iSync = 1) ∧
        ∀ r ∈ x.loop.reportProtocolData v.iSessionId d, Unbroken v ⟨u, r.1⟩ ps

end Receiver

/-! ## One packet -/

/-- The session is there, and the list of its repeater is well formed. -/
def SendLoop.Attends (z : SendLoop) (iSessionId : Id) : Prop :=
  ∃ s, z.sessions iSessionId = some s ∧
    ∀ r, s.pstDataRepeater = some r → ∃ t n f, r.Stands t n f r.pending

namespace SendLoop

variable {z : SendLoop} {id : Id} {d : SessionData}

theorem attends_setSession {s : Sending}
    (h : ∀ r, s.pstDataRepeater = some r → ∃ t n f, r.Stands t n f r.pending) :
    (z.setSession id (some s)).Attends id :=
  ⟨s, Function.update_self .., h⟩

theorem answered_of_flag {m : SessionData} (h : m.iSync = 0 ∨ m.iSync = 1) (d : SessionData) :
    m.answered d = [if m.iSync = 1 then .syncRecv d else .report d] := by
  rcases h with h | h
  · rw [SessionData.answered, h]
    rfl
  · rw [SessionData.answered, h]
    rfl

theorem answered_of_not_flag {m : SessionData} (h : ¬ (m.iSync = 0 ∨ m.iSync = 1))
    (d : SessionData) : m.answered d = [] := by
  rw [not_or] at h
  rw [SessionData.answered, if_neg h.1, if_neg h.2]

/-- A packet is delivered, except as an answer to a message whose flag is neither. -/
theorem Attends.reportProtocolData (hz : z.Attends id) (d : SessionData) :
    ∃ z' os, z.reportProtocolData id d = some (z', os) ∧ z'.Attends id ∧
      ((∀ m ∈ z.request? id d, m.iSync = 0 ∨ m.iSync = 1) → os = [z.deliver id d]) ∧
      ((¬ ∀ m ∈ z.request? id d, m.iSync = 0 ∨ m.iSync = 1) → os = []) := by
  obtain ⟨s, hs, hstands⟩ := hz
  -- nothing can wait for a response
  have hplain (hnone : z.request? id d = none)
      (hreport : z.reportProtocolData id d = some (z, [.report d])) :
      ∃ z' os, z.reportProtocolData id d = some (z', os) ∧ z'.Attends id ∧
        ((∀ m ∈ z.request? id d, m.iSync = 0 ∨ m.iSync = 1) → os = [z.deliver id d]) ∧
        ((¬ ∀ m ∈ z.request? id d, m.iSync = 0 ∨ m.iSync = 1) → os = []) := by
    refine ⟨z, _, hreport, ⟨s, hs, hstands⟩, fun _ => ?_, fun h => ?_⟩
    · rw [deliver, hnone]
      rfl
    · exact absurd (by simp [hnone]) h
  cases hrep : s.pstDataRepeater with
  | none =>
    refine hplain ?_ ?_
    · simp [request?, hs, hrep]
    · simp [SendLoop.reportProtocolData, hs, hrep]
  | some r =>
    cases hcb : s.pRespondMatchingCb with
    | none =>
      refine hplain ?_ ?_
      · simp [request?, hs, hrep, hcb]
      · simp [SendLoop.reportProtocolData, hs, hrep, hcb]
    | some cb =>
      obtain ⟨t, n, f, hr⟩ := hstands r hrep
      have hlen : ¬ (sizeofSessionData ≤ 0 ∨ sizeofSessionData ≤ 0) := by decide
      obtain ⟨r', os, hpush, hcases⟩ := hr.respondPush cb d hlen
      have hreport := reportProtocolData_eq hs hrep hcb hpush
      have hrequest : z.request? id d =
          (r.pending.find? fun q => cb q.2.aucData d).map fun q => q.2.aucData := by
        simp only [request?, hs, hrep, hcb, bind_eq_bind, bind_some]
        cases r.pending.find? fun q => cb q.2.aucData d <;> rfl
      cases hfind : r.pending.find? fun q => cb q.2.aucData d with
      | none =>
        simp only [hfind] at hcases hrequest
        obtain ⟨hr', rfl⟩ := hcases
        refine ⟨_, _, hreport, attends_setSession ?_, fun _ => ?_, fun h => ?_⟩
        · rintro r'' heq
          obtain rfl := some.inj heq
          exact ⟨t, n, f, hr'.pending ▸ hr'⟩
        · rw [deliver, hrequest]
          rfl
        · exact absurd (by simp [hrequest]) h
      | some q =>
        simp only [hfind] at hcases hrequest
        obtain ⟨hr', rfl⟩ := hcases
        refine ⟨_, _, hreport, ?_, fun h => ?_, fun h => ?_⟩
        · refine attends_setSession (z := z) ?_
          rintro r'' heq
          obtain rfl := some.inj heq
          exact ⟨t, n, f, hr'.pending ▸ hr'⟩
        · rw [hrequest] at h
          have hflag := h q.2.aucData rfl
          rw [deliver, hrequest]
          simp only [map_some, any_some, decide_eq_true_eq]
          exact answered_of_flag hflag d
        · rw [hrequest] at h
          refine answered_of_not_flag (fun hflag => h ?_) d
          rintro m hm
          obtain rfl := some.inj hm
          exact hflag

end SendLoop

namespace Receiver

variable {v : Receiver ρ} {x : Received ρ}
variable {u : ρ} {p : List UInt8} {log : List PacketOut}

theorem length_parse_of_rejected {u' : ρ} (h : v.parse u p = (u', none, log)) :
    log.length = 1 ∧ ∀ u₁ p₁, (v.parse u₁ p₁).2.2.length = 1 := by
  cases hcb : v.cbs.pDataParserCb with
  | none =>
    rw [parse, hcb] at h
    cases h
  | some cb =>
    have hlog (u₁ : ρ) (p₁ : List UInt8) : (v.parse u₁ p₁).2.2.length = 1 := by
      rw [parse, hcb]
      rfl
    have hfirst := hlog u p
    rw [h] at hfirst
    exact ⟨hfirst, hlog⟩

/-! ## The loop, packet by packet -/

/-- What the loop does with packets. -/
def hear (v : Receiver ρ) : Received ρ → List (List UInt8) → Option (Received ρ × List PacketOut)
  | x, [] => some (x, [])
  | x, p :: ps =>
    match v.parse x.parser p with
    | (u, none, log) => some ({ x with parser := u }, log)
    | (u, some d, log) => do
      let (z, os) ← x.loop.reportProtocolData v.iSessionId d
      let (x, os') ← hear v ⟨u, z⟩ ps
      return (x, log ++ os.map .out ++ os')

theorem sessionReportProtocolDataFrom_zero (pData : List UInt8) (n : Nat) (x : Received ρ) :
    v.sessionReportProtocolDataFrom pData n 0 x = some (x, []) := by
  cases n <;> rfl

theorem sessionReportProtocolDataFrom_eq (hcut : Cuts v.cbs.pDataSplitCombineCb)
    {pData bs : List UInt8} {n : Nat} (hlen : bs.length ≤ n)
    (hbs : pData.drop (pData.length - bs.length) = bs) (hle : bs.length ≤ pData.length) :
    v.sessionReportProtocolDataFrom pData n bs.length x =
      v.hear x (packetsFrom v.cbs.pDataSplitCombineCb n bs) := by
  induction n generalizing bs x with
  | zero =>
    obtain rfl := List.eq_nil_of_length_eq_zero (Nat.le_zero.mp hlen)
    rfl
  | succ n ih =>
    by_cases hnil : bs = []
    · subst hnil
      rw [packetsFrom, if_pos rfl]
      exact sessionReportProtocolDataFrom_zero pData _ x
    · have hpos : 0 < bs.length := List.length_pos_iff.mpr hnil
      obtain ⟨k, hk, hsplit⟩ := hcut bs hnil
      have hcur : pData.drop ((pData.length : Int) - (bs.length : Int)).toNat = bs := by
        rw [← Int.ofNat_sub hle, Int.toNat_natCast, hbs]
      have hrest : bs.drop ((bs.length : Int) - (k : Int)).toNat = bs.drop (bs.length - k) := by
        rw [← Int.ofNat_sub hk.le, Int.toNat_natCast]
      have hrestlen : (bs.drop (bs.length - k)).length = k := by
        rw [List.length_drop]
        omega
      have hpacket : ¬ (bs.take (bs.length - k)).length = 0 := by
        rw [List.length_take]
        omega
      have hih (y : Received ρ) : v.sessionReportProtocolDataFrom pData n k y =
          v.hear y (packetsFrom v.cbs.pDataSplitCombineCb n (bs.drop (bs.length - k))) := by
        have hdrop : pData.drop (pData.length - k) = bs.drop (bs.length - k) := by
          have htwice := congrArg (List.drop (bs.length - k)) hbs
          have hsum : pData.length - bs.length + (bs.length - k) = pData.length - k := by omega
          rwa [List.drop_drop, hsum] at htwice
        have hrestle : (bs.drop (bs.length - k)).length ≤ n := by omega
        have h := ih (x := y) hrestle (by rw [hrestlen, hdrop]) (by omega)
        rwa [hrestlen] at h
      rw [sessionReportProtocolDataFrom, if_neg (by omega), packetsFrom, if_neg hnil]
      simp only [hcur, hsplit, if_neg hpacket, hrest, hear, hih]

/-! ## The packets that are heard -/

theorem handle_of_rejected (h : v.parse x.parser p = (u, none, log)) :
    v.handle x p = some ({ x with parser := u }, log) := by
  rw [handle, h]

theorem handle_of_accepted {d : SessionData} (h : v.parse x.parser p = (u, some d, log)) :
    v.handle x p = (x.loop.reportProtocolData v.iSessionId d).map fun r =>
      (⟨u, r.1⟩, log ++ [.out (x.loop.deliver v.iSessionId d)]) := by
  rw [handle, h]

theorem length_of_handle (hparse : ∀ u p, (v.parse u p).2.2.length = 1) {x' : Received ρ}
    {os : List PacketOut} (h : v.handle x p = some (x', os)) : 0 < os.length := by
  have hlog := hparse x.parser p
  cases hcases : v.parse x.parser p with
  | mk u r =>
    obtain ⟨d, log⟩ := r
    rw [hcases] at hlog
    cases d with
    | none =>
      rw [handle_of_rejected hcases] at h
      cases h
      exact hlog ▸ Nat.one_pos
    | some d =>
      rw [handle_of_accepted hcases] at h
      obtain ⟨r, -, heq⟩ := map_eq_some_iff.mp h
      cases heq
      rw [List.length_append]
      exact Nat.lt_of_lt_of_le Nat.one_pos (hlog ▸ Nat.le_add_right ..)

/-- The packets are all handled; the loop does the same when none is rejected before another, and
does less otherwise. -/
theorem hear_handle (hx : x.loop.Attends v.iSessionId) (ps : List (List UInt8)) :
    ∃ x₁ x₂ os₁ os₂, v.hear x ps = some (x₁, os₁) ∧ Run.run v.handle x ps = some (x₂, os₂) ∧
      (v.Unbroken x ps → x₁ = x₂ ∧ os₁ = os₂) ∧
      (¬ v.Unbroken x ps → os₁.length < os₂.length) := by
  induction ps generalizing x with
  | nil => exact ⟨x, x, [], [], rfl, rfl, fun _ => ⟨rfl, rfl⟩, fun h => absurd trivial h⟩
  | cons p ps ih =>
    cases hcases : v.parse x.parser p with
    | mk u r =>
      obtain ⟨d, log⟩ := r
      rw [hear, Unbroken]
      simp only [hcases]
      cases d with
      | none =>
        obtain ⟨hlog, hparse⟩ := length_parse_of_rejected hcases
        obtain ⟨-, x₂, -, os₂, -, hrun, -, -⟩ := ih (x := { x with parser := u }) hx
        refine ⟨_, x₂, log, log ++ os₂, rfl, Run.run_cons.mpr
          ⟨_, log, os₂, handle_of_rejected hcases, hrun, rfl⟩, ?_, ?_⟩
        · rintro rfl
          cases hrun
          exact ⟨rfl, (List.append_nil log).symm⟩
        · intro hne
          obtain ⟨q, qs, rfl⟩ := List.exists_cons_of_ne_nil hne
          obtain ⟨y, o, os', hq, -, rfl⟩ := Run.run_cons.mp hrun
          have hpos := length_of_handle hparse hq
          rw [List.length_append, List.length_append]
          omega
      | some d =>
        obtain ⟨z, os, hreport, hz, hgood, hbad⟩ := hx.reportProtocolData d
        obtain ⟨x₁, x₂, os₁, os₂, hhear, hrun, hsame, hless⟩ := ih (x := ⟨u, z⟩) hz
        have hle : os₁.length ≤ os₂.length := by
          by_cases h : v.Unbroken ⟨u, z⟩ ps
          · rw [(hsame h).2]
          · exact (hless h).le
        have hhandle := handle_of_accepted hcases
        rw [hreport, map_some] at hhandle
        simp only [hreport, bind_eq_bind, bind_some, hhear, pure_def,
          mem_def, some.injEq, forall_eq']
        refine ⟨_, x₂, _, _, rfl, Run.run_cons.mpr ⟨_, _, os₂, hhandle, hrun, rfl⟩, ?_, ?_⟩
        · rintro ⟨hflags, hrest⟩
          obtain ⟨rfl, rfl⟩ := hsame hrest
          rw [hgood hflags]
          exact ⟨rfl, rfl⟩
        · intro hnot
          by_cases hflags : ∀ m ∈ x.loop.request? v.iSessionId d, m.iSync = 0 ∨ m.iSync = 1
          · have hrest : ¬ v.Unbroken ⟨u, z⟩ ps := fun h => hnot ⟨hflags, h⟩
            have hlt := hless hrest
            rw [hgood hflags]
            simp only [List.length_append, List.length_map, List.length_singleton]
            omega
          · rw [hbad hflags]
            simp only [List.length_append, List.map_nil, List.length_nil,
              List.length_singleton]
            omega

end Receiver

/-! ## Chunks -/

/-- The packets of a chunk are handled in order, each once, exactly when no packet follows a
rejected one and no packet answers a message whose flag is neither that of a synchronous nor that
of an asynchronous one. -/
theorem packets_handled_iff (v : Receiver ρ) (hcut : Cuts v.cbs.pDataSplitCombineCb)
    (x : Received ρ) (hx : x.loop.Attends v.iSessionId) (pData : List UInt8) :
    v.sessionReportProtocolData pData x =
        Run.run v.handle x (packets v.cbs.pDataSplitCombineCb pData) ↔
      v.Unbroken x (packets v.cbs.pDataSplitCombineCb pData) := by
  obtain ⟨x₁, x₂, os₁, os₂, hhear, hrun, hsame, hless⟩ :=
    v.hear_handle hx (packets v.cbs.pDataSplitCombineCb pData)
  have hdrop : pData.drop (pData.length - pData.length) = pData := by
    rw [Nat.sub_self, List.drop_zero]
  have hfrom := v.sessionReportProtocolDataFrom_eq (x := x) hcut le_rfl hdrop le_rfl
  rw [Receiver.sessionReportProtocolData, hfrom]
  rw [packets] at hhear hrun hsame hless ⊢
  rw [hhear, hrun]
  constructor
  · intro heq
    obtain ⟨-, rfl⟩ := Prod.mk.inj (some.inj heq)
    by_contra hnot
    exact absurd (hless hnot) (lt_irrefl _)
  · intro h
    obtain ⟨rfl, rfl⟩ := hsame h
    rfl

/-- Packets of a byte, of which the parser rejects zero. -/
def byByte : Receiver Unit where
  cbs := ⟨fun bs => ((bs.length : Int) - 1, bs.take 1),
    some fun _ d => ((), if d.aucData = [0] then -1 else 0, d)⟩
  iSessionType := .uart
  iSessionId := 7

/-- Its session, which waits for no response. -/
def unasked : Received Unit := ⟨(), fun _ => some ⟨true, none, none⟩, 0, []⟩

theorem cuts_byByte : Cuts byByte.cbs.pDataSplitCombineCb := by
  intro bs hne
  have hpos : 0 < bs.length := List.length_pos_iff.mpr hne
  refine ⟨bs.length - 1, by omega, ?_⟩
  have hone : bs.length - (bs.length - 1) = 1 := by omega
  rw [hone]
  exact Prod.ext (by simp only [byByte]; omega) rfl

/-- A rejected packet behind the others. -/
theorem packets_handled_rejectedLast :
    byByte.sessionReportProtocolData [1, 0] unasked =
        Run.run byByte.handle unasked (packets byByte.cbs.pDataSplitCombineCb [1, 0]) ∧
      (byByte.sessionReportProtocolData [1, 0] unasked).map (fun r => r.2.length) = some 3 := by
  have hattends : unasked.loop.Attends byByte.iSessionId := ⟨_, rfl, fun r h => by cases h⟩
  refine ⟨(packets_handled_iff byByte cuts_byByte unasked hattends [1, 0]).mpr ?_,
    by decide +kernel⟩
  constructor
  · intro m h
    cases h
  · intro r h
    cases h
    exact rfl

/-- The packet behind a rejected one is lost. -/
theorem packets_not_handled :
    (byByte.sessionReportProtocolData [0, 1] unasked).map (fun r => r.2.length) = some 1 ∧
      (Run.run byByte.handle unasked (packets byByte.cbs.pDataSplitCombineCb [0, 1])).map
        (fun r => r.2.length) = some 3 ∧
      byByte.sessionReportProtocolData [0, 1] unasked ≠
        Run.run byByte.handle unasked (packets byByte.cbs.pDataSplitCombineCb [0, 1]) := by
  have hcode : (byByte.sessionReportProtocolData [0, 1] unasked).map (fun r => r.2.length) =
      some 1 := by decide +kernel
  have hall : (Run.run byByte.handle unasked (packets byByte.cbs.pDataSplitCombineCb [0, 1])).map
      (fun r => r.2.length) = some 3 := by decide +kernel
  refine ⟨hcode, hall, fun h => ?_⟩
  rw [h, hall] at hcode
  cases hcode

end Honyar.Sessions
