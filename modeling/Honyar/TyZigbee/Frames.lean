import Honyar.TyZigbee.Records

/-!
# Whole frames

What `zigbeeZclReport` makes of the frames of a device: which messages of records
it reports exactly, and which messages it does not read past their end.
-/

namespace Honyar.TyZigbee

variable {hylinkListGet : CText → Option CText} {zigbeeListGet : CText → Option ZigbeeDev}
  {frame : Frame}

/-! ## Records are reported -/

/-- Behind a record that failed there is none with a value. -/
def FailuresLast : List Response → Prop
  | [] => True
  | .value _ _ :: rs => FailuresLast rs
  | .failed _ _ _ :: rs => ∀ r ∈ rs, r.carried = none

/-- The same of a message; a record that is reported has no status. -/
def Message.FailuresLast : Message → Prop
  | .report _ => True
  | .response rs => TyZigbee.FailuresLast rs

theorem answered_eq_carried_iff {rs : List Response} :
    (answered rs).map (fun r => ((r.attributeId.toNat : Int), r.value.bytes)) =
      rs.filterMap Response.carried ↔ FailuresLast rs := by
  induction rs with
  | nil => exact iff_of_true rfl trivial
  | cons r rs ih =>
    cases r with
    | value a v =>
      have hcons : (Response.value a v :: rs).filterMap Response.carried =
          ((a.toNat : Int), v.bytes) :: rs.filterMap Response.carried := rfl
      rw [answered, List.map_cons, hcons, List.cons_inj_right]
      exact ih
    | failed a status hstatus =>
      have hcons : (Response.failed a status hstatus :: rs).filterMap Response.carried =
          rs.filterMap Response.carried := rfl
      rw [answered, List.map_nil, hcons, eq_comm, List.filterMap_eq_nil_iff]
      rfl

/-- The frame is the message, and nothing else. -/
structure Frame.Is (frame : Frame) (m : Message) : Prop where
  cmdType : frame.cmdType ≠ z3CmdTypePrivate
  cmdId : frame.cmdId = m.cmdId
  message : frame.message.At 0 m.encode
  msgLength : frame.msgLength = m.encode.length

section

variable {zDev : ZigbeeDev} (hdev : (hylinkListGet frame.id).bind zigbeeListGet = some zDev)

include hdev

theorem zigbeeZclReport_report (htype : frame.cmdType ≠ z3CmdTypePrivate)
    (hid : frame.cmdId = reportAttributesId) :
    zigbeeZclReport hylinkListGet zigbeeListGet frame =
      reportAttributes frame.message frame.msgLength 0 := by
  simp only [zigbeeZclReport, hdev]
  rw [if_neg htype, if_neg (by rw [hid]; decide), if_pos hid]

theorem zigbeeZclReport_response (htype : frame.cmdType ≠ z3CmdTypePrivate)
    (hid : frame.cmdId = readAttributesResponseId) :
    zigbeeZclReport hylinkListGet zigbeeListGet frame =
      readAttributesResponse frame.message frame.msgLength 0 := by
  simp only [zigbeeZclReport, hdev]
  rw [if_neg htype, if_pos hid]

end

/-- For every message of attribute records from a device that is known,
`zigbeeReport` is called once for each record that carries a value, in order, with
its attribute and its bytes, exactly when no such record is behind one that
failed. -/
theorem zigbeeZclReport_exact_iff {m : Message} (hframe : frame.Is m) {zDev : ZigbeeDev}
    (hdev : (hylinkListGet frame.id).bind zigbeeListGet = some zDev) :
    (zigbeeZclReport hylinkListGet zigbeeListGet frame).reports.map
        (Report.content frame.message) = m.carried ↔ m.FailuresLast := by
  obtain ⟨htype, hid, hat, hlen⟩ := hframe
  cases m with
  | report rs =>
    rw [zigbeeZclReport_report hdev htype hid]
    have hn : frame.msgLength = 0 + (rs.flatMap Reported.encode).length := by
      rw [hlen, Nat.zero_add]
      rfl
    exact iff_of_true (reportAttributes_records hat hn).1 trivial
  | response rs =>
    rw [zigbeeZclReport_response hdev htype hid]
    have hn : frame.msgLength = 0 + (rs.flatMap Response.encode).length := by
      rw [hlen, Nat.zero_add]
      rfl
    rw [readAttributesResponse_records hat hn]
    exact answered_eq_carried_iff

namespace Sample

/-- Memory that starts with the bytes. -/
def memory (bytes : List UInt8) : Memory UInt8 := fun i => bytes.getD i 0

/-- A byte of type `UINT_8`. -/
def byte (b : UInt8) : Value := ⟨0x20, [b], rfl⟩

/-- A string of two characters. -/
def word : Value := ⟨0x42, [0x6f, 0x6e], by show (2 : Nat) < 256; decide⟩

def frameOf (m : Message) : Frame where
  id := []
  clusterId := 0x0006
  cmdType := 0x01
  cmdId := m.cmdId
  msgLength := m.encode.length
  message := memory m.encode

theorem memory_at (bytes : List UInt8) : (memory bytes).At 0 bytes := by
  have h : ∀ (l r : List UInt8), (memory (l ++ r)).At l.length r := by
    intro l r
    induction r generalizing l with
    | nil => exact Memory.at_nil
    | cons b r ih =>
      refine ⟨by simp [memory], ?_⟩
      have := ih (l ++ [b])
      rwa [List.append_assoc, List.length_append] at this
  exact h [] bytes

theorem frameOf_is (m : Message) : (frameOf m).Is m :=
  ⟨show (1 : UInt8) ≠ 2 by decide, rfl, memory_at _, rfl⟩

def zDev : ZigbeeDev := ⟨[]⟩

/-- The value in front of a record that failed. -/
def failureLast : Message := .response [.value 0x4001 word, .failed 0 0x86 (by decide)]

/-- The value behind it. -/
def failureFirst : Message := .response [.failed 0 0x86 (by decide), .value 0x4001 word]

end Sample

/-- A string is reported when the record behind it has failed. -/
theorem zigbeeZclReport_exact_failureLast :
    (zigbeeZclReport (fun _ => some []) (fun _ => some Sample.zDev)
      (Sample.frameOf Sample.failureLast)).reports.map
        (Report.content (Sample.frameOf Sample.failureLast).message) =
          Sample.failureLast.carried :=
  (zigbeeZclReport_exact_iff (Sample.frameOf_is Sample.failureLast) rfl).mpr
    (by simp [Sample.failureLast, Message.FailuresLast, FailuresLast])

/-- It is not when the record has failed in front of it. -/
theorem zigbeeZclReport_drops_value : ¬ ∀ (hylinkListGet : CText → Option CText)
    (zigbeeListGet : CText → Option ZigbeeDev) (frame : Frame) (m : Message) (zDev : ZigbeeDev),
      frame.Is m → (hylinkListGet frame.id).bind zigbeeListGet = some zDev →
        (zigbeeZclReport hylinkListGet zigbeeListGet frame).reports.map
          (Report.content frame.message) = m.carried := by
  intro h
  have := h (fun _ => some []) (fun _ => some Sample.zDev) (Sample.frameOf Sample.failureFirst)
    Sample.failureFirst Sample.zDev (Sample.frameOf_is _) rfl
  rw [zigbeeZclReport_response rfl (by decide) rfl,
    readAttributesResponse_of_failed (by decide) (by decide)] at this
  cases this

/-! ## Bounds -/

/-- The frame is one of the commands whose parsing is looked at. -/
def Frame.IsData (frame : Frame) : Prop :=
  if frame.cmdType = z3CmdTypePrivate then
    frame.clusterId = zclPrivateCluster ∧ frame.cmdId ∈ tyData
  else frame.cmdId = readAttributesResponseId ∨ frame.cmdId = reportAttributesId

/-- The message is what its command prescribes: the six bytes of a private header
and as many as it announces; reported records that fill it; records with values,
and then the end or the three bytes of a record that failed. -/
def Frame.Whole (frame : Frame) : Prop :=
  if frame.cmdType = z3CmdTypePrivate then
    6 + ((frame.message 4).toNat <<< 8 + (frame.message 5).toNat) ≤ frame.msgLength
  else if frame.cmdId = reportAttributesId then
    ∃ rs : List Reported, frame.message.At 0 (rs.flatMap Reported.encode) ∧
      frame.msgLength = (rs.flatMap Reported.encode).length
  else
    ∃ rs : List Reported, frame.message.At 0 (rs.flatMap fun r => r.response.encode) ∧
      (frame.msgLength = (rs.flatMap fun r => r.response.encode).length ∨
        (rs.flatMap fun r => r.response.encode).length + 3 ≤ frame.msgLength ∧
          frame.message ((rs.flatMap fun r => r.response.encode).length + 2) ≠ 0)

theorem privateReport_within_iff (hid : frame.cmdId ∈ tyData) :
    (privateReport frame).Within frame.msgLength ↔
      6 + ((frame.message 4).toNat <<< 8 + (frame.message 5).toNat) ≤ frame.msgLength := by
  rw [privateReport, if_pos hid]
  simp only [Walk.Within, List.forall_mem_cons, List.not_mem_nil, false_implies, implies_true,
    and_true]
  constructor
  · rintro ⟨⟨-, -, -, h5⟩, hall⟩
    rcases hlen : (frame.message 4).toNat <<< 8 + (frame.message 5).toNat with - | l
    · omega
    · have := hall l (by omega)
      omega
  · intro h
    refine ⟨⟨by omega, by omega, by omega, by omega⟩, fun j hj => ?_⟩
    omega

/-- For every frame of these commands and whatever stands in memory behind its
message, nothing behind the end is read or handed on exactly when the device is not
known, or the message is whole. -/
theorem zigbeeZclReport_within_iff (hdata : frame.IsData) :
    (zigbeeZclReport hylinkListGet zigbeeListGet frame).Within frame.msgLength ↔
      (hylinkListGet frame.id).bind zigbeeListGet = none ∨ frame.Whole := by
  cases hdev : (hylinkListGet frame.id).bind zigbeeListGet with
  | none =>
    refine iff_of_true ?_ (.inl rfl)
    simp only [zigbeeZclReport, hdev]
    exact Walk.within_done
  | some zDev =>
    rw [or_iff_right (by simp)]
    by_cases htype : frame.cmdType = z3CmdTypePrivate
    · rw [Frame.IsData, if_pos htype] at hdata
      simp only [zigbeeZclReport, hdev]
      rw [if_pos htype, if_pos hdata.1, privateReport_within_iff hdata.2, Frame.Whole,
        if_pos htype]
    · rw [Frame.IsData, if_neg htype] at hdata
      rw [Frame.Whole, if_neg htype]
      rcases hdata with hid | hid
      · rw [zigbeeZclReport_response hdev htype hid, if_neg (by rw [hid]; decide)]
        constructor
        · intro h
          have := exists_responses (Nat.zero_le _) h
          simpa only [Nat.zero_add] using this
        · rintro ⟨rs, hat, hn⟩
          exact readAttributesResponse_within hat (by simpa only [Nat.zero_add] using hn)
      · rw [zigbeeZclReport_report hdev htype hid, if_pos hid]
        constructor
        · intro h
          have := exists_reported (Nat.zero_le _) h
          simpa only [Nat.zero_add] using this
        · rintro ⟨rs, hat, hn⟩
          exact (reportAttributes_records hat (by rw [hn, Nat.zero_add])).2

/-- A private frame of one byte of data. -/
def Sample.privateFrame : Frame where
  id := []
  clusterId := zclPrivateCluster
  cmdType := z3CmdTypePrivate
  cmdId := 0x02
  msgLength := 7
  message := Sample.memory [0, 1, 5, 1, 0, 1, 1]

/-- A whole private frame. -/
theorem zigbeeZclReport_within_private :
    (zigbeeZclReport (fun _ => some []) (fun _ => some Sample.zDev) Sample.privateFrame).Within
      Sample.privateFrame.msgLength :=
  (zigbeeZclReport_within_iff
    (show Sample.privateFrame.IsData from ⟨rfl, by decide⟩)).mpr (.inr (by
      show 6 + (0 <<< 8 + 1) ≤ 7
      decide))

/-- A reported record that is cut after its first byte. -/
theorem zigbeeZclReport_reads_behind : ¬ ∀ (hylinkListGet : CText → Option CText)
    (zigbeeListGet : CText → Option ZigbeeDev) (frame : Frame), frame.IsData →
      (zigbeeZclReport hylinkListGet zigbeeListGet frame).Within frame.msgLength := by
  intro h
  have := h (fun _ => some []) (fun _ => some Sample.zDev)
    ⟨[], 0x0006, 0x01, reportAttributesId, 1, Sample.memory [0]⟩ (.inr rfl)
  rw [zigbeeZclReport_report rfl (by decide) rfl, reportAttributes, if_pos (by decide)] at this
  exact absurd (this.1 1 (by simp [Walk.append])) (by decide)

end Honyar.TyZigbee
