import Honyar.TyZigbee.Report
import Mathlib.Algebra.Group.Nat.Defs

/-!
# Attribute records

The records of `REPORT_ATTRIBUTES` and `READ_ATTRIBUTES_RESPONSE` as data, how the
ZCL formats write them, and what the walk over a message makes of them.
-/

namespace Honyar.TyZigbee

open List Memory Walk Nat

variable {message : Memory UInt8}

/-! ## Formats -/

/-- The length the ZCL formats give the values of a type that is no string.  A type
they do not have has no value. -/
def fixedLength (dataType : UInt8) : Nat :=
  let t := dataType.toNat
  if 0x08 ≤ t ∧ t ≤ 0x0f then t - 0x07
  else if 0x18 ≤ t ∧ t ≤ 0x1f then t - 0x17
  else if 0x20 ≤ t ∧ t ≤ 0x27 then t - 0x1f
  else if 0x28 ≤ t ∧ t ≤ 0x2f then t - 0x27
  else if t = 0x10 ∨ t = 0x30 then 1
  else if t = 0x31 ∨ t = 0x38 ∨ t = 0xe8 ∨ t = 0xe9 then 2
  else if t = 0x39 ∨ t = 0xe0 ∨ t = 0xe1 ∨ t = 0xe2 ∨ t = 0xea then 4
  else if t = 0x3a ∨ t = 0xf0 then 8
  else if t = 0xf1 then 16
  else 0

/-- How the ZCL formats lay out a value of the type: a string has its length in front
of it. -/
def layoutOf (dataType : UInt8) : Layout :=
  if dataType = 0x41 ∨ dataType = 0x42 then .counted 1
  else if dataType = 0x43 ∨ dataType = 0x44 then .counted 2
  else .fixed (fixedLength dataType)

theorem layout?_eq (dataType : UInt8) :
    ((ZclDataType.ofByte? dataType).bind ZclDataType.layout?).getD (.fixed 0) =
      layoutOf dataType := by
  have h : ∀ n < 256,
      ((ZclDataType.ofByte? (UInt8.ofNat n)).bind ZclDataType.layout?).getD (.fixed 0) =
        layoutOf (UInt8.ofNat n) := by decide +kernel
  have := h dataType.toNat dataType.toNat_lt
  rwa [UInt8.ofNat_toNat] at this

/-- A number in as many bytes, the lowest first. -/
def littleEndian : Nat → Nat → List UInt8
  | 0, _ => []
  | n + 1, v => UInt8.ofNat v :: littleEndian n (v / 256)

/-- The value has the length its type prescribes, or one its prefix can say. -/
def Layout.Fits : Layout → List UInt8 → Prop
  | .fixed n, bytes => bytes.length = n
  | .counted n, bytes => bytes.length < 256 ^ n

/-- A value of a type. -/
structure Value where
  dataType : UInt8
  bytes : List UInt8
  fits : (layoutOf dataType).Fits bytes

/-- What stands in front of the bytes of a value. -/
def Value.header (v : Value) : List UInt8 :=
  match layoutOf v.dataType with
  | .fixed _ => []
  | .counted n => littleEndian n v.bytes.length

/-- The value behind its type. -/
def Value.encode (v : Value) : List UInt8 := v.dataType :: (v.header ++ v.bytes)

/-- A record of `REPORT_ATTRIBUTES`. -/
structure Reported where
  attributeId : UInt16
  value : Value

def Reported.encode (r : Reported) : List UInt8 :=
  littleEndian 2 r.attributeId.toNat ++ r.value.encode

/-- A record of `READ_ATTRIBUTES_RESPONSE`. -/
inductive Response where
  | value (attributeId : UInt16) (value : Value)
  | failed (attributeId : UInt16) (status : UInt8) (nonzero : status ≠ 0)

def Response.encode : Response → List UInt8
  | .value attributeId v => littleEndian 2 attributeId.toNat ++ 0 :: v.encode
  | .failed attributeId status _ => littleEndian 2 attributeId.toNat ++ [status]

/-- What a record carries. -/
def Response.carried : Response → Option (Int × List UInt8)
  | .value attributeId v => some (attributeId.toNat, v.bytes)
  | .failed _ _ _ => none

/-- A message of one of the two commands. -/
inductive Message where
  | report (rs : List Reported)
  | response (rs : List Response)

def Message.cmdId : Message → UInt8
  | .report _ => reportAttributesId
  | .response _ => readAttributesResponseId

def Message.encode : Message → List UInt8
  | .report rs => rs.flatMap Reported.encode
  | .response rs => rs.flatMap Response.encode

/-- What the records of a message carry, in their order. -/
def Message.carried : Message → List (Int × List UInt8)
  | .report rs => rs.map fun r => (r.attributeId.toNat, r.value.bytes)
  | .response rs => rs.filterMap Response.carried

/-- The attribute and the bytes a call of `zigbeeReport` is about. -/
def Report.content (message : Memory UInt8) (r : Report) : Int × List UInt8 :=
  (r.attributeId, message.cells r.value r.inLen)

/-! ## One record -/

theorem shortAt_of_at {i : Nat} {a : UInt16} (h : message.At i (littleEndian 2 a.toNat)) :
    shortAt message i = a.toNat := by
  obtain ⟨hlow, hhigh, -⟩ := h
  have ha := a.toNat_lt
  rw [shortAt, hlow, hhigh, shiftLeft_eq]
  simp only [UInt8.toNat_ofNat']
  omega

@[simp] theorem length_littleEndian (n v : Nat) : (littleEndian n v).length = n := by
  induction n generalizing v with
  | zero => rfl
  | succ n ih => rw [littleEndian, length_cons, ih]

theorem exists_attributeId (message : Memory UInt8) (i : Nat) :
    ∃ a : UInt16, message.At i (littleEndian 2 a.toNat) ∧ shortAt message i = a.toNat := by
  have hlow := (message i).toNat_lt
  have hhigh := (message (i + 1)).toNat_lt
  have hshort : shortAt message i = (message i).toNat + (message (i + 1)).toNat * 256 := by
    rw [shortAt, shiftLeft_eq]
  have htoNat : (UInt16.ofNat (shortAt message i)).toNat = shortAt message i := by
    rw [UInt16.toNat_ofNat', mod_eq_of_lt]
    omega
  refine ⟨UInt16.ofNat (shortAt message i), ⟨?_, ?_, trivial⟩, htoNat.symm⟩
  · rw [htoNat, ← UInt8.toNat_inj, UInt8.toNat_ofNat']
    omega
  · rw [htoNat, ← UInt8.toNat_inj, UInt8.toNat_ofNat']
    omega

theorem layoutOf_counted {t : UInt8} {n : Nat} (h : layoutOf t = .counted n) : n = 1 ∨ n = 2 := by
  rw [layoutOf] at h
  split_ifs at h
  · exact .inl (Layout.counted.inj h).symm
  · exact .inr (Layout.counted.inj h).symm

theorem getZcl3DataType_eq (dataType : UInt8) (message : Memory UInt8) (data : Nat) :
    getZcl3DataType dataType message data =
      match layoutOf dataType with
      | .fixed byteLen => ⟨byteLen, 0, []⟩
      | .counted 1 => ⟨(message data).toNat, 1, [data]⟩
      | .counted _ => ⟨shortAt message data, 2, [data, data + 1]⟩ := by
  rw [getZcl3DataType, ← layout?_eq]
  cases (ZclDataType.ofByte? dataType).bind ZclDataType.layout? with
  | none => rfl
  | some layout =>
    cases layout with
    | fixed n => rfl
    | counted n => rcases n with - | - | n <;> rfl

theorem getZcl3DataType_of_at {v : Value} {i : Nat} (h : message.At i v.encode) :
    getZcl3DataType (message i) message (i + 1) =
      ⟨v.bytes.length, v.header.length, List.range' (i + 1) v.header.length⟩ := by
  obtain ⟨htype, hrest⟩ := h
  have hfits := v.fits
  have hheader := hrest.left
  rw [htype, getZcl3DataType_eq, Value.header] at *
  cases hlayout : layoutOf v.dataType with
  | fixed n =>
    rw [hlayout] at hfits
    have hlen : v.bytes.length = n := hfits
    simp [hlen]
  | counted n =>
    rw [hlayout] at hfits hheader
    have hlen : v.bytes.length < 256 ^ n := hfits
    rcases layoutOf_counted hlayout with rfl | rfl
    · have hbyte : message (i + 1) = UInt8.ofNat v.bytes.length := hheader.1
      have htoNat : (message (i + 1)).toNat = v.bytes.length := by
        rw [hbyte, UInt8.toNat_ofNat', mod_eq_of_lt (by simpa using hlen)]
      simp [htoNat]
    · have hshort : shortAt message (i + 1) = v.bytes.length := by
        have hlt : v.bytes.length < 65536 := by simpa using hlen
        have htoNat : (UInt16.ofNat v.bytes.length).toNat = v.bytes.length := by
          rw [UInt16.toNat_ofNat', mod_eq_of_lt hlt]
        have hheader' :
            message.At (i + 1) (littleEndian 2 (UInt16.ofNat v.bytes.length).toNat) := by
          rw [htoNat]
          exact hheader
        rw [shortAt_of_at hheader', htoNat]
      simp [hshort, List.range']

theorem Value.length_encode (v : Value) :
    v.encode.length = 1 + (v.bytes.length + v.header.length) := by
  rw [Value.encode, length_cons, length_append]
  omega

theorem valueAt_of_at {v : Value} {i : Nat} (h : message.At i v.encode) (attributeId : Nat) :
    valueAt message attributeId i =
      (⟨i :: List.range' (i + 1) v.header.length,
        [⟨attributeId, i + 1 + v.header.length, v.bytes.length⟩]⟩, i + v.encode.length) := by
  rw [valueAt, getZcl3DataType_of_at h, v.length_encode]
  simp only [Prod.mk.injEq, true_and]
  omega

theorem Value.cells_eq {v : Value} {i : Nat} (h : message.At i v.encode) :
    message.cells (i + 1 + v.header.length) v.bytes.length = v.bytes :=
  (Memory.At.right h.2).cells_eq

/-! ## Bounds -/

/-- Everything that is read or handed on is in front of the end. -/
def Walk.Within (w : Walk) (msgLength : Nat) : Prop :=
  (∀ i ∈ w.reads, i < msgLength) ∧ ∀ r ∈ w.reports, ∀ j < r.inLen, r.value + j < msgLength

variable {v w : Walk} {n : Nat}

theorem Walk.within_done : Walk.done.Within n := ⟨by simp [done], by simp [done]⟩

theorem Walk.within_append : (v.append w).Within n ↔ v.Within n ∧ w.Within n := by
  simp only [Within, append, forall_mem_append]
  exact and_and_and_comm

theorem Walk.within_reads {is : List Nat} : Walk.Within ⟨is, []⟩ n ↔ ∀ i ∈ is, i < n :=
  and_iff_left (by simp)

theorem valueAt_within {v : Value} {i : Nat} (h : message.At i v.encode) (attributeId : Nat)
    (hn : i + v.encode.length ≤ n) : (valueAt message attributeId i).1.Within n := by
  rw [valueAt_of_at h]
  rw [v.length_encode] at hn
  refine ⟨fun j hj => ?_, fun r hr j hj => ?_⟩
  · rcases mem_cons.mp hj with rfl | hj
    · omega
    · have := mem_range'_1.mp hj
      omega
  · rw [mem_singleton.mp hr] at hj ⊢
    simp only at hj ⊢
    omega

/-- A walk that stays within the message has found a value there. -/
theorem exists_value {i attributeId : Nat} (h : (valueAt message attributeId i).1.Within n) :
    ∃ v : Value, message.At i v.encode ∧ i + v.encode.length ≤ n := by
  obtain ⟨hreads, hreports⟩ := h
  rw [valueAt] at hreads hreports
  have hi := hreads i mem_cons_self
  have hvalue := hreports _ mem_cons_self
  simp only at hvalue
  rw [getZcl3DataType_eq] at hreads hvalue
  -- the end of the bytes, should there be any
  have hend : ∀ k l : Nat, k ≤ n → (∀ j < l, k + j < n) → k + l ≤ n := by
    intro k l hk hall
    rcases l with - | l
    · exact hk
    · exact hall l (lt_succ_self l)
  cases hlayout : layoutOf (message i) with
  | fixed k =>
    simp only [hlayout, add_zero] at hvalue
    refine ⟨⟨message i, message.cells (i + 1) k, ?_⟩, ⟨rfl, ?_⟩, ?_⟩
    · rw [hlayout]
      exact length_cells ..
    · simp only [Value.header, hlayout, nil_append]
      exact at_cells ..
    · simp only [Value.length_encode, Value.header, hlayout, length_cells,
        length_nil]
      have := hend (i + 1) k hi hvalue
      omega
  | counted k =>
    rcases layoutOf_counted hlayout with rfl | rfl
    · simp only [hlayout] at hvalue hreads
      have hcount := hreads (i + 1) (by simp)
      have hlt := (message (i + 1)).toNat_lt
      refine ⟨⟨message i, message.cells (i + 2) (message (i + 1)).toNat, ?_⟩, ⟨rfl, ?_⟩, ?_⟩
      · rw [hlayout]
        simpa [Layout.Fits] using hlt
      · simp only [Value.header, hlayout, length_cells, littleEndian,
          UInt8.ofNat_toNat, cons_append, nil_append]
        exact ⟨rfl, at_cells ..⟩
      · simp only [Value.length_encode, Value.header, hlayout, length_cells,
          length_littleEndian]
        have := hend (i + 2) _ hcount hvalue
        omega
    · simp only [hlayout] at hvalue hreads
      have hcount := hreads (i + 2) (by simp)
      obtain ⟨c, hc, hshort⟩ := exists_attributeId message (i + 1)
      have hlt := c.toNat_lt
      rw [hshort] at hvalue
      refine ⟨⟨message i, message.cells (i + 3) c.toNat, ?_⟩, ⟨rfl, ?_⟩, ?_⟩
      · rw [hlayout]
        simpa [Layout.Fits] using hlt
      · simp only [Value.header, hlayout, length_cells]
        exact at_append.mpr ⟨hc, by
          rw [length_littleEndian]
          exact at_cells ..⟩
      · simp only [Value.length_encode, Value.header, hlayout, length_cells,
          length_littleEndian]
        have := hend (i + 3) _ hcount hvalue
        omega

/-! ## `REPORT_ATTRIBUTES` -/

theorem Reported.length_encode (r : Reported) : r.encode.length = 2 + r.value.encode.length := by
  rw [encode, length_append, length_littleEndian]

theorem reportAttributes_of_at {r : Reported} {i : Nat} (h : message.At i r.encode) (hi : i < n) :
    reportAttributes message n i =
      (Walk.append ⟨[i, i + 1], []⟩ (valueAt message r.attributeId.toNat (i + 2)).1).append
        (reportAttributes message n (i + r.encode.length)) := by
  have hvalue : message.At (i + 2) r.value.encode := by
    have := h.right
    rwa [length_littleEndian] at this
  rw [reportAttributes, if_pos hi]
  simp only [shortAt_of_at h.left]
  rw [valueAt_of_at hvalue, r.length_encode, ← add_assoc]

/-- The records of a message are reported, each with its bytes, and nothing behind
them is looked at. -/
theorem reportAttributes_records {rs : List Reported} {i : Nat}
    (h : message.At i (rs.flatMap Reported.encode))
    (hn : n = i + (rs.flatMap Reported.encode).length) :
    (reportAttributes message n i).reports.map (Report.content message) =
        rs.map (fun r => ((r.attributeId.toNat : Int), r.value.bytes)) ∧
      (reportAttributes message n i).Within n := by
  induction rs generalizing i with
  | nil =>
    rw [reportAttributes, if_neg (by simp [hn])]
    exact ⟨rfl, within_done⟩
  | cons r rs ih =>
    rw [flatMap_cons] at h hn
    rw [length_append] at hn
    have hlen := r.length_encode
    have hvalue : message.At (i + 2) r.value.encode := by
      have := h.left.right
      rwa [length_littleEndian] at this
    obtain ⟨hreports, hwithin⟩ := ih h.right (by omega)
    rw [reportAttributes_of_at h.left (by omega)]
    constructor
    · rw [append, map_append, hreports, valueAt_of_at hvalue]
      simp only [append, nil_append, map_cons, map_nil, Report.content,
        Value.cells_eq hvalue, cons_append]
    · rw [within_append, within_append, within_reads]
      refine ⟨⟨?_, valueAt_within hvalue _ (by omega)⟩, hwithin⟩
      simp only [forall_mem_cons, not_mem_nil, false_implies, implies_true, and_true]
      omega

/-- A walk that stays within the message has found records that fill it. -/
theorem exists_reported {i : Nat} (hi : i ≤ n) (h : (reportAttributes message n i).Within n) :
    ∃ rs : List Reported, message.At i (rs.flatMap Reported.encode) ∧
      n = i + (rs.flatMap Reported.encode).length := by
  induction hk : n - i using Nat.strong_induction_on generalizing i with
  | _ k ih =>
    by_cases hlt : i < n
    · have hwalk := h
      rw [reportAttributes, if_pos hlt, within_append, within_append] at hwalk
      obtain ⟨v, hv, hle⟩ := exists_value hwalk.1.2
      obtain ⟨a, ha, -⟩ := exists_attributeId message i
      have hrecord : message.At i (Reported.mk a v).encode :=
        at_append.mpr ⟨ha, by rwa [length_littleEndian]⟩
      have hlen := (Reported.mk a v).length_encode
      have hv : v.encode.length = (Reported.mk a v).value.encode.length := rfl
      have hpos := v.length_encode
      rw [reportAttributes_of_at hrecord hlt, within_append] at h
      obtain ⟨rs, hrs, hn⟩ := ih _ (by omega) (by omega) h.2 rfl
      refine ⟨⟨a, v⟩ :: rs, ?_, ?_⟩
      · rw [flatMap_cons]
        exact at_append.mpr ⟨hrecord, hrs⟩
      · rw [flatMap_cons, length_append]
        omega
    · exact ⟨[], at_nil, by simp; omega⟩

/-! ## `READ_ATTRIBUTES_RESPONSE` -/

/-- The records in front of the first that failed. -/
def answered : List Response → List Reported
  | [] => []
  | .value a v :: rs => ⟨a, v⟩ :: answered rs
  | .failed _ _ _ :: _ => []

/-- A record with a value, as a response. -/
def Reported.response (r : Reported) : Response := .value r.attributeId r.value

theorem Reported.length_response (r : Reported) :
    r.response.encode.length = 3 + r.value.encode.length := by
  rw [response, Response.encode, length_append, length_littleEndian, length_cons]
  omega

theorem readAttributesResponse_of_at {r : Reported} {i : Nat}
    (h : message.At i r.response.encode) (hi : i < n) :
    readAttributesResponse message n i =
      (Walk.append ⟨[i, i + 1, i + 2], []⟩
        (valueAt message r.attributeId.toNat (i + 3)).1).append
          (readAttributesResponse message n (i + r.response.encode.length)) := by
  have hrest := h.right
  rw [length_littleEndian] at hrest
  obtain ⟨hstatus, hvalue⟩ := hrest
  rw [readAttributesResponse, if_pos hi]
  simp only [shortAt_of_at h.left, hstatus, ne_eq, not_true_eq_false, if_false]
  rw [valueAt_of_at hvalue, r.length_response, ← add_assoc]

theorem readAttributesResponse_of_failed {i : Nat} (h : message (i + 2) ≠ 0) (hi : i < n) :
    readAttributesResponse message n i = ⟨[i, i + 1, i + 2], []⟩ := by
  rw [readAttributesResponse, if_pos hi]
  simp only [ne_eq, h, not_false_eq_true, if_true]

/-- What is reported of the records of a message: those in front of the first that
failed. -/
theorem readAttributesResponse_records {rs : List Response} {i : Nat}
    (h : message.At i (rs.flatMap Response.encode))
    (hn : n = i + (rs.flatMap Response.encode).length) :
    (readAttributesResponse message n i).reports.map (Report.content message) =
      (answered rs).map (fun r => ((r.attributeId.toNat : Int), r.value.bytes)) := by
  induction rs generalizing i with
  | nil =>
    rw [readAttributesResponse, if_neg (by simp [hn])]
    rfl
  | cons r rs ih =>
    rw [flatMap_cons] at h hn
    rw [length_append] at hn
    cases r with
    | value a v =>
      have hencode : (Response.value a v).encode = (Reported.mk a v).response.encode := rfl
      rw [hencode] at h hn
      have hrecord := h.left
      have hlen := (Reported.mk a v).length_response
      have hvalue : message.At (i + 3) v.encode := by
        have := hrecord.right
        rw [length_littleEndian] at this
        exact this.2
      rw [readAttributesResponse_of_at hrecord (by omega), append, map_append,
        ih h.right (by omega), valueAt_of_at hvalue]
      simp only [append, nil_append, map_cons, map_nil, Report.content,
        Value.cells_eq hvalue, cons_append, answered]
    | failed a status hstatus =>
      have hbyte : message (i + 2) = status := by
        have := h.left.right
        rw [length_littleEndian] at this
        exact this.1
      have hlen : (Response.failed a status hstatus).encode.length = 3 := rfl
      rw [readAttributesResponse_of_failed (by rwa [hbyte]) (by omega)]
      rfl

/-- Records with values, and then the end or a record that failed: nothing behind is
looked at. -/
theorem readAttributesResponse_within {rs : List Reported} {i : Nat}
    (h : message.At i (rs.flatMap fun r => r.response.encode))
    (hn : n = i + (rs.flatMap fun r => r.response.encode).length ∨
      i + (rs.flatMap fun r => r.response.encode).length + 3 ≤ n ∧
        message (i + (rs.flatMap fun r => r.response.encode).length + 2) ≠ 0) :
    (readAttributesResponse message n i).Within n := by
  induction rs generalizing i with
  | nil =>
    rcases hn with hn | ⟨hle, hstatus⟩
    · rw [readAttributesResponse, if_neg (by simp [hn])]
      exact within_done
    · simp only [flatMap_nil, length_nil, add_zero] at hle hstatus
      rw [readAttributesResponse_of_failed hstatus (by omega), within_reads]
      simp only [forall_mem_cons, not_mem_nil, false_implies, implies_true, and_true]
      omega
  | cons r rs ih =>
    rw [flatMap_cons] at h hn
    rw [length_append, ← add_assoc] at hn
    have hrecord := h.left
    have hlen := r.length_response
    have hvalue : message.At (i + 3) r.value.encode := by
      have := hrecord.right
      rw [length_littleEndian] at this
      exact this.2
    rw [readAttributesResponse_of_at hrecord (by omega), within_append,
      within_append, within_reads]
    refine ⟨⟨?_, valueAt_within hvalue _ (by omega)⟩, ih h.right hn⟩
    simp only [forall_mem_cons, not_mem_nil, false_implies, implies_true, and_true]
    omega

/-- A walk that stays within the message has found records with values, and then the
end or a record that failed. -/
theorem exists_responses {i : Nat} (hi : i ≤ n)
    (h : (readAttributesResponse message n i).Within n) :
    ∃ rs : List Reported, message.At i (rs.flatMap fun r => r.response.encode) ∧
      (n = i + (rs.flatMap fun r => r.response.encode).length ∨
        i + (rs.flatMap fun r => r.response.encode).length + 3 ≤ n ∧
          message (i + (rs.flatMap fun r => r.response.encode).length + 2) ≠ 0) := by
  induction hk : n - i using Nat.strong_induction_on generalizing i with
  | _ k ih =>
    by_cases hlt : i < n
    · by_cases hstatus : message (i + 2) = 0
      · have hwalk := h
        rw [readAttributesResponse, if_pos hlt] at hwalk
        simp only [hstatus, ne_eq, not_true_eq_false, if_false, within_append] at hwalk
        obtain ⟨v, hv, hle⟩ := exists_value hwalk.1.2
        obtain ⟨a, ha, -⟩ := exists_attributeId message i
        have hrecord : message.At i (Reported.mk a v).response.encode :=
          at_append.mpr ⟨ha, by
            rw [length_littleEndian]
            exact ⟨hstatus, hv⟩⟩
        have hlen := (Reported.mk a v).length_response
        have hvlen : v.encode.length = (Reported.mk a v).value.encode.length := rfl
        rw [readAttributesResponse_of_at hrecord hlt, within_append] at h
        obtain ⟨rs, hrs, hn⟩ := ih _ (by omega) (by omega) h.2 rfl
        refine ⟨⟨a, v⟩ :: rs, ?_, ?_⟩
        · rw [flatMap_cons]
          exact at_append.mpr ⟨hrecord, hrs⟩
        · rwa [flatMap_cons, length_append, ← Nat.add_assoc]
      · refine ⟨[], at_nil, .inr ⟨?_, hstatus⟩⟩
        rw [readAttributesResponse_of_failed hstatus hlt, within_reads] at h
        have := h (i + 2) (by simp)
        rw [flatMap_nil, length_nil]
        omega
    · refine ⟨[], at_nil, .inl ?_⟩
      rw [flatMap_nil, length_nil]
      omega

end Honyar.TyZigbee
