import Honyar.Lib.Base64
import Honyar.Alink.MoreControl

/-!
# Reports in parts

`more_control_report` (more_control.c) posts a text in six fields of at most `MAX_TEXT_LEN`
characters.  It compares the length of the whole text with that of a part, not what is left of
it: of a text that is longer than a part every field takes a whole part, wherever the text ends.

`none` is a character that is read behind the terminator, or a part that is longer than its
array.
-/

namespace Honyar.Alink.MoreControl

open CText Option List

/-! ## The code -/

/-- `MAX_TEXT_LEN`. -/
def maxTextLen : Nat := 2000

/-- `strncpy(buf, &report[buf_addr], MAX_TEXT_LEN)` into an array that ends with a NUL. -/
def copyPart (report : CText) (bufAddr : Nat) : Option CText :=
  if bufAddr ≤ report.length then some (strncpy maxTextLen (report.drop bufAddr)) else none

/-- `strcpy(buf, &report[buf_addr])`. -/
def copyRest (report : CText) (bufAddr : Nat) : Option CText :=
  if bufAddr ≤ report.length then sprintf (maxTextLen + 1) [report.drop bufAddr] else none

/-- The loop of `more_control_report` with its remaining rounds: the texts of the fields. -/
def reportParts (report : CText) (len : Nat) : Nat → Nat → Option (List CText)
  | 0, _ => some []
  | rounds + 1, bufAddr =>
    if len > maxTextLen then do
      let buf ← copyPart report bufAddr
      let rest ← reportParts report len rounds (bufAddr + maxTextLen)
      return buf :: rest
    else if len = bufAddr then do
      let rest ← reportParts report len rounds bufAddr
      return [] :: rest
    else do
      let buf ← copyRest report bufAddr
      let rest ← reportParts report len rounds len
      return buf :: rest

/-- `text_index`. -/
def textIndex (i : Nat) : CText := "switchBindReport".toList ++ ofInt i

/-- The fields for the parts, and the response behind them. -/
def reportObject (parts : List CText) (respReport : CText) : Members :=
  ((List.range 6).map textIndex).zip (parts.map Json.string) ++
    [("switchBindReport".toList, .string respReport)]

/-- `more_control_report`: the object it posts. -/
def moreControlReport (report : CText) (len : Nat) (respReport : CText) : Option Members := do
  let parts ← reportParts report len 6 0
  return reportObject parts respReport

/-- The text of a response: in base64 for a query. -/
def responseText (T : Tables) (bindSwitch : CText) (root : Json) : CText :=
  if bindSwitch = "QueryBindSwitch".toList then
    Base64.encode ((T.printUnformatted root).map fun c => UInt8.ofNat c.toNat)
  else T.printUnformatted root

/-- What `response_control` has posted of a response. -/
def postResponse (T : Tables) (bindSwitch : CText) (root resp : Json) : Option Members :=
  let json := responseText T bindSwitch root
  moreControlReport json json.length (T.printUnformatted resp)

/-! ## Parts that make up the text -/

/-- The texts of the six fields are short enough and make up the report. -/
structure Reassembles (report : CText) (parts : List CText) : Prop where
  count : parts.length = 6
  short : ∀ t ∈ parts, t.length ≤ maxTextLen
  whole : parts.flatten = report

variable {report : CText} {bufAddr : Nat}

theorem reportParts_end (rounds : Nat) (h : report.length ≤ maxTextLen) :
    reportParts report report.length rounds report.length = some (List.replicate rounds []) := by
  induction rounds with
  | zero => rfl
  | succ rounds ih =>
    rw [reportParts, if_neg (Nat.not_lt.mpr h), if_pos rfl, ih]
    rfl

theorem reportParts_short (h : report.length ≤ maxTextLen) :
    reportParts report report.length 6 0 = some (report :: List.replicate 5 []) := by
  by_cases hnil : report.length = 0
  · have hend := reportParts_end 6 h
    rw [hnil] at hend ⊢
    rw [hend, length_eq_zero_iff.mp hnil]
    rfl
  · have hcopy : copyRest report 0 = some report := by
      rw [copyRest, if_pos (Nat.zero_le _), drop_zero, sprintf_singleton,
        if_pos (Nat.lt_succ_of_le h)]
    rw [reportParts, if_neg (Nat.not_lt.mpr h), if_neg hnil, hcopy, reportParts_end 5 h]
    rfl

/-- What begins at the `i`-th multiple of the length of a part. -/
def part (report : CText) (bufAddr i : Nat) : CText :=
  (report.drop (bufAddr + i * maxTextLen)).take maxTextLen

theorem map_part_succ (rounds : Nat) :
    (List.range (rounds + 1)).map (part report bufAddr) =
      part report bufAddr 0 :: (List.range rounds).map (part report (bufAddr + maxTextLen)) := by
  rw [range_succ_eq_map, map_cons, List.map_map]
  congr 1
  refine map_congr_left fun i _ => ?_
  rw [Function.comp_apply, part, part, Nat.succ_mul, Nat.add_comm (i * maxTextLen), Nat.add_assoc]

/-- Of a longer text every round takes a part, and the last one must begin in the text. -/
theorem reportParts_long (rounds : Nat) (h : maxTextLen < report.length) :
    reportParts report report.length (rounds + 1) bufAddr =
      if bufAddr + rounds * maxTextLen ≤ report.length then
        some ((List.range (rounds + 1)).map (part report bufAddr))
      else none := by
  induction rounds generalizing bufAddr with
  | zero =>
    rw [reportParts, if_pos h, copyPart, Nat.zero_mul, Nat.add_zero]
    by_cases hle : bufAddr ≤ report.length
    · rw [if_pos hle, if_pos hle, map_part_succ, part, Nat.zero_mul]
      rfl
    · rw [if_neg hle, if_neg hle]
      rfl
  | succ rounds ih =>
    have haddr : bufAddr + (rounds + 1) * maxTextLen =
        bufAddr + maxTextLen + rounds * maxTextLen := by
      rw [Nat.succ_mul]
      omega
    rw [reportParts, if_pos h, ih, haddr, copyPart]
    by_cases hle : bufAddr + maxTextLen + rounds * maxTextLen ≤ report.length
    · rw [if_pos hle, if_pos hle, if_pos (by omega), map_part_succ (rounds + 1), part,
        Nat.zero_mul]
      rfl
    · rw [if_neg hle, if_neg hle]
      cases (if bufAddr ≤ report.length then some _ else none : Option CText) <;> rfl

theorem flatten_parts (report : CText) (n : Nat) :
    ((List.range n).map (part report 0)).flatten = report.take (n * maxTextLen) := by
  induction n with
  | zero => rw [Nat.zero_mul, take_zero]; rfl
  | succ n ih =>
    rw [range_succ, map_append, flatten_append, ih, Nat.succ_mul, take_add,
      map_singleton, flatten_singleton, part, Nat.zero_add]

/-- The loop comes to its end for a text that is one part or reaches into the last one. -/
theorem reportParts_isSome_iff (report : CText) :
    (∃ parts, reportParts report report.length 6 0 = some parts) ↔
      report.length ≤ maxTextLen ∨ 5 * maxTextLen ≤ report.length := by
  rcases Nat.lt_or_ge maxTextLen report.length with hlong | hshort
  · rw [reportParts_long 5 hlong, Nat.zero_add]
    by_cases hlast : 5 * maxTextLen ≤ report.length
    · rw [if_pos hlast]
      exact iff_of_true ⟨_, rfl⟩ (.inr hlast)
    · rw [if_neg hlast]
      refine iff_of_false ?_ (by omega)
      rintro ⟨parts, h⟩
      cases h
  · rw [reportParts_short hshort]
    exact iff_of_true ⟨_, rfl⟩ (.inl hshort)

theorem reassembles_of_reportParts {parts : List CText} (hlen : report.length ≤ 6 * maxTextLen)
    (h : reportParts report report.length 6 0 = some parts) : Reassembles report parts := by
  rcases Nat.lt_or_ge maxTextLen report.length with hlong | hshort
  · rw [reportParts_long 5 hlong, ite_none_right_eq_some] at h
    obtain ⟨-, h⟩ := h
    obtain rfl := some.inj h
    refine ⟨?_, ?_, ?_⟩
    · rw [length_map, length_range]
    · intro t ht
      obtain ⟨i, -, rfl⟩ := List.mem_map.mp ht
      exact length_take_le ..
    · rw [flatten_parts, take_of_length_le hlen]
  · rw [reportParts_short hshort] at h
    obtain rfl := some.inj h
    refine ⟨rfl, ?_, ?_⟩
    · intro t ht
      rcases mem_cons.mp ht with rfl | ht
      · exact hshort
      · rw [eq_of_mem_replicate ht]
        exact Nat.zero_le _
    · simp

/-- A report of at most six parts is posted in fields that make it up, and nothing behind it is
read, exactly when it is one part or reaches into the last field. -/
theorem moreControlReport_reassembles_iff (report respReport : CText)
    (hlen : report.length ≤ 6 * maxTextLen) :
    (∃ parts, moreControlReport report report.length respReport =
        some (reportObject parts respReport) ∧ Reassembles report parts) ↔
      report.length ≤ maxTextLen ∨ 5 * maxTextLen ≤ report.length := by
  rw [← reportParts_isSome_iff]
  constructor
  · rintro ⟨parts, h, -⟩
    obtain ⟨parts', hparts, -⟩ := bind_eq_some_iff.mp h
    exact ⟨parts', hparts⟩
  · rintro ⟨parts, hparts⟩
    refine ⟨parts, ?_, reassembles_of_reportParts hlen hparts⟩
    rw [moreControlReport, hparts]
    rfl

/-- A report that is one part. -/
theorem moreControlReport_reassembles_short :
    (∃ parts, moreControlReport "{}".toList "{}".toList.length [] =
        some (reportObject parts []) ∧ Reassembles "{}".toList parts) ↔
      "{}".toList.length ≤ maxTextLen ∨ 5 * maxTextLen ≤ "{}".toList.length :=
  moreControlReport_reassembles_iff _ _ (by decide)

/-- A report of one character more than a part. -/
theorem moreControlReport_not_reassembles :
    (List.replicate 2001 'a').length ≤ 6 * maxTextLen ∧
      ¬ ∃ parts, moreControlReport (List.replicate 2001 'a') (List.replicate 2001 'a').length [] =
        some (reportObject parts []) ∧ Reassembles (List.replicate 2001 'a') parts := by
  have hlen : (List.replicate 2001 'a').length = 2001 := length_replicate
  refine ⟨by rw [hlen]; decide, ?_⟩
  rintro ⟨parts, h, -⟩
  rw [moreControlReport, reportParts_long 5 (by rw [hlen]; decide),
    if_neg (by rw [hlen]; decide)] at h
  cases h

/-- The answer to a query is posted in fields that decode to what was printed exactly when its text
has at most 1500 characters, or 7498 and more. -/
theorem postResponse_decodes_iff (T : Tables) (root resp : Json)
    (hlen : (T.printUnformatted root).length ≤ 9000) :
    (∃ parts, postResponse T "QueryBindSwitch".toList root resp =
        some (reportObject parts (T.printUnformatted resp)) ∧
      Base64.decode parts.flatten =
        (T.printUnformatted root).map fun c => UInt8.ofNat c.toNat) ↔
      (T.printUnformatted root).length ≤ 1500 ∨ 7498 ≤ (T.printUnformatted root).length := by
  let bytes := (T.printUnformatted root).map fun c => UInt8.ofNat c.toNat
  have htext : responseText T "QueryBindSwitch".toList root = Base64.encode bytes := if_pos rfl
  have hbytes : bytes.length = (T.printUnformatted root).length := length_map _
  have hfour := (Base64.length_encode bytes).1
  have hle := (Base64.le_length_encode bytes).1
  have hge := (Base64.length_encode_le bytes).1
  have hmax : maxTextLen = 2000 := rfl
  have hparts := reportParts_isSome_iff (Base64.encode bytes)
  simp only [postResponse, moreControlReport, htext]
  constructor
  · rintro ⟨parts, h, -⟩
    obtain ⟨parts', h', -⟩ := bind_eq_some_iff.mp h
    have hfits := hparts.mp ⟨parts', h'⟩
    omega
  · intro h
    obtain ⟨parts, h⟩ := hparts.mpr (by omega)
    refine ⟨parts, by rw [h]; rfl, ?_⟩
    rw [(reassembles_of_reportParts (by omega) h).whole, Base64.decode_encode]

theorem postResponse_decodes_braces :
    (∃ parts, postResponse ⟨fun _ => none, fun _ => none, fun _ => [], fun _ => "{}".toList⟩
        "QueryBindSwitch".toList .null .null = some (reportObject parts "{}".toList) ∧
      Base64.decode parts.flatten = "{}".toList.map fun c => UInt8.ofNat c.toNat) ↔
      "{}".toList.length ≤ 1500 ∨ 7498 ≤ "{}".toList.length :=
  postResponse_decodes_iff _ _ _ (by decide)

end Honyar.Alink.MoreControl
