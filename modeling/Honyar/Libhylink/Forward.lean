import Honyar.Hylink.Stream
import Honyar.Libhylink.Calls
import Mathlib.Data.List.TakeWhile

/-!
# The texts that are passed on

`hylinkRecv` (hylinkRecv.c) starts `hylinkRecvAnaly` behind every 0x02 of a chunk, on a text that
ends where the chunk ends.  The parser stops at the end of the first value, but what is passed on
(`TRANSFER_MQTT_REPORT`) is the text, from the first value to the end of the chunk.

The parser is a parameter `parse`, as it is for the gateway.
-/

namespace Honyar.Libhylink

open Hylink Faults List

variable {χ : Type} (p : Platform χ) (parse : CText → Option Json)

/-- A call of `hylinkRecvAnaly` that found a value, and the text it passed on. -/
structure Handled where
  root : Json
  forwarded : Option CText

/-- The byte that ends a text. -/
def nul : Char := Char.ofNat 0

/-- `hylinkRecvAnaly`, from the text on. -/
def hylinkRecvAnalyText (s : HyState χ) (json : CText) :
    Except Fault (HyState χ × List Handled × Bool) :=
  match parse json with
  | none => return (s, [], false)
  | some root => do
    let (s, ok) ← hylinkRecvAnaly p s root
    return (s, [⟨root, if ok then some json else none⟩], ok)

/-- The loop of `hylinkRecv`, and how many bytes it steps over first (`i += 2`). -/
def hylinkRecv : Nat → HyState χ → CText → Except Fault (HyState χ × List Handled)
  | _, s, [] => return (s, [])
  | skip + 1, s, _ :: data => hylinkRecv skip s data
  | 0, s, b :: data =>
    if b = stx then do
      let (s, os, ok) ← hylinkRecvAnalyText p parse s (data.takeWhile (· ≠ nul))
      let (s, rest) ← hylinkRecv (if ok then 2 else 0) s data
      return (s, os ++ rest)
    else hylinkRecv 0 s data

/-! ## Chunks of reports -/

/-- The text of a report and its value.  The text is that of an object, and the parser finds its
value whatever follows. -/
structure ReportText where
  text : CText
  value : Json
  printable : ∀ c ∈ text, 32 ≤ c.toNat
  two_le_length : 2 ≤ text.length
  parse_append (r : CText) : parse (text ++ r) = some value
  report : ∃ type ds, IsReport value type ds ∧ type ≠ .reFactory

variable {parse}

/-- The frames of the texts, as one chunk. -/
def chunk (ms : List (ReportText parse)) : CText := ms.flatMap fun m => stx :: m.text ++ [etx]

/-- The reports are handled one after the other, and the text of each is passed on. -/
def handleEach (s : HyState χ) : List (ReportText parse) → Except Fault (HyState χ × List Handled)
  | [] => return (s, [])
  | m :: ms => do
    let (s, _) ← hylinkRecvAnaly p s m.value
    let (s, rest) ← handleEach s ms
    return (s, ⟨m.value, some m.text⟩ :: rest)

/-- What is passed on instead: each text with all that follows it in the chunk. -/
def glued : List (ReportText parse) → List Handled
  | [] => []
  | m :: ms => ⟨m.value, some (m.text ++ etx :: chunk ms)⟩ :: glued ms

@[simp] theorem chunk_cons (m : ReportText parse) (ms : List (ReportText parse)) :
    chunk (m :: ms) = stx :: (m.text ++ etx :: chunk ms) := by
  simp [chunk]

theorem ReportText.stx_notMem (m : ReportText parse) : stx ∉ m.text := fun h =>
  absurd (m.printable stx h) (by decide)

theorem ReportText.nul_notMem (m : ReportText parse) : nul ∉ m.text := fun h =>
  absurd (m.printable nul h) (by decide)

theorem nul_notMem_chunk (ms : List (ReportText parse)) : nul ∉ chunk ms := by
  induction ms with
  | nil => exact not_mem_nil
  | cons m ms ih =>
    rw [chunk_cons, mem_cons, mem_append, mem_cons]
    rintro (h | h | h | h)
    · revert h
      decide
    · exact m.nul_notMem h
    · revert h
      decide
    · exact ih h

theorem takeWhile_nul {t : CText} (h : nul ∉ t) : t.takeWhile (· ≠ nul) = t := by
  rw [takeWhile_eq_self_iff]
  intro c hc
  have hne : c ≠ nul := fun heq => h (heq ▸ hc)
  simpa using hne

theorem hylinkRecv_append {t : CText} (ht : stx ∉ t) (c : CText) {skip : Nat}
    (hskip : skip ≤ t.length) (s : HyState χ) :
    hylinkRecv p parse skip s (t ++ c) = hylinkRecv p parse 0 s c := by
  induction t generalizing skip with
  | nil =>
    obtain rfl := Nat.le_zero.mp hskip
    rfl
  | cons b t ih =>
    rw [mem_cons, not_or] at ht
    cases skip with
    | zero => rw [cons_append, hylinkRecv, if_neg (Ne.symm ht.1), ih ht.2 (Nat.zero_le _)]
    | succ skip => rw [cons_append, hylinkRecv, ih ht.2 (Nat.le_of_succ_le_succ hskip)]

theorem ReportText.hylinkRecvAnaly_ok (m : ReportText parse) {s s' : HyState χ} {ok : Bool}
    (h : hylinkRecvAnaly p s m.value = .ok (s', ok)) : ok = true := by
  obtain ⟨type, ds, hreport, htype⟩ := m.report
  rw [hreport.hylinkRecvAnaly_eq htype] at h
  obtain ⟨r, -, h⟩ := bind_eq_ok.mp h
  obtain ⟨t, -, h⟩ := bind_eq_ok.mp h
  exact (Prod.mk.inj (Except.ok.inj h)).2.symm

/-- A chunk of reports is handled report by report; each is passed on with all that follows. -/
theorem hylinkRecv_chunk (s : HyState χ) (ms : List (ReportText parse)) :
    hylinkRecv p parse 0 s (chunk ms) =
      (handleEach p s ms).map fun r => (r.1, glued ms) := by
  induction ms generalizing s with
  | nil => rfl
  | cons m ms ih =>
    have hnul : nul ∉ m.text ++ etx :: chunk ms := by
      have hchunk := nul_notMem_chunk (m :: ms)
      rw [chunk_cons] at hchunk
      exact fun h => hchunk (mem_cons_of_mem _ h)
    have hetx : stx ∉ [etx] := stx_notMem_etx
    have hrest (s : HyState χ) : hylinkRecv p parse 2 s (m.text ++ etx :: chunk ms) =
        hylinkRecv p parse 0 s (chunk ms) := by
      have hetx : stx ∉ m.text ++ [etx] := by
        rw [mem_append, not_or]
        exact ⟨m.stx_notMem, stx_notMem_etx⟩
      have hskip : 2 ≤ (m.text ++ [etx]).length := by
        rw [length_append]
        exact Nat.le_add_right_of_le m.two_le_length
      rw [append_cons, hylinkRecv_append p hetx _ hskip]
    simp only [chunk_cons, hylinkRecv, if_true, takeWhile_nul hnul, hylinkRecvAnalyText,
      m.parse_append, handleEach]
    cases hm : hylinkRecvAnaly p s m.value with
    | error f => rfl
    | ok r =>
      have hok : r.2 = true := m.hylinkRecvAnaly_ok p hm
      simp only [ok_bind, pure_bind, hok, if_true, hrest, ih]
      cases handleEach p r.1 ms with
      | error f => rfl
      | ok r => rfl

theorem glued_ne {s s' : HyState χ} {ms : List (ReportText parse)} {os : List Handled}
    (h : handleEach p s ms = .ok (s', os)) (hms : ms ≠ []) : glued ms ≠ os := by
  cases ms with
  | nil => exact absurd rfl hms
  | cons m ms =>
    obtain ⟨r, -, h⟩ := bind_eq_ok.mp h
    obtain ⟨t, -, h⟩ := bind_eq_ok.mp h
    obtain ⟨-, rfl⟩ := Prod.mk.inj (Except.ok.inj h)
    intro heq
    have htext : m.text ++ etx :: chunk ms = m.text :=
      Option.some.inj (Handled.mk.inj (List.cons.inj heq).1).2
    exact cons_ne_nil _ _ (append_cancel_left (htext.trans (append_nil _).symm))

theorem roots_glued {s s' : HyState χ} {ms : List (ReportText parse)} {os : List Handled}
    (h : handleEach p s ms = .ok (s', os)) :
    (glued ms).map Handled.root = os.map Handled.root := by
  induction ms generalizing s os with
  | nil =>
    obtain ⟨-, rfl⟩ := Prod.mk.inj (Except.ok.inj h)
    rfl
  | cons m ms ih =>
    obtain ⟨r, -, h⟩ := bind_eq_ok.mp h
    obtain ⟨t, hrest, h⟩ := bind_eq_ok.mp h
    obtain ⟨rfl, rfl⟩ := Prod.mk.inj (Except.ok.inj h)
    rw [glued, map_cons, map_cons, ih hrest]

/-- The reports of a chunk are handled in order and each once; but that each is passed on alone
is so for the chunk without frames only, and where what a report does is undefined. -/
theorem forwarded_alone_iff (s : HyState χ) (ms : List (ReportText parse)) :
    (hylinkRecv p parse 0 s (chunk ms)).map (fun r => (r.1, r.2.map Handled.root)) =
      (handleEach p s ms).map (fun r => (r.1, r.2.map Handled.root)) ∧
    (hylinkRecv p parse 0 s (chunk ms) = handleEach p s ms ↔
      ms = [] ∨ ∃ f, handleEach p s ms = .error f) := by
  rw [hylinkRecv_chunk]
  cases h : handleEach p s ms with
  | error f => exact ⟨rfl, fun _ => .inr ⟨f, rfl⟩, fun _ => rfl⟩
  | ok r =>
    refine ⟨?_, ?_, ?_⟩
    · simp only [Except.map, roots_glued p h]
    · intro heq
      have hglued : glued ms = r.2 := (Prod.mk.inj (Except.ok.inj heq)).2
      refine .inl ?_
      by_contra hms
      exact glued_ne p h hms hglued
    · rintro (rfl | ⟨f, hf⟩)
      · rw [← h]
        rfl
      · cases hf

namespace Sample

/-- A name or a text in quotes. -/
def quoted (t : CText) : CText := '"' :: t ++ ['"']

/-- A report without elements. -/
def emptyReport : CText :=
  '{' :: quoted strCommand ++ ':' :: quoted strReport ++ ',' :: quoted strType ++
    ':' :: quoted ReportType.onOff.text ++ ',' :: quoted strData ++ [':', '[', ']', '}']

/-- Its value. -/
def emptyReportValue : Json :=
  .object [(strCommand, .string strReport), (strType, .string ReportType.onOff.text),
    (strData, .array [])]

/-- What the parser makes of the text, whatever follows. -/
def parseReport (t : CText) : Option Json :=
  if emptyReport.isPrefixOf t then some emptyReportValue else none

def reportText : ReportText parseReport where
  text := emptyReport
  value := emptyReportValue
  printable := by
    have hall : emptyReport.all (fun c => decide (32 ≤ c.toNat)) = true := by decide
    simpa using all_eq_true.mp hall
  two_le_length := by decide
  parse_append r := if_pos (List.isPrefixOf_iff_prefix.mpr (prefix_append _ r))
  report := ⟨.onOff, [], ⟨rfl, rfl, rfl⟩, by decide⟩

/-- A platform whose calls do nothing. -/
def quiet : Platform Unit := ⟨true, fun _ => none, fun _ _ w => .ok w⟩

end Sample

open Sample in
/-- Of two reports the first is passed on with the second behind it. -/
theorem not_forwarded_alone :
    ¬ ∀ (χ : Type) (p : Platform χ) (parse : CText → Option Json) (s : HyState χ)
      (ms : List (ReportText parse)),
      hylinkRecv p parse 0 s (chunk ms) = handleEach p s ms := by
  intro h
  have htwo := h Unit quiet parseReport ⟨[], ()⟩ [reportText, reportText]
  rw [hylinkRecv_chunk] at htwo
  have hforwarded := congrArg (Except.map fun r => r.2.map Handled.forwarded) htwo
  have hfirst : (some (emptyReport ++ etx :: chunk [reportText]) : Option CText) =
      some emptyReport := (List.cons.inj (Except.ok.inj hforwarded)).1
  revert hfirst
  decide

end Honyar.Libhylink
