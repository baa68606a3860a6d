import Mathlib.Algebra.GroupWithZero.Nat
import Honyar.Lib.Json

/-!
# JSON texts

`cJSON_PrintUnformatted`: the text of a value, without blanks.  Numbers are printed by a parameter.
-/

namespace Honyar

open List

namespace Json

def quote : Char := Char.ofNat 34
def backslash : Char := Char.ofNat 92

/-- A byte inside the quotes, as `print_string_ptr` writes it. -/
def escape (c : Char) : CText :=
  if 31 < c.toNat ∧ c ≠ quote ∧ c ≠ backslash then [c]
  else if c = quote ∨ c = backslash then [backslash, c]
  else
    match c.toNat with
    | 8 => [backslash, 'b']
    | 12 => [backslash, 'f']
    | 10 => [backslash, 'n']
    | 13 => [backslash, 'r']
    | 9 => [backslash, 't']
    | n => [backslash, 'u', '0', '0', Nat.digitChar (n / 16), Nat.digitChar (n % 16)]

/-- `print_string_ptr`. -/
def printString (input : CText) : CText := quote :: input.flatMap escape ++ [quote]

section

variable (printNumber : CText → Int → CText)

mutual

/-- `print_value`. -/
def print : Json → CText
  | .null => "null".toList
  | .bool b => if b then "true".toList else "false".toList
  | .number printed valueint => printNumber printed valueint
  | .string valuestring => printString valuestring
  | .array items => ['['] ++ printItems items ++ [']']
  | .object members => [Char.ofNat 123] ++ printMembers members ++ [Char.ofNat 125]

/-- The loop of `print_array`. -/
def printItems : List Json → CText
  | [] => []
  | [item] => item.print
  | item :: items => item.print ++ [','] ++ printItems items

/-- The loop of `print_object`. -/
def printMembers : List (CText × Json) → CText
  | [] => []
  | [(name, item)] => printString name ++ [':'] ++ item.print
  | (name, item) :: members => printString name ++ [':'] ++ item.print ++ [','] ++
      printMembers members

end

/-! ## Lengths -/

theorem length_escape_le (c : Char) : (escape c).length ≤ 6 := by
  unfold escape
  repeat' split
  all_goals simp

theorem length_flatMap_escape_le (input : CText) :
    (input.flatMap escape).length ≤ 6 * input.length := by
  induction input with
  | nil => simp
  | cons c input ih =>
    have hc := length_escape_le c
    rw [flatMap_cons, length_append, length_cons]
    omega

theorem length_printString (input : CText) :
    (printString input).length = (input.flatMap escape).length + 2 := by
  simp [printString]

theorem length_printString_le (input : CText) :
    (printString input).length ≤ 6 * input.length + 2 := by
  have h := length_flatMap_escape_le input
  rw [length_printString]
  omega

variable {printNumber}

@[simp] theorem print_string (t : CText) : print printNumber (.string t) = printString t := by
  rw [print]

/-- What an item of an array takes, with a comma. -/
theorem length_printItems (items : List Json) :
    (printItems printNumber items).length =
      (items.map fun item => (print printNumber item).length + 1).sum - 1 := by
  induction items with
  | nil => rfl
  | cons item items ih =>
    cases items with
    | nil => simp [printItems]
    | cons item' items =>
      rw [printItems, length_append, length_append, ih, map_cons, sum_cons]
      · simp only [map_cons, sum_cons, length_singleton]
        omega
      · simp

/-- What a member of an object takes, with a colon and a comma. -/
def memberLen (printNumber : CText → Int → CText) (m : CText × Json) : Nat :=
  (printString m.1).length + (print printNumber m.2).length + 2

theorem length_printMembers (ms : List (CText × Json)) :
    (printMembers printNumber ms).length = (ms.map (memberLen printNumber)).sum - 1 := by
  induction ms with
  | nil => rfl
  | cons m ms ih =>
    cases ms with
    | nil =>
      simp [printMembers, memberLen]
      omega
    | cons m' ms =>
      rw [printMembers, length_append, length_append, ih, map_cons,
        sum_cons]
      · simp only [map_cons, sum_cons, length_append, length_singleton,
          memberLen]
        omega
      · simp

theorem length_print_object (ms : List (CText × Json)) :
    (print printNumber (.object ms)).length = (ms.map (memberLen printNumber)).sum - 1 + 2 := by
  rw [print, length_append, length_append, length_printMembers]
  simp only [length_singleton]
  omega

theorem length_print_array (items : List Json) :
    (print printNumber (.array items)).length =
      (items.map fun item => (print printNumber item).length + 1).sum - 1 + 2 := by
  rw [print, length_append, length_append, length_printItems]
  simp only [length_singleton]
  omega

variable (printNumber) in
theorem memberLen_string_le (name t : CText) :
    memberLen printNumber (name, .string t) ≤ (printString name).length + 6 * t.length + 4 := by
  have h := length_printString_le t
  simp only [memberLen, print_string]
  omega

end

end Json

end Honyar
