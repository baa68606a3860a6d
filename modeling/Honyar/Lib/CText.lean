import Mathlib.Data.Rat.Defs
import Mathlib.Algebra.Order.Ring.Unbundled.Rat

/-!
# Texts as C sees them

A NUL-terminated text is the list of its characters before the terminator; a
byte is the character with that code.  The functions below are the ones of
`string.h`, `stdio.h` and `stdlib.h` the development needs, under their own
names.  `atoi` and `atof` return the exact value of the number the text starts
with: overflow of `int` and rounding of `double` are not part of the model.
-/

namespace Honyar

/-- A C string: its characters up to, and without, the terminator. -/
abbrev CText := List Char

namespace CText

instance instLawfulBEq : LawfulBEq CText := inferInstance

/-- `strncpy` of at most `n` characters into a field that holds `n`. -/
def strncpy (n : Nat) (s : CText) : CText := s.take n

/-- `!strncmp(a, b, n)`. -/
def strncmpEq (n : Nat) (a b : CText) : Bool := a.take n == b.take n

/-- `!strcasecmp(a, b)` in the C locale. -/
def strcasecmpEq (a b : CText) : Bool := a.map Char.toLower == b.map Char.toLower

/-- `strcmp`: the difference of the first characters that differ. -/
def strcmp : CText → CText → Int
  | [], [] => 0
  | [], b :: _ => -(b.toNat : Int)
  | a :: _, [] => a.toNat
  | a :: as, b :: bs => if a = b then strcmp as bs else (a.toNat : Int) - b.toNat

example (t : CText) : strcmp ('1' :: t) ('2' :: t) = -1 := by simp [strcmp]

/-- `strstr(s, pat) != NULL`. -/
def strstr (s pat : CText) : Bool := s.tails.any pat.isPrefixOf

/-- `snprintf` of concatenated texts into a buffer of `size` bytes, one of them
for the terminator. -/
def snprintf (size : Nat) (parts : List CText) : CText := parts.flatten.take (size - 1)

/-- `sprintf` of concatenated texts into a buffer of `size` bytes: `none` when it
writes behind its end. -/
def sprintf (size : Nat) (parts : List CText) : Option CText :=
  if parts.flatten.length < size then some parts.flatten else none

/-- What `%d` prints. -/
def ofInt (i : Int) : CText :=
  if i < 0 then '-' :: Nat.toDigits 10 i.natAbs else Nat.toDigits 10 i.natAbs

/-- The tokens `strsep` yields: what stands between the delimiters, be it empty. -/
def strsep (delim : List Char) (s : CText) : List CText := s.splitOnP (· ∈ delim)

/-- The tokens `strtok_r` yields: maximal runs without the delimiter. -/
def strtok (delim : Char) (s : CText) : List CText :=
  (s.splitOn delim).filter (· ≠ [])

/-- `isspace` of the C locale. -/
def isSpace (c : Char) : Bool :=
  c == ' ' || (9 ≤ c.toNat && c.toNat ≤ 13)

/-- `c` is one of `'0'` to `'9'`. -/
def isDigit (c : Char) : Bool := '0' ≤ c && c ≤ '9'

/-- The digits a text starts with. -/
def digits (s : CText) : CText := s.takeWhile isDigit

/-- The number a list of digits denotes. -/
def digitsVal (s : CText) : Nat := s.foldl (fun n c => 10 * n + (c.toNat - '0'.toNat)) 0

/-- Reads an optional sign: the factor and the rest of the text. -/
def sign : CText → Int × CText
  | '-' :: s => (-1, s)
  | '+' :: s => (1, s)
  | s => (1, s)

/-- `atoi`: white space, a sign and digits; `0` when there are none. -/
def atoi (s : CText) : Int :=
  let (f, t) := sign (s.dropWhile isSpace)
  f * digitsVal (digits t)

/-- The fraction behind a decimal point, and the rest of the text. -/
def fraction : CText → ℚ × CText
  | '.' :: s =>
    let d := digits s
    ((digitsVal d : ℚ) / 10 ^ d.length, s.drop d.length)
  | s => (0, s)

/-- The power of ten an exponent `e±d` stands for. -/
def exponent : CText → ℚ
  | c :: s =>
    if c = 'e' ∨ c = 'E' then
      let (f, t) := sign s
      if f = 1 then 10 ^ digitsVal (digits t) else 1 / 10 ^ digitsVal (digits t)
    else 1
  | [] => 1

/-- `atof` on decimal texts: white space, a sign, digits, a fraction and an
exponent, each optional. -/
def atof (s : CText) : ℚ :=
  let (f, t) := sign (s.dropWhile isSpace)
  let d := digits t
  let (q, u) := fraction (t.drop d.length)
  f * ((digitsVal d : ℚ) + q) * exponent u

example : atoi [' ', '-', '1', '2', 'x'] = -12 := by decide

theorem strncmpEq_iff {n : Nat} {a b : CText} : strncmpEq n a b = true ↔ a.take n = b.take n := by
  simp [strncmpEq]

/-- One text alone is copied when it fits. -/
theorem sprintf_singleton (size : Nat) (s : CText) :
    sprintf size [s] = if s.length < size then some s else none := by
  rw [sprintf, List.flatten_singleton]

theorem sprintf_singleton_eq_some {size : Nat} {s t : CText} :
    sprintf size [s] = some t ↔ s.length < size ∧ s = t := by
  rw [sprintf_singleton, Option.ite_none_right_eq_some, Option.some.injEq]

/-- A token is cut off at its delimiter. -/
theorem strsep_append_cons {delim : List Char} {t : CText} (ht : ∀ c ∈ t, c ∉ delim) {d : Char}
    (hd : d ∈ delim) (s : CText) : strsep delim (t ++ d :: s) = t :: strsep delim s :=
  List.splitOnP_append_cons_of_forall_mem (by simpa using ht) d (by simpa using hd) s

/-- Tokens with a delimiter between them are cut apart. -/
theorem strsep_intercalate {delim : List Char} {d : Char} (hd : d ∈ delim) {ts : List CText}
    (hts : ∀ t ∈ ts, ∀ c ∈ t, c ∉ delim) (hne : ts ≠ []) :
    strsep delim ([d].intercalate ts) = ts := by
  induction ts with
  | nil => exact absurd rfl hne
  | cons t ts ih =>
    obtain ⟨ht, hrest⟩ := List.forall_mem_cons.mp hts
    by_cases hnil : ts = []
    · subst hnil
      rw [List.intercalate_singleton]
      exact List.splitOnP_eq_singleton (by simpa using ht)
    · rw [List.intercalate_cons_of_ne_nil hnil, List.append_assoc, List.singleton_append,
        strsep_append_cons ht hd, ih hrest hnil]

end CText

end Honyar
