import Honyar.Lib.CText
import Mathlib.Algebra.Group.Nat.Defs
import Mathlib.Data.List.TakeWhile

/-!
# Decimal texts

`atoi` reads what `%d` prints.  `strcmp` orders texts of equally many digits as
their numbers; of two numbers of different length it puts the longer one first
when its leading digits say so.
-/

namespace Honyar.CText

open List Nat

variable {n : Nat} {c : Char} {t : CText}

theorem isDigit_eq (c : Char) : isDigit c = c.isDigit := by
  simp [isDigit, Char.isDigit, Char.le_def]

theorem isDigit_of_mem_toDigits (hc : c ∈ Nat.toDigits 10 n) : isDigit c = true := by
  rw [isDigit_eq]
  exact Nat.isDigit_of_mem_toDigits (by decide) (by decide) hc

theorem digits_toDigits (n : Nat) : digits (Nat.toDigits 10 n) = Nat.toDigits 10 n :=
  takeWhile_eq_self_iff.mpr fun _ hc => isDigit_of_mem_toDigits hc

theorem digitsVal_toDigits (n : Nat) : digitsVal (Nat.toDigits 10 n) = n :=
  ofDigitChars_ten_toDigits

/-- What begins with a digit has no white space or sign before it. -/
theorem dropWhile_isSpace_of_isDigit (hc : isDigit c = true) (s : CText) :
    (c :: s).dropWhile isSpace = c :: s := by
  have hle : 48 ≤ c.toNat := of_decide_eq_true (Bool.and_eq_true_iff.mp hc).1
  refine dropWhile_cons_of_neg ?_
  simp only [isSpace, Bool.or_eq_true, Bool.and_eq_true, beq_iff_eq, decide_eq_true_eq]
  rintro (rfl | h)
  · revert hle
    decide
  · omega

theorem sign_of_isDigit (hc : isDigit c = true) (s : CText) : sign (c :: s) = (1, c :: s) := by
  unfold sign
  split
  next heq =>
    obtain ⟨rfl, -⟩ := cons.inj heq
    cases hc
  next heq =>
    obtain ⟨rfl, -⟩ := cons.inj heq
    cases hc
  next => rfl

/-- Digits alone are read as their number. -/
theorem atoi_of_digits (ht : ∀ c ∈ t, isDigit c = true) : atoi t = digitsVal t := by
  cases t with
  | nil => rfl
  | cons c s =>
    have hc := ht c mem_cons_self
    have hall : digits (c :: s) = c :: s := takeWhile_eq_self_iff.mpr ht
    rw [atoi, dropWhile_isSpace_of_isDigit hc, sign_of_isDigit hc]
    simp only [hall, one_mul]

/-- A number that is printed is read back. -/
theorem atoi_ofInt (i : Int) : atoi (ofInt i) = i := by
  obtain ⟨c, s, hcs⟩ : ∃ c s, toDigits 10 i.natAbs = c :: s :=
    exists_cons_of_ne_nil toDigits_ne_nil
  have hc : isDigit c = true := isDigit_of_mem_toDigits (hcs ▸ mem_cons_self)
  have hval : digitsVal (digits (c :: s)) = i.natAbs := by
    rw [← hcs, digits_toDigits, digitsVal_toDigits]
  unfold ofInt
  split
  next hneg =>
    have hspace : (('-' :: toDigits 10 i.natAbs).dropWhile isSpace) =
        '-' :: toDigits 10 i.natAbs := rfl
    simp only [atoi, hspace, sign]
    rw [hcs, hval]
    omega
  next hpos =>
    rw [hcs, atoi, dropWhile_isSpace_of_isDigit hc, sign_of_isDigit hc]
    simp only [hval]
    omega

/-- A number of at most `k` digits is printed with its sign. -/
theorem length_ofInt_le {i : Int} {k : Nat} (hk : 0 < k) (h : i.natAbs < 10 ^ k) :
    (ofInt i).length ≤ k + 1 := by
  have hdigits : (toDigits 10 i.natAbs).length ≤ k :=
    (length_toDigits_le_iff (by decide) hk).mpr h
  rw [ofInt]
  split
  · simpa using hdigits
  · omega

/-! ## The order of `strcmp` -/

section Strcmp

variable {s : CText}

theorem strcmp_cons_self (c : Char) (s t : CText) : strcmp (c :: s) (c :: t) = strcmp s t :=
  if_pos rfl

theorem strcmp_comm (s t : CText) : strcmp s t = -strcmp t s := by
  induction s generalizing t with
  | nil => cases t <;> simp [strcmp]
  | cons c s ih =>
    cases t with
    | nil => simp [strcmp]
    | cons d t =>
      by_cases hcd : c = d
      · rw [hcd, strcmp_cons_self, strcmp_cons_self, ih]
      · rw [strcmp, strcmp, if_neg hcd, if_neg (Ne.symm hcd), Int.neg_sub]

/-- A text is before those it begins. -/
theorem strcmp_append_nonpos (s r : CText) : strcmp s (s ++ r) ≤ 0 := by
  induction s with
  | nil => cases r <;> simp [strcmp]
  | cons c s ih =>
    rw [cons_append, strcmp_cons_self]
    exact ih

/-- What stands behind the length of the first text does not matter once the
texts differ before. -/
theorem strcmp_append_right (hlen : s.length = t.length) (hne : s ≠ t) (r : CText) :
    strcmp s (t ++ r) = strcmp s t := by
  induction s generalizing t with
  | nil => exact absurd (length_eq_zero_iff.mp hlen.symm).symm hne
  | cons c s ih =>
    obtain ⟨d, t, rfl⟩ := exists_cons_of_length_eq_add_one hlen.symm
    by_cases hcd : c = d
    · subst hcd
      rw [cons_append, strcmp_cons_self, strcmp_cons_self]
      exact ih (by simpa using hlen) (fun h => hne (h ▸ rfl))
    · rw [cons_append, strcmp, strcmp, if_neg hcd, if_neg hcd]

theorem digitsVal_cons (c : Char) (s : CText) :
    digitsVal (c :: s) = 10 ^ s.length * (c.toNat - '0'.toNat) + digitsVal s := by
  have hcons : digitsVal (c :: s) = Nat.ofDigitChars 10 s (10 * 0 + (c.toNat - '0'.toNat)) := rfl
  rw [hcons, Nat.ofDigitChars_eq_ofDigitChars_zero, Nat.mul_zero, Nat.zero_add]
  rfl

theorem digitsVal_lt (hs : ∀ c ∈ s, isDigit c = true) : digitsVal s < 10 ^ s.length := by
  induction s with
  | nil => exact Nat.one_pos
  | cons c s ih =>
    obtain ⟨hc, hs⟩ := forall_mem_cons.mp hs
    have hdigit : c.toNat - '0'.toNat ≤ 9 := by
      have hle : c.toNat ≤ 57 := of_decide_eq_true (Bool.and_eq_true_iff.mp hc).2
      have hzero : '0'.toNat = 48 := rfl
      omega
    calc digitsVal (c :: s)
        = 10 ^ s.length * (c.toNat - '0'.toNat) + digitsVal s := digitsVal_cons c s
      _ < 10 ^ s.length * 9 + 10 ^ s.length :=
          Nat.add_lt_add_of_le_of_lt (Nat.mul_le_mul_left _ hdigit) (ih hs)
      _ = 10 ^ (c :: s).length := by rw [length_cons, Nat.pow_succ]; omega

/-- Equally many digits are ordered as the numbers they denote. -/
theorem strcmp_neg_iff_digitsVal_lt (hs : ∀ c ∈ s, isDigit c = true)
    (ht : ∀ c ∈ t, isDigit c = true) (hlen : s.length = t.length) :
    strcmp s t < 0 ↔ digitsVal s < digitsVal t := by
  induction s generalizing t with
  | nil =>
    obtain rfl := length_eq_zero_iff.mp hlen.symm
    simp [strcmp]
  | cons c s ih =>
    obtain ⟨d, t, rfl⟩ := exists_cons_of_length_eq_add_one hlen.symm
    obtain ⟨hc, hs'⟩ := forall_mem_cons.mp hs
    obtain ⟨hd, ht'⟩ := forall_mem_cons.mp ht
    have hlen' : s.length = t.length := by simpa using hlen
    have hslt := digitsVal_lt hs'
    have htlt := digitsVal_lt ht'
    rw [← hlen'] at htlt
    rw [digitsVal_cons, digitsVal_cons, ← hlen']
    by_cases hcd : c = d
    · subst hcd
      rw [strcmp_cons_self, ih hs' ht' hlen', Nat.add_lt_add_iff_left]
    · have hc48 : 48 ≤ c.toNat := of_decide_eq_true (Bool.and_eq_true_iff.mp hc).1
      have hd48 : 48 ≤ d.toNat := of_decide_eq_true (Bool.and_eq_true_iff.mp hd).1
      have hzero : '0'.toNat = 48 := rfl
      have hne : c.toNat ≠ d.toNat := fun h => hcd (Char.toNat_inj.mp h)
      rw [strcmp, if_neg hcd, hzero]
      -- a smaller leading digit outweighs all that follows
      rcases Nat.lt_or_gt_of_ne hne with hlt | hgt
      · refine iff_of_true (by omega) ?_
        have hlead : 10 ^ s.length * (c.toNat - 48 + 1) ≤ 10 ^ s.length * (d.toNat - 48) :=
          Nat.mul_le_mul_left _ (by omega)
        rw [Nat.mul_add, Nat.mul_one] at hlead
        omega
      · refine iff_of_false (by omega) ?_
        have hlead : 10 ^ s.length * (d.toNat - 48 + 1) ≤ 10 ^ s.length * (c.toNat - 48) :=
          Nat.mul_le_mul_left _ (by omega)
        rw [Nat.mul_add, Nat.mul_one] at hlead
        omega

/-- The digits of a number begin with those of a quotient. -/
theorem toDigits_eq_append {k : Nat} (hk : k < (Nat.toDigits 10 n).length) :
    ∃ r, Nat.toDigits 10 n = Nat.toDigits 10 (n / 10 ^ k) ++ r ∧ r.length = k := by
  induction k generalizing n with
  | zero => exact ⟨[], by simp, rfl⟩
  | succ k ih =>
    have hle : 10 ≤ n := by
      by_contra hlt
      rw [Nat.toDigits_of_lt_base (by omega)] at hk
      simp at hk
    have hsplit := Nat.toDigits_of_base_le (b := 10) (by decide) hle
    obtain ⟨r, hr, hlen⟩ := ih (n := n / 10) (by
      rw [hsplit, length_append, length_singleton] at hk
      omega)
    refine ⟨r ++ [(n % 10).digitChar], ?_, by rw [length_append, hlen]; rfl⟩
    rw [hsplit, hr, append_assoc, Nat.div_div_eq_div_mul, Nat.pow_succ, Nat.mul_comm 10]

theorem toDigits_injective : Function.Injective (Nat.toDigits 10) := by
  intro m n h
  rw [← digitsVal_toDigits m, h, digitsVal_toDigits]

theorem length_toDigits_mono {m : Nat} (h : m ≤ n) :
    (Nat.toDigits 10 m).length ≤ (Nat.toDigits 10 n).length := by
  rw [length_toDigits_le_iff (by decide) length_toDigits_pos]
  exact lt_of_le_of_lt h ((length_toDigits_le_iff (by decide)
    length_toDigits_pos).mp (le_refl _))

/-- The first number has fewer digits than the second and is above what as many of
its digits denote. -/
def Leads (m n : Nat) : Prop :=
  (Nat.toDigits 10 m).length < (Nat.toDigits 10 n).length ∧
    n / 10 ^ ((Nat.toDigits 10 n).length - (Nat.toDigits 10 m).length) < m

instance Leads.instDecidable (m n : Nat) : Decidable (Leads m n) :=
  inferInstanceAs (Decidable (_ ∧ _))

/-- Of two numbers the smaller is the greater text exactly when it leads. -/
theorem strcmp_toDigits_pos_iff {m : Nat} (h : m < n) :
    0 < strcmp (Nat.toDigits 10 m) (Nat.toDigits 10 n) ↔ Leads m n := by
  have hdigit := fun k c => @isDigit_of_mem_toDigits k c
  rcases eq_or_lt_of_le (length_toDigits_mono h.le) with heq | hlt
  · have hneg : strcmp (toDigits 10 m) (toDigits 10 n) < 0 := by
      rw [strcmp_neg_iff_digitsVal_lt (hdigit m) (hdigit n) heq, digitsVal_toDigits,
        digitsVal_toDigits]
      exact h
    exact iff_of_false (by omega) fun hleads => by have := hleads.1; omega
  · have hpos : 0 < (toDigits 10 m).length := length_toDigits_pos
    obtain ⟨r, hr, hrlen⟩ := toDigits_eq_append
      (n := n) (k := (toDigits 10 n).length - (toDigits 10 m).length) (by omega)
    rw [Leads, and_iff_right hlt]
    generalize n / 10 ^ ((toDigits 10 n).length - (toDigits 10 m).length) = q at hr ⊢
    have hqlen : (toDigits 10 q).length = (toDigits 10 m).length := by
      have := congrArg length hr
      rw [length_append] at this
      omega
    rw [hr]
    by_cases hmq : m = q
    · subst hmq
      exact iff_of_false (not_lt.mpr (strcmp_append_nonpos _ r)) (lt_irrefl m)
    · rw [strcmp_append_right hqlen.symm (fun hdig => hmq (toDigits_injective hdig)), strcmp_comm,
        Int.neg_pos, strcmp_neg_iff_digitsVal_lt (hdigit q) (hdigit m) hqlen, digitsVal_toDigits,
        digitsVal_toDigits]

/-- Texts without a terminator inside are told apart. -/
theorem strcmp_eq_zero_iff (hs : ∀ c ∈ s, c.toNat ≠ 0) (ht : ∀ c ∈ t, c.toNat ≠ 0) :
    strcmp s t = 0 ↔ s = t := by
  induction s generalizing t with
  | nil =>
    cases t with
    | nil => exact iff_of_true rfl rfl
    | cons d t => simpa [strcmp] using (forall_mem_cons.mp ht).1
  | cons c s ih =>
    cases t with
    | nil => simpa [strcmp] using (forall_mem_cons.mp hs).1
    | cons d t =>
      by_cases hcd : c = d
      · rw [hcd, strcmp_cons_self, ih (forall_mem_cons.mp hs).2
          (forall_mem_cons.mp ht).2, cons_inj_right]
      · have hne : c.toNat ≠ d.toNat := fun h => hcd (Char.toNat_inj.mp h)
        rw [strcmp, if_neg hcd]
        exact iff_of_false (by omega) fun h => hcd (cons.inj h).1

theorem toNat_ne_zero_of_isDigit (hc : isDigit c = true) : c.toNat ≠ 0 := by
  have hle : 48 ≤ c.toNat := of_decide_eq_true (Bool.and_eq_true_iff.mp hc).1
  omega

end Strcmp

end Honyar.CText
