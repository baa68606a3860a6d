import Honyar.Lib.Decimal
import Mathlib.Data.List.Lex
import Mathlib.Data.List.DropRight

/-!
# Versions

`base_version_comp` of base_string.c: two texts are copied, cut down to what stands between their
first and last digits, looked through for foreign characters, cut at their dots, and compared
number by number.

`none` is what C leaves open: a text of 18 characters or more fills its array without a
terminator, and `atoi` is asked for numbers of an `int` only.
-/

namespace Honyar.Toolsdk

open CText Option List

variable {s t : CText}

/-! ## The code -/

/-- `VERSION_MAX_LEN`. -/
def versionMaxLen : Nat := 18

/-- `c > '9' || c < '0'`. -/
def notDigit (c : Char) : Bool := c > '9' || c < '0'

/-- The array a text is copied into, up to its terminator. -/
def versionText (pcVer : CText) : Option CText :=
  if pcVer.length < versionMaxLen then some pcVer else none

/-- The loop that moves the pointer to the first digit. -/
def skipFront : CText → CText
  | [] => []
  | c :: s => if notDigit c then skipFront s else c :: s

/-- The loop that puts terminators behind the last digit; `i` is one more than its index. -/
def cutBack (s : CText) : Nat → CText
  | 0 => s
  | i + 1 =>
    match s[i]? with
    | some c => if notDigit c then cutBack (s.take i) i else s
    | none => s

/-- A text without what stands before its first and behind its last digit. -/
def trim (s : CText) : CText := cutBack (skipFront s) (skipFront s).length

/-- The loop that counts the characters that are neither digits nor dots. -/
def countForeign (s : CText) : Nat := s.countP fun c => notDigit c && c != '.'

/-- `atoi`, of a number that an `int` holds. -/
def atoiInt (t : CText) : Option Int :=
  if -2 ^ 31 ≤ atoi t ∧ atoi t < 2 ^ 31 then some (atoi t) else none

/-- The loop over the numbers of both texts. -/
def compareLoop : List CText → List CText → Option Int
  | n :: ns, o :: os => do
    let new ← atoiInt n
    let old ← atoiInt o
    if new > old then return 1
    else if new < old then return -1
    else compareLoop ns os
  | _, _ => some 0

/-- `base_version_comp`. -/
def baseVersionComp (pcNewVer pcOldVer : CText) : Option Int := do
  let acNewVer ← versionText pcNewVer
  let acOldVer ← versionText pcOldVer
  let pcNewVer2 := trim acNewVer
  let pcOldVer2 := trim acOldVer
  if countForeign pcNewVer2 ≠ 0 then return -2
  else if countForeign pcOldVer2 ≠ 0 then return -2
  else
    let apcNewVerNum := strtok '.' pcNewVer2
    let apcOldVerNum := strtok '.' pcOldVer2
    if apcNewVerNum.length ≠ apcOldVerNum.length then return -2
    else compareLoop apcNewVerNum apcOldVerNum

/-! ## What versions are -/

section Order

variable {α : Type} [LinearOrder α]
variable {x y : α}

/-- How two values compare, as a number. -/
def orderSign (x y : α) : Int := if y < x then 1 else if x < y then -1 else 0

theorem orderSign_swap (x y : α) : orderSign y x = -orderSign x y := by
  unfold orderSign
  rcases lt_trichotomy x y with h | rfl | h
  · rw [if_pos h, if_neg h.not_gt, if_pos h, neg_neg]
  · rw [if_neg (lt_irrefl x), if_neg (lt_irrefl x), neg_zero]
  · rw [if_neg h.not_gt, if_pos h, if_pos h]

theorem orderSign_nonneg : 0 ≤ orderSign x y ↔ y ≤ x := by
  unfold orderSign
  rcases lt_trichotomy x y with h | rfl | h
  · simp [h, h.not_gt]
  · simp
  · simp [h, h.le]

theorem orderSign_trans {z : α} (hxy : 0 ≤ orderSign x y) (hyz : 0 ≤ orderSign y z) :
    orderSign x z = max (orderSign x y) (orderSign y z) := by
  rw [orderSign_nonneg] at hxy hyz
  rcases hxy.lt_or_eq with hxy | rfl <;> rcases hyz.lt_or_eq with hyz | rfl
  · simp [orderSign, hxy, hyz, hyz.trans hxy]
  · simp [orderSign, hxy]
  · simp [orderSign, hyz]
  · simp [orderSign]

theorem orderSign_eq_one : orderSign x y = 1 ↔ y < x := by
  unfold orderSign
  rcases lt_trichotomy x y with h | rfl | h
  · simp [h, h.not_gt]
  · simp
  · simp [h]

theorem orderSign_eq_zero : orderSign x y = 0 ↔ x = y := by
  unfold orderSign
  rcases lt_trichotomy x y with h | rfl | h
  · simp [h, h.not_gt, h.ne]
  · simp
  · simp [h, h.ne']

theorem orderSign_eq_neg_one : orderSign x y = -1 ↔ x < y := by
  rw [orderSign_swap, neg_inj, orderSign_eq_one]

theorem orderSign_cons (x y : α) (xs ys : List α) :
    orderSign (x :: xs) (y :: ys) = if y < x then 1 else if x < y then -1 else orderSign xs ys := by
  unfold orderSign
  rcases lt_trichotomy x y with h | rfl | h
  · have hlt : x :: xs < y :: ys := cons_lt_cons_iff.mpr (.inl h)
    rw [if_neg hlt.not_gt, if_pos hlt, if_neg h.not_gt, if_pos h]
  · have hcons {us vs : List α} : x :: us < x :: vs ↔ us < vs := by
      rw [cons_lt_cons_iff]
      simp
    rw [if_neg (lt_irrefl x), if_neg (lt_irrefl x)]
    simp only [hcons]
    split_ifs <;> rfl
  · have hlt : y :: ys < x :: xs := cons_lt_cons_iff.mpr (.inl h)
    rw [if_pos hlt, if_pos h]

end Order

/-- What stands between the first and the last digit. -/
def core (s : CText) : CText := (s.dropWhile (!isDigit ·)).rdropWhile (!isDigit ·)

/-- Nothing but digits and dots is left. -/
def Numeric (s : CText) : Prop := ∀ c ∈ core s, isDigit c = true ∨ c = '.'

/-- The numbers between the dots. -/
def components (s : CText) : List Nat :=
  (((core s).splitOn '.').filter (· ≠ [])).map digitsVal

/-- A text that is shorter than its array, with numbers of 31 bits. -/
structure VersionFits (s : CText) : Prop where
  length : s.length < 18
  number : Numeric s → ∀ n ∈ components s, n < 2 ^ 31

/-- Both texts are versions, with as many numbers. -/
def Comparable (s t : CText) : Prop :=
  Numeric s ∧ Numeric t ∧ (components s).length = (components t).length

theorem notDigit_eq (c : Char) : notDigit c = !isDigit c := by
  rw [notDigit, isDigit, Bool.eq_iff_iff]
  simp [or_comm]

theorem skipFront_eq (s : CText) : skipFront s = s.dropWhile (!isDigit ·) := by
  induction s with
  | nil => rfl
  | cons c s ih => rw [skipFront, dropWhile_cons, notDigit_eq, ih]

theorem cutBack_eq (s : CText) : cutBack s s.length = s.rdropWhile (!isDigit ·) := by
  induction s using reverseRecOn with
  | nil => rfl
  | append_singleton s c ih =>
    have hlast : (s ++ [c])[s.length]? = some c := by simp
    rw [length_append, length_singleton, cutBack, hlast, take_left,
      rdropWhile_concat, ← ih, ← notDigit_eq]

theorem trim_eq (s : CText) : trim s = core s := by
  rw [trim, cutBack_eq, skipFront_eq]
  rfl

theorem countForeign_eq_zero (s : CText) : countForeign (trim s) = 0 ↔ Numeric s := by
  rw [countForeign, countP_eq_zero, trim_eq]
  refine forall₂_congr fun c _ => ?_
  rw [notDigit_eq]
  cases isDigit c <;> simp

theorem of_mem_splitOn {a : Char} (ht : t ∈ s.splitOn a) : ∀ c ∈ t, c ∈ s ∧ c ≠ a := by
  induction s generalizing t with
  | nil =>
    obtain rfl := mem_singleton.mp ht
    exact fun c hc => absurd hc not_mem_nil
  | cons x s ih =>
    rw [splitOn_cons_eq_if_modifyHead] at ht
    have hrest {u : CText} (hu : u ∈ s.splitOn a) : ∀ c ∈ u, c ∈ x :: s ∧ c ≠ a :=
      fun c hc => ⟨mem_cons_of_mem _ (ih hu c hc).1, (ih hu c hc).2⟩
    split at ht
    next =>
      rcases mem_cons.mp ht with rfl | ht
      · exact fun c hc => absurd hc not_mem_nil
      · exact hrest ht
    next hx =>
      cases hs : s.splitOn a with
      | nil => exact absurd hs (splitOn_ne_nil a s)
      | cons u us =>
        rw [hs] at hrest
        rw [hs, modifyHead_cons] at ht
        rcases mem_cons.mp ht with rfl | ht
        · intro c hc
          rcases mem_cons.mp hc with rfl | hc
          · exact ⟨mem_cons_self, by simpa using hx⟩
          · exact hrest mem_cons_self c hc
        · exact hrest (mem_cons_of_mem _ ht)

theorem isDigit_of_mem_strtok (hs : Numeric s) (ht : t ∈ strtok '.' (core s)) :
    ∀ c ∈ t, isDigit c = true := by
  intro c hc
  obtain ⟨hmem, hne⟩ := of_mem_splitOn (mem_of_mem_filter ht) c hc
  exact (hs c hmem).resolve_right hne

theorem compareLoop_eq {ns os : List CText} (hlen : ns.length = os.length)
    (hns : ∀ t ∈ ns, atoiInt t = some (digitsVal t : Int))
    (hos : ∀ t ∈ os, atoiInt t = some (digitsVal t : Int)) :
    compareLoop ns os = some (orderSign (ns.map digitsVal) (os.map digitsVal)) := by
  induction ns generalizing os with
  | nil =>
    obtain rfl := length_eq_zero_iff.mp hlen.symm
    simp [compareLoop, orderSign]
  | cons n ns ih =>
    cases os with
    | nil => cases hlen
    | cons o os =>
      obtain ⟨hn, hns⟩ := forall_mem_cons.mp hns
      obtain ⟨ho, hos⟩ := forall_mem_cons.mp hos
      have ih := ih (Nat.succ.inj hlen) hns hos
      rw [compareLoop, hn, ho, map_cons, map_cons]
      simp only [bind_eq_bind, bind_some, gt_iff_lt, Int.ofNat_lt, ih,
        orderSign_cons]
      split_ifs <;> rfl

theorem VersionFits.tokens (h : VersionFits s) (hs : Numeric s) :
    ∀ t ∈ strtok '.' (core s), atoiInt t = some (digitsVal t : Int) := by
  intro t ht
  have hlt := h.number hs (digitsVal t) (mem_map_of_mem ht)
  rw [atoiInt, atoi_of_digits (isDigit_of_mem_strtok hs ht), if_pos ⟨by omega, by omega⟩]

/-- The comparison of two texts, and that of their numbers where there are as many. -/
theorem baseVersionComp_eq (hs : VersionFits s) (ht : VersionFits t) :
    (Comparable s t → baseVersionComp s t = some (orderSign (components s) (components t))) ∧
      (¬ Comparable s t → baseVersionComp s t = some (-2)) := by
  have hlen : ∀ u : CText, (components u).length = (strtok '.' (core u)).length :=
    fun u => length_map _
  have hcopy : ∀ u : CText, VersionFits u → versionText u = some u := fun u hu => if_pos hu.length
  have hforeign : ∀ u : CText, countForeign (trim u) ≠ 0 ↔ ¬ Numeric u :=
    fun u => (countForeign_eq_zero u).not
  rw [baseVersionComp, hcopy s hs, hcopy t ht]
  simp only [bind_eq_bind, bind_some]
  constructor
  · rintro ⟨hns, hnt, heq⟩
    rw [if_neg ((hforeign s).not.mpr (not_not_intro hns)),
      if_neg ((hforeign t).not.mpr (not_not_intro hnt)), trim_eq, trim_eq,
      if_neg (not_not_intro (by rw [← hlen, ← hlen, heq])),
      compareLoop_eq (by rw [← hlen, ← hlen, heq]) (hs.tokens hns) (ht.tokens hnt)]
    rfl
  · intro hnot
    by_cases hns : Numeric s
    · by_cases hnt : Numeric t
      · have hne : (strtok '.' (core s)).length ≠ (strtok '.' (core t)).length := by
          rw [← hlen, ← hlen]
          exact fun heq => hnot ⟨hns, hnt, heq⟩
        rw [if_neg ((hforeign s).not.mpr (not_not_intro hns)),
          if_neg ((hforeign t).not.mpr (not_not_intro hnt)), trim_eq, trim_eq, if_pos hne]
        rfl
      · rw [if_neg ((hforeign s).not.mpr (not_not_intro hns)), if_pos ((hforeign t).mpr hnt)]
        rfl
    · rw [if_pos ((hforeign s).mpr hns)]
      rfl

theorem Comparable.symm (h : Comparable s t) : Comparable t s :=
  ⟨h.2.1, h.1, h.2.2.symm⟩

theorem Comparable.trans {u : CText} (h : Comparable s t) (h' : Comparable t u) : Comparable s u :=
  ⟨h.1, h'.2.1, h.2.2.trans h'.2.2⟩

theorem orderSign_ne_neg_two {α : Type} [LinearOrder α] (x y : α) : orderSign x y ≠ -2 := by
  unfold orderSign
  split_ifs <;> decide

theorem comparable_of_ne {r : Int} (hs : VersionFits s) (ht : VersionFits t)
    (h : baseVersionComp s t = some r) (hr : r ≠ -2) :
    Comparable s t ∧ r = orderSign (components s) (components t) := by
  obtain ⟨hcomp, hnot⟩ := baseVersionComp_eq hs ht
  by_cases hst : Comparable s t
  · exact ⟨hst, some.inj (h.symm.trans (hcomp hst))⟩
  · exact absurd (some.inj (h.symm.trans (hnot hst))) hr

/-- Texts that fit are compared as their numbers, in their order: -2 stands for texts that cannot
be compared, and the others for an order on those that can. -/
theorem baseVersionComp_order {s t u : CText} (hs : VersionFits s) (ht : VersionFits t)
    (hu : VersionFits u) :
    (∃ r, baseVersionComp s t = some r ∧ (r = -2 ∨ r = 1 ∨ r = 0 ∨ r = -1)) ∧
    (baseVersionComp s t = some (-2) ↔ ¬ Comparable s t) ∧
    (baseVersionComp s t = some 1 ↔ Comparable s t ∧ components t < components s) ∧
    (baseVersionComp s t = some 0 ↔ Comparable s t ∧ components s = components t) ∧
    (baseVersionComp s t = some (-1) ↔ Comparable s t ∧ components s < components t) ∧
    (∀ r, r ≠ -2 → baseVersionComp s t = some r → baseVersionComp t s = some (-r)) ∧
    (baseVersionComp s t = some (-2) ↔ baseVersionComp t s = some (-2)) ∧
    ∀ r r', 0 ≤ r → 0 ≤ r' → baseVersionComp s t = some r → baseVersionComp t u = some r' →
      baseVersionComp s u = some (max r r') := by
  obtain ⟨hcomp, hnot⟩ := baseVersionComp_eq hs ht
  have hiff {a b : CText} (ha : VersionFits a) (hb : VersionFits b) {r : Int} (hr : r ≠ -2) :
      baseVersionComp a b = some r ↔
        Comparable a b ∧ orderSign (components a) (components b) = r := by
    constructor
    · intro h
      obtain ⟨hab, heq⟩ := comparable_of_ne ha hb h hr
      exact ⟨hab, heq.symm⟩
    · rintro ⟨hab, rfl⟩
      exact (baseVersionComp_eq ha hb).1 hab
  have hneg {a b : CText} (ha : VersionFits a) (hb : VersionFits b) :
      baseVersionComp a b = some (-2) ↔ ¬ Comparable a b := by
    refine ⟨fun h hab => ?_, (baseVersionComp_eq ha hb).2⟩
    rw [(baseVersionComp_eq ha hb).1 hab, some.injEq] at h
    exact orderSign_ne_neg_two _ _ h
  refine ⟨?_, hneg hs ht, ?_, ?_, ?_, ?_, ?_, ?_⟩
  · by_cases hst : Comparable s t
    · refine ⟨_, hcomp hst, .inr ?_⟩
      unfold orderSign
      split_ifs <;> simp
    · exact ⟨-2, hnot hst, .inl rfl⟩
  · rw [hiff hs ht (by decide), orderSign_eq_one]
  · rw [hiff hs ht (by decide), orderSign_eq_zero]
  · rw [hiff hs ht (by decide), orderSign_eq_neg_one]
  · intro r hr h
    obtain ⟨hst, rfl⟩ := comparable_of_ne hs ht h hr
    rw [(baseVersionComp_eq ht hs).1 hst.symm, orderSign_swap]
  · rw [hneg hs ht, hneg ht hs]
    exact not_congr ⟨Comparable.symm, Comparable.symm⟩
  · intro r r' hr hr' h h'
    obtain ⟨hst, rfl⟩ := comparable_of_ne hs ht h (by omega)
    obtain ⟨htu, rfl⟩ := comparable_of_ne ht hu h' (by omega)
    rw [(baseVersionComp_eq hs hu).1 (hst.trans htu), orderSign_trans hr hr']

theorem baseVersionComp_order_releases :
    let s := "v1.10".toList
    let t := "1.09-rc".toList
    let u := "1.9".toList
    (∃ r, baseVersionComp s t = some r ∧ (r = -2 ∨ r = 1 ∨ r = 0 ∨ r = -1)) ∧
    (baseVersionComp s t = some (-2) ↔ ¬ Comparable s t) ∧
    (baseVersionComp s t = some 1 ↔ Comparable s t ∧ components t < components s) ∧
    (baseVersionComp s t = some 0 ↔ Comparable s t ∧ components s = components t) ∧
    (baseVersionComp s t = some (-1) ↔ Comparable s t ∧ components s < components t) ∧
    (∀ r, r ≠ -2 → baseVersionComp s t = some r → baseVersionComp t s = some (-r)) ∧
    (baseVersionComp s t = some (-2) ↔ baseVersionComp t s = some (-2)) ∧
    ∀ r r', 0 ≤ r → 0 ≤ r' → baseVersionComp s t = some r → baseVersionComp t u = some r' →
      baseVersionComp s u = some (max r r') := by
  refine baseVersionComp_order ⟨by decide, fun _ => ?_⟩ ⟨by decide, fun _ => ?_⟩
    ⟨by decide, fun _ => ?_⟩
  · decide +kernel
  · decide +kernel
  · decide +kernel

end Honyar.Toolsdk
