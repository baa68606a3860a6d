import Honyar.LocalScene.Value
import Honyar.Lib.Decimal
import Mathlib.Data.Rat.Defs
import Mathlib.Algebra.Order.Ring.Abs
import Mathlib.Tactic.Linarith

/-!
# How the value of an event is compared

`_scene_event_cond_is_true` chooses the comparison by the text of the condition
alone: digits are compared as numbers, digits with a point as decimal numbers,
and everything else, a sign included, as texts.  Here the four operators are put
beside each other, for each of the three.
-/

namespace Honyar.LocalScene

open CText List

/-- The truth of a condition with a given operator. -/
def EventCond.holds (pstCond : EventCond) (acActive : CText) (pstEventInfo : Event) : Bool :=
  sceneEventCondIsTrue { pstCond with acActive := acActive } pstEventInfo

/-- What the four operators find. -/
structure EventCond.Finds (c : EventCond) (e : Event) (equ gtr lss not : Bool) : Prop where
  equ : c.holds activeEqu e = equ
  gtr : c.holds activeGtr e = gtr
  lss : c.holds activeLss e = lss
  not : c.holds activeNot e = not

section Operators

variable {c : EventCond} {e : Event}

theorem finds_of_isInt (h : isInt c.acValue = true) :
    c.Finds e (atoi e.acValue == atoi c.acValue) (decide (atoi e.acValue > atoi c.acValue))
      (decide (atoi e.acValue < atoi c.acValue)) (atoi e.acValue != atoi c.acValue) := by
  constructor <;> (rw [EventCond.holds, sceneEventCondIsTrue, if_pos h]; rfl)

theorem finds_of_isFloat (hint : isInt c.acValue = false) (h : isFloat c.acValue = true) :
    c.Finds e (decide (|atof e.acValue - atof c.acValue| < 1 / 10000))
      (decide (atof e.acValue > atof c.acValue)) (decide (atof e.acValue > atof c.acValue))
      (decide (|atof e.acValue - atof c.acValue| > 1 / 10000)) := by
  have hint' : ¬isInt c.acValue = true := by rw [hint]; decide
  constructor <;> (rw [EventCond.holds, sceneEventCondIsTrue, if_neg hint', if_pos h]; rfl)

theorem finds_of_text (hint : isInt c.acValue = false) (h : isFloat c.acValue = false) :
    c.Finds e (strcmp e.acValue c.acValue == 0) (decide (strcmp e.acValue c.acValue > 0))
      (decide (strcmp e.acValue c.acValue < 0)) (strcmp e.acValue c.acValue != 0) := by
  have hint' : ¬isInt c.acValue = true := by rw [hint]; decide
  have h' : ¬isFloat c.acValue = true := by rw [h]; decide
  constructor <;> (rw [EventCond.holds, sceneEventCondIsTrue, if_neg hint', if_neg h']; rfl)

end Operators

/-! ## Integers -/

/-- The operators say how two numbers compare. -/
def EventCond.OrdersAs (c : EventCond) (e : Event) (a b : Int) : Prop :=
  (c.holds activeEqu e = true ↔ a = b) ∧ (c.holds activeGtr e = true ↔ a > b) ∧
    (c.holds activeLss e = true ↔ a < b) ∧ (c.holds activeNot e = true ↔ a ≠ b)

section Integers

variable {c : EventCond} {e : Event} {a b : Int}

theorem isInt_ofInt (i : Int) : isInt (ofInt i) = decide (0 ≤ i) := by
  rw [ofInt, isInt]
  split
  next hneg =>
    rw [all_cons, decide_eq_false (not_le.mpr hneg)]
    rfl
  next hpos =>
    rw [decide_eq_true (not_lt.mp hpos), all_eq_true]
    exact fun ch => isDigit_of_mem_toDigits

theorem isFloat_ofInt (i : Int) : isFloat (ofInt i) = false := by
  have hpoint : (ofInt i).count '.' = 0 := by
    rw [count_eq_zero]
    have hdigits : '.' ∉ Nat.toDigits 10 i.natAbs := fun hmem =>
      absurd (isDigit_of_mem_toDigits hmem) (by decide)
    rw [ofInt]
    split
    · rw [mem_cons]
      rintro (h | h)
      · revert h
        decide
      · exact hdigits h
    · exact hdigits
  rw [isFloat, hpoint, Bool.and_eq_false_iff]
  exact Or.inr rfl

theorem ordersAs_of_nonneg (hb : 0 ≤ b) (hc : c.acValue = ofInt b) (he : e.acValue = ofInt a) :
    c.OrdersAs e a b := by
  have hint : isInt c.acValue = true := by rw [hc, isInt_ofInt, decide_eq_true hb]
  have hfinds := finds_of_isInt (e := e) hint
  rw [hc, he, atoi_ofInt, atoi_ofInt] at hfinds
  refine ⟨?_, ?_, ?_, ?_⟩
  · rw [hfinds.equ, beq_iff_eq]
  · rw [hfinds.gtr, decide_eq_true_iff]
  · rw [hfinds.lss, decide_eq_true_iff]
  · rw [hfinds.not, bne_iff_ne]

theorem ordersAs_iff_strcmp (hb : b < 0) (hc : c.acValue = ofInt b) (he : e.acValue = ofInt a) :
    c.OrdersAs e a b ↔
      (strcmp (ofInt a) (ofInt b) = 0 ↔ a = b) ∧ (strcmp (ofInt a) (ofInt b) > 0 ↔ a > b) ∧
        (strcmp (ofInt a) (ofInt b) < 0 ↔ a < b) := by
  have hint : isInt c.acValue = false := by
    rw [hc, isInt_ofInt, decide_eq_false (not_le.mpr hb)]
  have hfinds := finds_of_text (e := e) hint (hc ▸ isFloat_ofInt b)
  rw [hc, he] at hfinds
  rw [EventCond.OrdersAs, hfinds.equ, hfinds.gtr, hfinds.lss, hfinds.not, beq_iff_eq,
    decide_eq_true_iff, decide_eq_true_iff, bne_iff_ne]
  constructor
  · exact fun ⟨hequ, hgtr, hlss, _⟩ => ⟨hequ, hgtr, hlss⟩
  · exact fun ⟨hequ, hgtr, hlss⟩ => ⟨hequ, hgtr, hlss, not_congr hequ⟩

theorem strcmp_ofInt_pos (ha : 0 ≤ a) (hb : b < 0) : 0 < strcmp (ofInt a) (ofInt b) := by
  obtain ⟨ch, s, hs⟩ : ∃ ch s, Nat.toDigits 10 a.natAbs = ch :: s :=
    exists_cons_of_ne_nil Nat.toDigits_ne_nil
  have hdigit : isDigit ch = true := isDigit_of_mem_toDigits (hs ▸ mem_cons_self)
  have hle : 48 ≤ ch.toNat := of_decide_eq_true (Bool.and_eq_true_iff.mp hdigit).1
  have hminus : '-'.toNat = 45 := rfl
  have hne : ch ≠ '-' := by
    rintro rfl
    omega
  rw [ofInt, ofInt, if_neg (not_lt.mpr ha), if_pos hb, hs, strcmp, if_neg hne]
  omega

theorem strcmp_ofInt_neg (ha : a < 0) (hb : b < 0) :
    strcmp (ofInt a) (ofInt b) =
      strcmp (Nat.toDigits 10 a.natAbs) (Nat.toDigits 10 b.natAbs) := by
  rw [ofInt, ofInt, if_pos ha, if_pos hb, strcmp_cons_self]

theorem strcmp_toDigits_eq_zero_iff {m n : Nat} :
    strcmp (Nat.toDigits 10 m) (Nat.toDigits 10 n) = 0 ↔ m = n := by
  have hzero : ∀ k, ∀ ch ∈ Nat.toDigits 10 k, ch.toNat ≠ 0 := fun k ch hch =>
    toNat_ne_zero_of_isDigit (isDigit_of_mem_toDigits hch)
  rw [strcmp_eq_zero_iff (hzero m) (hzero n), toDigits_injective.eq_iff]

/-- Two negative numbers are ordered right exactly when they are the same or the
one nearer to zero leads. -/
theorem ordersAs_neg_iff (ha : a < 0) (hb : b < 0) (hc : c.acValue = ofInt b)
    (he : e.acValue = ofInt a) :
    c.OrdersAs e a b ↔ a = b ∨ Leads a.natAbs b.natAbs ∨ Leads b.natAbs a.natAbs := by
  have hequ : strcmp (Nat.toDigits 10 a.natAbs) (Nat.toDigits 10 b.natAbs) = 0 ↔ a = b := by
    rw [strcmp_toDigits_eq_zero_iff]
    omega
  have hnot : ∀ {m n : Nat}, n ≤ m → ¬Leads m n := fun hle hleads =>
    absurd hleads.1 (not_lt.mpr (length_toDigits_mono hle))
  rw [ordersAs_iff_strcmp hb hc he, strcmp_ofInt_neg ha hb, and_iff_right hequ]
  rcases lt_trichotomy a b with hlt | heq | hgt
  · -- the event value has the greater digits
    have hcomm := strcmp_comm (Nat.toDigits 10 a.natAbs) (Nat.toDigits 10 b.natAbs)
    have hleads : Leads b.natAbs a.natAbs ↔ _ := (strcmp_toDigits_pos_iff (by omega)).symm
    have hfalse : ¬Leads a.natAbs b.natAbs := hnot (by omega)
    have hne : a ≠ b := by omega
    rw [or_iff_right hne, or_iff_right hfalse, hleads]
    constructor
    · rintro ⟨-, hlss⟩
      have := hlss.mpr hlt
      omega
    · intro hpos
      exact ⟨by omega, by omega⟩
  · subst heq
    have hzero := hequ.mpr rfl
    exact iff_of_true ⟨by omega, by omega⟩ (Or.inl rfl)
  · have hleads : Leads a.natAbs b.natAbs ↔ _ := (strcmp_toDigits_pos_iff (by omega)).symm
    have hfalse : ¬Leads b.natAbs a.natAbs := hnot (by omega)
    have hne : a ≠ b := by omega
    rw [or_iff_right hne, or_iff_left hfalse, hleads]
    constructor
    · rintro ⟨hgtr, -⟩
      exact hgtr.mpr hgt
    · intro hpos
      exact ⟨by omega, by omega⟩

end Integers

/-- A condition and an event with the texts of two numbers are ordered as the
numbers exactly when one of them is not negative, or they are the same, or the
one nearer to zero leads. -/
theorem int_ordersAs_iff (c : EventCond) (e : Event) (a b : BitVec 32) :
    EventCond.OrdersAs { c with acValue := ofInt b.toInt } { e with acValue := ofInt a.toInt }
        a.toInt b.toInt ↔
      0 ≤ b.toInt ∨ 0 ≤ a.toInt ∨ a = b ∨ Leads a.toInt.natAbs b.toInt.natAbs ∨
        Leads b.toInt.natAbs a.toInt.natAbs := by
  rcases le_or_gt 0 b.toInt with hb | hb
  · exact iff_of_true (ordersAs_of_nonneg hb rfl rfl) (Or.inl hb)
  · rw [or_iff_right (not_le.mpr hb)]
    rcases le_or_gt 0 a.toInt with ha | ha
    · refine iff_of_true ((ordersAs_iff_strcmp hb rfl rfl).mpr ?_) (Or.inl ha)
      have hpos := strcmp_ofInt_pos ha hb
      exact ⟨by omega, by omega, by omega⟩
    · rw [or_iff_right (not_le.mpr ha), ordersAs_neg_iff ha hb rfl rfl, BitVec.toInt_inj]

/-- `-3` is found smaller than `-7`. -/
theorem int_not_ordered :
    ¬∀ (c : EventCond) (e : Event) (a b : BitVec 32),
      EventCond.OrdersAs { c with acValue := ofInt b.toInt } { e with acValue := ofInt a.toInt }
        a.toInt b.toInt := by
  intro hclaim
  obtain ⟨-, hgtr, -⟩ := hclaim ⟨[], [], [], [], [], [], []⟩ ⟨[], [], []⟩ (-7) (-3)
  exact absurd (hgtr.mp (by decide)) (by decide)

/-! ## Decimal numbers -/

/-- The operators on decimal numbers as they are meant. -/
def EventCond.OrdersDecimals (c : EventCond) (e : Event) : Prop :=
  ¬(c.holds activeGtr e = true ∧ c.holds activeLss e = true) ∧
    (c.holds activeGtr e = true ↔ atof e.acValue > atof c.acValue) ∧
    (c.holds activeLss e = true ↔ atof e.acValue < atof c.acValue) ∧
    ¬(c.holds activeEqu e = true ∧ c.holds activeNot e = true)

section Decimals

theorem isFloat_of_digits {c : EventCond} {d₁ d₂ : CText} (h₁ : ∀ ch ∈ d₁, isDigit ch = true)
    (h₂ : ∀ ch ∈ d₂, isDigit ch = true) (hc : c.acValue = d₁ ++ '.' :: d₂) :
    isInt c.acValue = false ∧ isFloat c.acValue = true := by
  have hnone : ∀ {d : CText}, (∀ ch ∈ d, isDigit ch = true) → d.count '.' = 0 := fun hd =>
    count_eq_zero.mpr fun hmem => absurd (hd _ hmem) (by decide)
  have hcount : (d₁ ++ '.' :: d₂).count '.' = 1 := by
    rw [count_append, hnone h₁, count_cons_self, hnone h₂]
  rw [hc]
  constructor
  · rw [isInt, all_append, all_cons]
    exact Bool.and_eq_false_iff.mpr (Or.inr rfl)
  · rw [isFloat, hcount, beq_self_eq_true, Bool.and_true, all_eq_true]
    intro ch hmem
    rw [Bool.or_eq_true, beq_iff_eq]
    rcases mem_append.mp hmem with hmem | hmem
    · exact Or.inl (h₁ ch hmem)
    · rcases mem_cons.mp hmem with rfl | hmem
      · exact Or.inr rfl
      · exact Or.inl (h₂ ch hmem)

/-- The operators on a decimal condition are right exactly for an event with the
value of the condition: `Lss` asks the question of `Gtr`. -/
theorem ordersDecimals_iff {c : EventCond} {d₁ d₂ : CText} (h₁ : ∀ ch ∈ d₁, isDigit ch = true)
    (h₂ : ∀ ch ∈ d₂, isDigit ch = true) (hc : c.acValue = d₁ ++ '.' :: d₂) (e : Event) :
    c.OrdersDecimals e ↔ atof e.acValue = atof c.acValue := by
  obtain ⟨hint, hfloat⟩ := isFloat_of_digits h₁ h₂ hc
  have hfinds := finds_of_isFloat (e := e) hint hfloat
  rw [EventCond.OrdersDecimals, hfinds.equ, hfinds.gtr, hfinds.lss, hfinds.not]
  simp only [decide_eq_true_iff]
  constructor
  · rintro ⟨hboth, -, hlss, -⟩
    refine le_antisymm (not_lt.mp fun hgt => hboth ⟨hgt, hgt⟩) (not_lt.mp fun hlt => ?_)
    exact lt_asymm hlt (hlss.mpr hlt)
  · intro heq
    have hgt : ¬atof e.acValue > atof c.acValue := not_lt_of_ge heq.le
    have hlt : ¬atof e.acValue < atof c.acValue := not_lt_of_ge heq.ge
    exact ⟨fun h => hgt h.1, trivial, iff_of_false hgt hlt, fun h => lt_asymm h.1 h.2⟩

/-- A condition `25.5`. -/
def warm : EventCond := ⟨[], [], [], [], ['2', '5', '.', '5'], [], []⟩

theorem ordersDecimals_warm :
    warm.OrdersDecimals ⟨[], [], ['2', '0', '.', '0']⟩ ↔
      atof ['2', '0', '.', '0'] = atof warm.acValue :=
  @ordersDecimals_iff warm ['2', '5'] ['5'] (List.all_eq_true.mp rfl) (List.all_eq_true.mp rfl)
    rfl _

/-- `20.0` is not found smaller than `25.5`. -/
theorem decimal_not_ordered :
    ¬∀ (c : EventCond) (d₁ d₂ : CText) (e : Event), (∀ ch ∈ d₁, isDigit ch = true) →
      (∀ ch ∈ d₂, isDigit ch = true) → c.acValue = d₁ ++ '.' :: d₂ → c.OrdersDecimals e := by
  intro hclaim
  obtain ⟨-, -, hlss, -⟩ := hclaim warm ['2', '5'] ['5'] ⟨[], [], ['2', '0', '.', '0']⟩
    (List.all_eq_true.mp rfl) (List.all_eq_true.mp rfl) rfl
  exact absurd (hlss.mpr (by decide +kernel)) (by decide +kernel)

end Decimals

end Honyar.LocalScene
