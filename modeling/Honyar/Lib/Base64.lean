import Honyar.Lib.CText

/-!
# Base 64

Bytes as texts of 64 characters, six bits a character, padded to whole groups of four.  Bits that
are put together do not overlap, so they are added.

A byte starts at the first, the third or the fifth of six bits; encoding and decoding are a
function for each, and what is left of a byte is an argument.
-/

namespace Honyar.Base64

open Option List

/-- The characters, in the order of their values. -/
def symbols : CText :=
  "ABCDEFGHIJKLMNOPQRSTUVWXYZabcdefghijklmnopqrstuvwxyz0123456789+/".toList

def pad : Char := '='

def symbol (v : Nat) : Char := symbols.getD v pad

def value? (c : Char) : Option Nat := symbols.findIdx? (· = c)

mutual

/-- The text of bytes. -/
def encode : List UInt8 → CText
  | [] => []
  | c :: cs => symbol (c.toNat / 4) :: encode₁ c cs

/-- Two bits of the byte `l` are left. -/
def encode₁ (l : UInt8) : List UInt8 → CText
  | [] => [symbol (l.toNat % 4 * 16), pad, pad]
  | c :: cs => symbol (l.toNat % 4 * 16 + c.toNat / 16) :: encode₂ c cs

/-- Four bits of the byte `l` are left. -/
def encode₂ (l : UInt8) : List UInt8 → CText
  | [] => [symbol (l.toNat % 16 * 4), pad]
  | c :: cs => symbol (l.toNat % 16 * 4 + c.toNat / 64) :: symbol (c.toNat % 64) :: encode cs

end

example (c : UInt8) :
    encode [c] = [symbol (c.toNat / 4), symbol (c.toNat % 4 * 16), pad, pad] := by
  rw [encode, encode₁]

mutual

/-- The bytes up to a pad; none where a character has no value. -/
def decode₀ : CText → Option (List UInt8)
  | [] => some []
  | c :: cs => if c = pad then some [] else (value? c).bind fun v => decode₁ (v * 4) cs

/-- Six bits of a byte are there, as `o`. -/
def decode₁ (o : Nat) : CText → Option (List UInt8)
  | [] => some []
  | c :: cs =>
    if c = pad then some []
    else (value? c).bind fun v => (decode₂ (v % 16 * 16) cs).map (UInt8.ofNat (o + v / 16) :: ·)

/-- Four bits of a byte are there. -/
def decode₂ (o : Nat) : CText → Option (List UInt8)
  | [] => some []
  | c :: cs =>
    if c = pad then some []
    else (value? c).bind fun v => (decode₃ (v % 4 * 64) cs).map (UInt8.ofNat (o + v / 4) :: ·)

/-- Two bits of a byte are there. -/
def decode₃ (o : Nat) : CText → Option (List UInt8)
  | [] => some []
  | c :: cs =>
    if c = pad then some []
    else (value? c).bind fun v => (decode₀ cs).map (UInt8.ofNat (o + v) :: ·)

end

example (cs : CText) : decode₀ (pad :: cs) = some [] := by rw [decode₀, if_pos rfl]

/-- The bytes of a text, none where it is not one. -/
def decode (t : CText) : List UInt8 :=
  if t.length % 4 = 0 then (decode₀ t).getD [] else []

theorem symbols_getD : ∀ v < 64, value? (symbol v) = some v ∧ symbol v ≠ pad := by
  decide +kernel

theorem value?_symbol {v : Nat} (h : v < 64) : value? (symbol v) = some v := (symbols_getD v h).1

theorem symbol_ne_pad {v : Nat} (h : v < 64) : symbol v ≠ pad := (symbols_getD v h).2

/-- A byte is put together from its upper and its lower bits. -/
theorem ofNat_eq {n : Nat} {l : UInt8} (h : n = l.toNat) : UInt8.ofNat n = l := by
  rw [h, UInt8.ofNat_toNat]

/-- The induction is on the bytes: what is left of one is completed by the next character. -/
theorem decode₀_encode (bs : List UInt8) :
    decode₀ (encode bs) = some bs ∧
      (∀ l : UInt8, decode₁ (l.toNat / 4 * 4) (encode₁ l bs) = some (l :: bs)) ∧
      ∀ l : UInt8, decode₂ (l.toNat / 16 * 16) (encode₂ l bs) = some (l :: bs) := by
  induction bs with
  | nil =>
    refine ⟨rfl, fun l => ?_, fun l => ?_⟩
    · have hv : l.toNat % 4 * 16 < 64 := by omega
      rw [encode₁, decode₁, if_neg (symbol_ne_pad hv), value?_symbol hv, bind_some, decode₂,
        if_pos rfl, ofNat_eq (l := l) (by omega)]
      rfl
    · have hv : l.toNat % 16 * 4 < 64 := by omega
      rw [encode₂, decode₂, if_neg (symbol_ne_pad hv), value?_symbol hv, bind_some, decode₃,
        if_pos rfl, ofNat_eq (l := l) (by omega)]
      rfl
  | cons c cs ih =>
    obtain ⟨ih₀, ih₁, ih₂⟩ := ih
    have hc := c.toNat_lt
    refine ⟨?_, fun l => ?_, fun l => ?_⟩
    · have hv : c.toNat / 4 < 64 := by omega
      rw [encode, decode₀, if_neg (symbol_ne_pad hv), value?_symbol hv, bind_some, ih₁]
    · have hv : l.toNat % 4 * 16 + c.toNat / 16 < 64 := by omega
      have hrest : (l.toNat % 4 * 16 + c.toNat / 16) % 16 * 16 = c.toNat / 16 * 16 := by omega
      rw [encode₁, decode₁, if_neg (symbol_ne_pad hv), value?_symbol hv, bind_some, hrest,
        ih₂, ofNat_eq (l := l) (by omega)]
      rfl
    · have hv : l.toNat % 16 * 4 + c.toNat / 64 < 64 := by omega
      have hw : c.toNat % 64 < 64 := by omega
      rw [encode₂, decode₂, if_neg (symbol_ne_pad hv), value?_symbol hv, bind_some, decode₃,
        if_neg (symbol_ne_pad hw), value?_symbol hw, bind_some, ih₀,
        ofNat_eq (l := l) (by omega), ofNat_eq (l := c) (by omega)]
      rfl

theorem length_encode (bs : List UInt8) :
    (encode bs).length % 4 = 0 ∧ (∀ l, (encode₁ l bs).length % 4 = 3) ∧
      ∀ l, (encode₂ l bs).length % 4 = 2 := by
  induction bs with
  | nil => exact ⟨rfl, fun _ => rfl, fun _ => rfl⟩
  | cons c cs ih =>
    obtain ⟨ih₀, ih₁, ih₂⟩ := ih
    refine ⟨?_, fun l => ?_, fun l => ?_⟩
    · have h := ih₁ c
      rw [encode, length_cons]
      omega
    · have h := ih₂ c
      rw [encode₁, length_cons]
      omega
    · rw [encode₂, length_cons, length_cons]
      omega

/-- Four characters for three bytes. -/
theorem le_length_encode (bs : List UInt8) :
    4 * bs.length ≤ 3 * (encode bs).length ∧
      (∀ l, 4 * bs.length + 1 ≤ 3 * (encode₁ l bs).length) ∧
      ∀ l, 4 * bs.length + 2 ≤ 3 * (encode₂ l bs).length := by
  induction bs with
  | nil => exact ⟨by simp, fun l => by simp [encode₁], fun l => by simp [encode₂]⟩
  | cons c cs ih =>
    obtain ⟨ih₀, ih₁, ih₂⟩ := ih
    refine ⟨?_, fun l => ?_, fun l => ?_⟩
    · have h := ih₁ c
      rw [encode, length_cons, length_cons]
      omega
    · have h := ih₂ c
      rw [encode₁, length_cons, length_cons]
      omega
    · rw [encode₂, length_cons, length_cons, length_cons]
      omega

theorem length_encode_le (bs : List UInt8) :
    3 * (encode bs).length ≤ 4 * bs.length + 8 ∧
      (∀ l, 3 * (encode₁ l bs).length ≤ 4 * bs.length + 9) ∧
      ∀ l, 3 * (encode₂ l bs).length ≤ 4 * bs.length + 10 := by
  induction bs with
  | nil => exact ⟨by simp [encode], fun l => by simp [encode₁], fun l => by simp [encode₂]⟩
  | cons c cs ih =>
    obtain ⟨ih₀, ih₁, ih₂⟩ := ih
    refine ⟨?_, fun l => ?_, fun l => ?_⟩
    · have h := ih₁ c
      rw [encode, length_cons, length_cons]
      omega
    · have h := ih₂ c
      rw [encode₁, length_cons, length_cons]
      omega
    · rw [encode₂, length_cons, length_cons, length_cons]
      omega

/-- Decoding gives back what was encoded. -/
@[simp] theorem decode_encode (bs : List UInt8) : decode (encode bs) = bs := by
  rw [decode, if_pos (length_encode bs).1, (decode₀_encode bs).1, getD_some]

/-- No byte without a character. -/
theorem length_decode₀_le (t : CText) :
    (∀ bs, decode₀ t = some bs → bs.length ≤ t.length) ∧
      (∀ o bs, decode₁ o t = some bs → bs.length ≤ t.length) ∧
      (∀ o bs, decode₂ o t = some bs → bs.length ≤ t.length) ∧
      ∀ o bs, decode₃ o t = some bs → bs.length ≤ t.length := by
  induction t with
  | nil =>
    refine ⟨fun bs h => ?_, fun o bs h => ?_, fun o bs h => ?_, fun o bs h => ?_⟩ <;>
      exact some.inj h ▸ le_rfl
  | cons c cs ih =>
    obtain ⟨ih₀, ih₁, ih₂, ih₃⟩ := ih
    refine ⟨fun bs h => ?_, fun o bs h => ?_, fun o bs h => ?_, fun o bs h => ?_⟩
    · rw [decode₀] at h
      split at h
      next => exact some.inj h ▸ Nat.zero_le _
      next =>
        obtain ⟨v, -, h⟩ := bind_eq_some_iff.mp h
        exact Nat.le_succ_of_le (ih₁ _ _ h)
    · rw [decode₁] at h
      split at h
      next => exact some.inj h ▸ Nat.zero_le _
      next =>
        obtain ⟨v, -, h⟩ := bind_eq_some_iff.mp h
        obtain ⟨bs', h', rfl⟩ := map_eq_some_iff.mp h
        exact Nat.succ_le_succ (ih₂ _ _ h')
    · rw [decode₂] at h
      split at h
      next => exact some.inj h ▸ Nat.zero_le _
      next =>
        obtain ⟨v, -, h⟩ := bind_eq_some_iff.mp h
        obtain ⟨bs', h', rfl⟩ := map_eq_some_iff.mp h
        exact Nat.succ_le_succ (ih₃ _ _ h')
    · rw [decode₃] at h
      split at h
      next => exact some.inj h ▸ Nat.zero_le _
      next =>
        obtain ⟨v, -, h⟩ := bind_eq_some_iff.mp h
        obtain ⟨bs', h', rfl⟩ := map_eq_some_iff.mp h
        exact Nat.succ_le_succ (ih₀ _ h')

theorem length_decode_le (t : CText) : (decode t).length ≤ t.length := by
  unfold decode
  split
  · cases h : decode₀ t with
    | none => exact Nat.zero_le _
    | some bs => exact (length_decode₀_le t).1 bs h
  · exact Nat.zero_le _

end Honyar.Base64
