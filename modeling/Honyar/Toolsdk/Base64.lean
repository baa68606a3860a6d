import Honyar.Lib.Base64
import Mathlib.Algebra.Group.Nat.Defs

/-!
# Base 64 of the tool SDK

`base64_encode` and `base64_decode` of misc_api.c: both go through groups of three bytes or four
characters with shifts and masks, and leave their loop inside a group that is padded.

A text stands with its terminator.  `none` is a character that is read behind it.
-/

namespace Honyar.Toolsdk

open Option List Base64

/-! ## The code -/

def base64char : CText :=
  "ABCDEFGHIJKLMNOPQRSTUVWXYZabcdefghijklmnopqrstuvwxyz0123456789+/".toList

def nul : Char := Char.ofNat 0

/-- The loop of `base64_encode` from `i` on: the characters it writes. -/
def encodeLoop (bindata : List UInt8) (i : Nat) : Option CText :=
  if i < bindata.length then do
    let b₀ ← bindata[i]?
    let c₀ ← base64char[((b₀ >>> 2) &&& 0x3F).toNat]?
    let current := (b₀ <<< 4) &&& 0x30
    if i + 1 ≥ bindata.length then
      let c₁ ← base64char[current.toNat]?
      return [c₀, c₁, '=', '=']
    else
      let b₁ ← bindata[i + 1]?
      let c₁ ← base64char[(current ||| ((b₁ >>> 4) &&& 0x0F)).toNat]?
      let current := (b₁ <<< 2) &&& 0x3C
      if i + 2 ≥ bindata.length then
        let c₂ ← base64char[current.toNat]?
        return [c₀, c₁, c₂, '=']
      else
        let b₂ ← bindata[i + 2]?
        let c₂ ← base64char[(current ||| ((b₂ >>> 6) &&& 0x03)).toNat]?
        let c₃ ← base64char[(b₂ &&& 0x3F).toNat]?
        let rest ← encodeLoop bindata (i + 3)
        return c₀ :: c₁ :: c₂ :: c₃ :: rest
  else some []
termination_by bindata.length - i

/-- `base64_encode`: what it writes to `base64`, the terminator with it. -/
def base64Encode (bindata : List UInt8) : Option CText := do
  let base64 ← encodeLoop bindata 0
  return base64 ++ [nul]

/-- A loop over `k`: the last place of the table with the character. -/
def search (c : Char) : UInt8 :=
  (List.range 64).foldl (fun temp k => if base64char[k]? = some c then UInt8.ofNat k else temp) 0xFF

/-- The loop of `base64_decode` from `i` on: the bytes it writes. -/
def decodeLoop (base64 : CText) (i : Nat) : Option (List UInt8) :=
  if h : i < base64.length then
    if base64[i] = nul then some []
    else do
      let c₁ ← base64[i + 1]?
      let c₂ ← base64[i + 2]?
      let c₃ ← base64[i + 3]?
      let temp₀ := search base64[i]
      let temp₁ := search c₁
      let temp₂ := search c₂
      let temp₃ := search c₃
      let b₀ := ((temp₀ <<< 2) &&& (0xFC : UInt8)) ||| ((temp₁ >>> 4) &&& (0x03 : UInt8))
      if c₂ = '=' then return [b₀]
      else
        let b₁ := ((temp₁ <<< 4) &&& (0xF0 : UInt8)) ||| ((temp₂ >>> 2) &&& (0x0F : UInt8))
        if c₃ = '=' then return [b₀, b₁]
        else
          let b₂ : UInt8 := ((temp₂ <<< 6) &&& 0xF0) ||| (temp₃ &&& 0x3F)
          let rest ← decodeLoop base64 (i + 4)
          return b₀ :: b₁ :: b₂ :: rest
  else none
termination_by base64.length - i

/-- `base64_decode`: what it writes to `bindata`, and what it returns. -/
def base64Decode (base64 : CText) : Option (List UInt8 × Nat) := do
  let bindata ← decodeLoop base64 0
  return (bindata, bindata.length)

/-! ## Bits -/

theorem bits : (∀ v < 64, base64char[v]? = some (Base64.symbol v) ∧
      search (Base64.symbol v) = UInt8.ofNat v ∧ Base64.symbol v ≠ nul ∧
      ((UInt8.ofNat v <<< 2) &&& (0xFC : UInt8)).toNat = v * 2 ^ 2 ∧
      ((UInt8.ofNat v >>> 4) &&& (0x03 : UInt8)).toNat = v / 16 ∧
      ((UInt8.ofNat v <<< 4) &&& (0xF0 : UInt8)).toNat = v % 16 * 2 ^ 4 ∧
      ((UInt8.ofNat v >>> 2) &&& (0x0F : UInt8)).toNat = v / 4 ∧
      ((UInt8.ofNat v <<< 6) &&& 0xF0).toNat = v % 4 * 2 ^ 6 ∧ (UInt8.ofNat v &&& 0x3F).toNat = v) ∧
    ∀ n < 256, ((UInt8.ofNat n >>> 2) &&& 0x3F).toNat = n / 4 ∧
      ((UInt8.ofNat n <<< 4) &&& 0x30).toNat = n % 4 * 2 ^ 4 ∧
      ((UInt8.ofNat n >>> 4) &&& 0x0F).toNat = n / 16 ∧
      ((UInt8.ofNat n <<< 2) &&& 0x3C).toNat = n % 16 * 2 ^ 2 ∧
      ((UInt8.ofNat n >>> 6) &&& 0x03).toNat = n / 64 ∧
      (UInt8.ofNat n &&& 0x3F).toNat = n % 64 := by
  decide +kernel

theorem getElem?_base64char {v : Nat} (h : v < 64) : base64char[v]? = some (Base64.symbol v) :=
  (bits.1 v h).1

theorem search_symbol {v : Nat} (h : v < 64) : search (Base64.symbol v) = UInt8.ofNat v :=
  (bits.1 v h).2.1

theorem symbol_ne_nul {v : Nat} (h : v < 64) : Base64.symbol v ≠ nul := (bits.1 v h).2.2.1

theorem or_mul_pow {p q k : Nat} (hq : q < 2 ^ k) : p * 2 ^ k ||| q = p * 2 ^ k + q := by
  rw [Nat.mul_comm, ← Nat.two_pow_add_eq_or_of_lt hq]

section Encode

variable (a b : UInt8)

theorem bits_byte : ((a >>> 2) &&& 0x3F).toNat = a.toNat / 4 ∧
    ((a <<< 4) &&& 0x30).toNat = a.toNat % 4 * 2 ^ 4 ∧
    ((a >>> 4) &&& 0x0F).toNat = a.toNat / 16 ∧
    ((a <<< 2) &&& 0x3C).toNat = a.toNat % 16 * 2 ^ 2 ∧
    ((a >>> 6) &&& 0x03).toNat = a.toNat / 64 ∧ (a &&& 0x3F).toNat = a.toNat % 64 := by
  have h := bits.2 a.toNat a.toNat_lt
  rwa [UInt8.ofNat_toNat] at h

theorem toNat_first : ((a >>> 2) &&& 0x3F).toNat = a.toNat / 4 := (bits_byte a).1

theorem toNat_left₁ : ((a <<< 4) &&& 0x30).toNat = a.toNat % 4 * 2 ^ 4 := (bits_byte a).2.1

theorem toNat_right₁ : ((a >>> 4) &&& 0x0F).toNat = a.toNat / 16 := (bits_byte a).2.2.1

theorem toNat_left₂ : ((a <<< 2) &&& 0x3C).toNat = a.toNat % 16 * 2 ^ 2 := (bits_byte a).2.2.2.1

theorem toNat_right₂ : ((a >>> 6) &&& 0x03).toNat = a.toNat / 64 := (bits_byte a).2.2.2.2.1

theorem toNat_last : (a &&& 0x3F).toNat = a.toNat % 64 := (bits_byte a).2.2.2.2.2

theorem toNat_second :
    (((a <<< 4) &&& (0x30 : UInt8)) ||| ((b >>> 4) &&& (0x0F : UInt8))).toNat =
      a.toNat % 4 * 16 + b.toNat / 16 := by
  have hb := b.toNat_lt
  rw [UInt8.toNat_or, toNat_left₁, toNat_right₁, or_mul_pow (by omega)]
  rfl

theorem toNat_third :
    (((a <<< 2) &&& (0x3C : UInt8)) ||| ((b >>> 6) &&& (0x03 : UInt8))).toNat =
      a.toNat % 16 * 4 + b.toNat / 64 := by
  have hb := b.toNat_lt
  rw [UInt8.toNat_or, toNat_left₂, toNat_right₂, or_mul_pow (by omega)]
  rfl

end Encode

section Decode

variable {v w : Nat}

theorem or_ofNat₀ (hv : v < 64) (hw : w < 64) :
    ((UInt8.ofNat v <<< 2) &&& (0xFC : UInt8)) ||| ((UInt8.ofNat w >>> 4) &&& (0x03 : UInt8)) =
      UInt8.ofNat (v * 4 + w / 16) := by
  obtain ⟨-, -, -, hleft, -⟩ := bits.1 v hv
  obtain ⟨-, -, -, -, hright, -⟩ := bits.1 w hw
  have hlt : v * 4 + w / 16 < 2 ^ 8 := by omega
  rw [← UInt8.toNat_inj, UInt8.toNat_or, hleft, hright, or_mul_pow (by omega),
    UInt8.toNat_ofNat', Nat.mod_eq_of_lt hlt]
  rfl

theorem or_ofNat₁ (hv : v < 64) (hw : w < 64) :
    ((UInt8.ofNat v <<< 4) &&& (0xF0 : UInt8)) ||| ((UInt8.ofNat w >>> 2) &&& (0x0F : UInt8)) =
      UInt8.ofNat (v % 16 * 16 + w / 4) := by
  obtain ⟨-, -, -, -, -, hleft, -⟩ := bits.1 v hv
  obtain ⟨-, -, -, -, -, -, hright, -⟩ := bits.1 w hw
  have hlt : v % 16 * 16 + w / 4 < 2 ^ 8 := by omega
  rw [← UInt8.toNat_inj, UInt8.toNat_or, hleft, hright, or_mul_pow (by omega),
    UInt8.toNat_ofNat', Nat.mod_eq_of_lt hlt]
  rfl

theorem or_ofNat₂ (hv : v < 64) (hw : w < 64) :
    ((UInt8.ofNat v <<< 6) &&& 0xF0) ||| (UInt8.ofNat w &&& 0x3F) =
      UInt8.ofNat (v % 4 * 64 + w) := by
  obtain ⟨-, -, -, -, -, -, -, hleft, -⟩ := bits.1 v hv
  obtain ⟨-, -, -, -, -, -, -, -, hright⟩ := bits.1 w hw
  have hlt : v % 4 * 64 + w < 2 ^ 8 := by omega
  rw [← UInt8.toNat_inj, UInt8.toNat_or, hleft, hright, or_mul_pow hw,
    UInt8.toNat_ofNat', Nat.mod_eq_of_lt hlt]
  rfl

end Decode

/-! ## The loops -/

theorem encodeLoop_append : ∀ pre rest : List UInt8,
    encodeLoop (pre ++ rest) pre.length = some (Base64.encode rest)
  | pre, [] => by
    rw [encodeLoop, if_neg (by simp)]
    rfl
  | pre, [a] => by
    have ha := a.toNat_lt
    have h₀ : (pre ++ [a])[pre.length]? = some a := by simp
    have hend : pre.length + 1 ≥ (pre ++ [a]).length := by simp
    rw [encodeLoop, if_pos (by simp)]
    simp only [h₀, hend, if_true, toNat_first, toNat_left₁, bind_eq_bind,
      bind_some, getElem?_base64char (show a.toNat / 4 < 64 by omega),
      getElem?_base64char (show a.toNat % 4 * 2 ^ 4 < 64 by omega)]
    rfl
  | pre, [a, b] => by
    have ha := a.toNat_lt
    have hb := b.toNat_lt
    have h₀ : (pre ++ [a, b])[pre.length]? = some a := by simp
    have h₁ : (pre ++ [a, b])[pre.length + 1]? = some b := by simp
    have hgo : ¬ pre.length + 1 ≥ (pre ++ [a, b]).length := by simp
    have hend : pre.length + 2 ≥ (pre ++ [a, b]).length := by simp
    rw [encodeLoop, if_pos (by simp)]
    simp only [h₀, h₁, hgo, hend, if_true, if_false, toNat_first, toNat_second, toNat_left₂,
      bind_eq_bind, bind_some,
      getElem?_base64char (show a.toNat / 4 < 64 by omega),
      getElem?_base64char (show a.toNat % 4 * 16 + b.toNat / 16 < 64 by omega),
      getElem?_base64char (show b.toNat % 16 * 2 ^ 2 < 64 by omega)]
    rfl
  | pre, a :: b :: c :: rest => by
    have ha := a.toNat_lt
    have hb := b.toNat_lt
    have hc := c.toNat_lt
    have ih := encodeLoop_append (pre ++ [a, b, c]) rest
    have hsplit : pre ++ [a, b, c] ++ rest = pre ++ a :: b :: c :: rest := by simp
    have hlen : (pre ++ [a, b, c]).length = pre.length + 3 := by simp
    rw [hsplit, hlen] at ih
    have h₀ : (pre ++ a :: b :: c :: rest)[pre.length]? = some a := by simp
    have h₁ : (pre ++ a :: b :: c :: rest)[pre.length + 1]? = some b := by simp
    have h₂ : (pre ++ a :: b :: c :: rest)[pre.length + 2]? = some c := by simp
    have hgo₁ : ¬ pre.length + 1 ≥ (pre ++ a :: b :: c :: rest).length := by simp
    have hgo₂ : ¬ pre.length + 2 ≥ (pre ++ a :: b :: c :: rest).length := by simp
    rw [encodeLoop, if_pos (by simp)]
    simp only [h₀, h₁, h₂, hgo₁, hgo₂, if_false, toNat_first, toNat_second, toNat_third,
      toNat_last c, bind_eq_bind, bind_some, ih,
      getElem?_base64char (show a.toNat / 4 < 64 by omega),
      getElem?_base64char (show a.toNat % 4 * 16 + b.toNat / 16 < 64 by omega),
      getElem?_base64char (show b.toNat % 16 * 4 + c.toNat / 64 < 64 by omega),
      getElem?_base64char (show c.toNat % 64 < 64 by omega)]
    rfl

/-- One round of decoding, for a group that stands in front of something. -/
theorem decodeLoop_group {pre rest : CText} {c₀ c₁ c₂ c₃ : Char} (h : c₀ ≠ nul) :
    decodeLoop (pre ++ c₀ :: c₁ :: c₂ :: c₃ :: rest) pre.length =
      if c₂ = Base64.pad then
        some [((search c₀ <<< 2) &&& (0xFC : UInt8)) ||| ((search c₁ >>> 4) &&& (0x03 : UInt8))]
      else if c₃ = Base64.pad then
        some [((search c₀ <<< 2) &&& (0xFC : UInt8)) ||| ((search c₁ >>> 4) &&& (0x03 : UInt8)),
          ((search c₁ <<< 4) &&& (0xF0 : UInt8)) ||| ((search c₂ >>> 2) &&& (0x0F : UInt8))]
      else
        (decodeLoop (pre ++ c₀ :: c₁ :: c₂ :: c₃ :: rest) (pre.length + 4)).map
          ([((search c₀ <<< 2) &&& (0xFC : UInt8)) ||| ((search c₁ >>> 4) &&& (0x03 : UInt8)),
            ((search c₁ <<< 4) &&& (0xF0 : UInt8)) ||| ((search c₂ >>> 2) &&& (0x0F : UInt8)),
            ((search c₂ <<< 6) &&& 0xF0) ||| (search c₃ &&& 0x3F)] ++ ·) := by
  unfold pad
  have h₀ : (pre ++ c₀ :: c₁ :: c₂ :: c₃ :: rest)[pre.length]? = some c₀ := by simp
  have h₁ : (pre ++ c₀ :: c₁ :: c₂ :: c₃ :: rest)[pre.length + 1]? = some c₁ := by simp
  have h₂ : (pre ++ c₀ :: c₁ :: c₂ :: c₃ :: rest)[pre.length + 2]? = some c₂ := by simp
  have h₃ : (pre ++ c₀ :: c₁ :: c₂ :: c₃ :: rest)[pre.length + 3]? = some c₃ := by simp
  obtain ⟨hlt, heq⟩ := List.getElem?_eq_some_iff.mp h₀
  rw [decodeLoop, dif_pos hlt, heq, if_neg h]
  simp only [h₁, h₂, h₃, bind_eq_bind, bind_some]
  by_cases hc₂ : c₂ = '='
  · rw [if_pos hc₂, if_pos hc₂]
    rfl
  · rw [if_neg hc₂, if_neg hc₂]
    by_cases hc₃ : c₃ = '='
    · rw [if_pos hc₃, if_pos hc₃]
      rfl
    · rw [if_neg hc₃, if_neg hc₃]
      cases decodeLoop (pre ++ c₀ :: c₁ :: c₂ :: c₃ :: rest) (pre.length + 4) <;> rfl

/-- The loop gives back what the text from its place on was written for, and stops at the
terminator. -/
theorem decodeLoop_append : ∀ (pre : CText) (rest : List UInt8),
    decodeLoop (pre ++ Base64.encode rest ++ [nul]) pre.length = some rest
  | pre, [] => by
    have h₀ : (pre ++ [nul])[pre.length]? = some nul := by simp
    obtain ⟨hlt, heq⟩ := List.getElem?_eq_some_iff.mp h₀
    rw [encode, append_nil, decodeLoop, dif_pos hlt, heq, if_pos rfl]
  | pre, [a] => by
    have ha := a.toNat_lt
    have hv : a.toNat / 4 < 64 := by omega
    have hw : a.toNat % 4 * 16 < 64 := by omega
    rw [append_assoc]
    refine (decodeLoop_group (symbol_ne_nul hv)).trans ?_
    rw [if_pos rfl, search_symbol hv, search_symbol hw, or_ofNat₀ hv hw,
      ofNat_eq (l := a) (by omega)]
  | pre, [a, b] => by
    have ha := a.toNat_lt
    have hb := b.toNat_lt
    have hv : a.toNat / 4 < 64 := by omega
    have hw : a.toNat % 4 * 16 + b.toNat / 16 < 64 := by omega
    have hx : b.toNat % 16 * 4 < 64 := by omega
    rw [append_assoc]
    refine (decodeLoop_group (symbol_ne_nul hv)).trans ?_
    rw [if_neg (symbol_ne_pad hx), if_pos rfl, search_symbol hv, search_symbol hw,
      search_symbol hx, or_ofNat₀ hv hw, or_ofNat₁ hw hx,
      ofNat_eq (l := a) (by omega), ofNat_eq (l := b) (by omega)]
  | pre, a :: b :: c :: rest => by
    have ha := a.toNat_lt
    have hb := b.toNat_lt
    have hc := c.toNat_lt
    have hv : a.toNat / 4 < 64 := by omega
    have hw : a.toNat % 4 * 16 + b.toNat / 16 < 64 := by omega
    have hx : b.toNat % 16 * 4 + c.toNat / 64 < 64 := by omega
    have hy : c.toNat % 64 < 64 := by omega
    have ih := decodeLoop_append (pre ++ (encode (a :: b :: c :: rest)).take 4) rest
    have hsplit : pre ++ (encode (a :: b :: c :: rest)).take 4 ++ encode rest =
        pre ++ encode (a :: b :: c :: rest) := append_assoc ..
    have hlen : (pre ++ (encode (a :: b :: c :: rest)).take 4).length = pre.length + 4 :=
      length_append
    rw [hsplit, hlen] at ih
    rw [append_assoc] at ih ⊢
    refine (decodeLoop_group (symbol_ne_nul hv)).trans ?_
    rw [if_neg (symbol_ne_pad hx), if_neg (symbol_ne_pad hy)]
    refine (congrArg _ ih).trans ?_
    rw [search_symbol hv, search_symbol hw, search_symbol hx, search_symbol hy,
      or_ofNat₀ hv hw, or_ofNat₁ hw hx, or_ofNat₂ hx hy, ofNat_eq (l := a) (by omega),
      ofNat_eq (l := b) (by omega), ofNat_eq (l := c) (by omega)]
    rfl

theorem length_encode : ∀ x : List UInt8,
    (Base64.encode x).length = 4 * ((x.length + 2) / 3)
  | [] => rfl
  | [_] => by simp [Base64.encode, Base64.encode₁]
  | [_, _] => by simp [Base64.encode, Base64.encode₁, Base64.encode₂]
  | a :: b :: c :: rest => by
    have ih := length_encode rest
    have hlen : (encode (a :: b :: c :: rest)).length =
        (encode rest).length + 4 := rfl
    rw [hlen, ih, length_cons, length_cons, length_cons]
    omega

/-- The standard text of the bytes is written, four characters for each three bytes, with a
terminator; it is read back up to there, and nothing behind. -/
theorem base64Decode_encode (x : List UInt8) :
    base64Encode x = some (Base64.encode x ++ [nul]) ∧
      (Base64.encode x).length = 4 * ((x.length + 2) / 3) ∧
      base64Decode (Base64.encode x ++ [nul]) = some (x, x.length) := by
  have hencode : encodeLoop x 0 = some (Base64.encode x) := encodeLoop_append [] x
  have hdecode : decodeLoop (Base64.encode x ++ [nul]) 0 = some x := decodeLoop_append [] x
  refine ⟨?_, length_encode x, ?_⟩
  · rw [base64Encode, hencode]
    rfl
  · rw [base64Decode, hdecode]
    rfl

end Honyar.Toolsdk
