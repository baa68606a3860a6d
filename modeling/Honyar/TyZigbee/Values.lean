import Honyar.Lib.Decimal
import Honyar.Lib.Radix
import Honyar.TyZigbee.MessageBuffer
import Mathlib.Tactic.IntervalCases

/-!
# Values that go down and come up again

What `hylinkValueConversion` makes of the text of a number, and what it makes of those bytes when
they are reported.  A plain value is one byte, whatever its type; a temperature is written in as
many bytes as its type has (_TZE200_twuagcv5.py), and read in the radix 255.
-/

namespace Honyar.TyZigbee

open Faults Hylink List CText Radix Nat

/-! ## The Python file -/

/-- White space that `int` ignores, of ASCII. -/
def isPythonSpace (c : Char) : Bool := CText.isSpace c || (28 ≤ c.toNat && c.toNat ≤ 31)

/-- `int` of a text of ASCII: white space around it, a sign, and digits that single underscores may
separate. -/
def pythonInt (t : CText) : Option Int :=
  let t := ((t.dropWhile isPythonSpace).reverse.dropWhile isPythonSpace).reverse
  let (f, ds) := CText.sign t
  if (ds.splitOn '_').all fun run => run ≠ [] && run.all CText.isDigit then
    some (f * CText.digitsVal (ds.filter (· ≠ '_')))
  else none

/-- The list of `Temperature_down`. -/
def outList (outNum : Int) (inLen : Int) : List UInt8 :=
  (List.range inLen.toNat).map fun i => lowByte (outNum >>> (8 * (inLen.toNat - i - 1)))

def temperatureDown (inStrVal : CText) (inLen : Int) : Option CText := do
  let outNum ← pythonInt inStrVal
  return Base64.encode (outList outNum inLen)

def temperatureUp (inBase64 : CText) : Option CText :=
  some (CText.ofInt (Radix.value 0xff (Base64.decode inBase64)))

/-- A key without a number whose functions are `Temperature_down` and `Temperature_up`. -/
def TemperatureLike (python : Python) (modelId key : CText) : Prop :=
  isScene key = false ∧ (∃ f, functionName key strDown = .ok f ∧ ∀ input inLen,
      python modelId f input inLen = temperatureDown input inLen) ∧
    ∃ f, functionName key strUp = .ok f ∧ ∀ input inLen,
      python modelId f input inLen = temperatureUp input

theorem dropWhile_of_isDigit {t : CText} (h : ∀ c ∈ t, CText.isDigit c = true) :
    t.dropWhile isPythonSpace = t := by
  cases t with
  | nil => rfl
  | cons c s =>
    have hle : 48 ≤ c.toNat :=
      of_decide_eq_true (Bool.and_eq_true_iff.mp (h c mem_cons_self)).1
    refine dropWhile_cons_of_neg ?_
    simp only [isPythonSpace, isSpace, Bool.or_eq_true, Bool.and_eq_true, beq_iff_eq,
      decide_eq_true_eq]
    rintro ((rfl | hspace) | hspace)
    · revert hle
      decide
    · omega
    · omega

theorem underscore_notMem_toDigits (v : Nat) : '_' ∉ Nat.toDigits 10 v := fun h =>
  absurd (isDigit_of_mem_toDigits h) (by decide)

theorem pythonInt_ofNat (v : Nat) : pythonInt (CText.ofInt v) = some (v : Int) := by
  have hdigits : ∀ c ∈ toDigits 10 v, isDigit c = true :=
    fun _ hc => isDigit_of_mem_toDigits hc
  have hreverse : ∀ c ∈ (toDigits 10 v).reverse, isDigit c = true :=
    fun c hc => hdigits c (mem_reverse.mp hc)
  have htext : ofInt v = toDigits 10 v := if_neg (by omega)
  have hsign : sign (toDigits 10 v) = (1, toDigits 10 v) := by
    obtain ⟨c, s, hcs⟩ := exists_cons_of_ne_nil (toDigits_ne_nil (b := 10) (n := v))
    rw [hcs]
    exact sign_of_isDigit (hdigits c (hcs ▸ mem_cons_self)) s
  have hsplit : (toDigits 10 v).splitOn '_' = [toDigits 10 v] :=
    splitOn_eq_singleton (underscore_notMem_toDigits v)
  have hfilter : (toDigits 10 v).filter (· ≠ '_') = toDigits 10 v :=
    filter_eq_self.mpr fun c hc => decide_eq_true fun heq =>
      underscore_notMem_toDigits v (heq ▸ hc)
  rw [pythonInt, htext, dropWhile_of_isDigit hdigits, dropWhile_of_isDigit hreverse,
    reverse_reverse, hsign]
  simp only [hsplit, hfilter, digitsVal_toDigits, one_mul]
  refine if_pos ?_
  simpa [toDigits_ne_nil] using hdigits

theorem lowByte_ofNat (n : Nat) : lowByte n = UInt8.ofNat n := by
  rw [lowByte, BitVec.ofInt_natCast]
  rfl

theorem outList_ofNat (v w : Nat) : outList v w = Radix.bytes w v := by
  induction w generalizing v with
  | zero => rfl
  | succ w ih =>
    rw [bytes, ← ih]
    simp only [outList, Int.toNat_natCast, range_succ, map_append, map_cons,
      map_nil]
    congr 1
    · refine map_congr_left fun i hi => ?_
      have hlt := mem_range.mp hi
      have hshift : 8 * (w + 1 - i - 1) = 8 + 8 * (w - i - 1) := by omega
      have hquot : (v : Int) >>> (8 : Nat) = ((v / 256 : Nat) : Int) := by
        rw [Int.shiftRight_eq_div_pow]
        exact (Int.natCast_ediv v 256).symm
      rw [hshift, Int.shiftRight_add, hquot]
    · rw [Nat.add_sub_cancel_left, Nat.sub_self, Nat.mul_zero, ← lowByte_ofNat]
      rfl

theorem temperatureDown_ofNat (v w : Nat) :
    temperatureDown (CText.ofInt v) w = some (Base64.encode (Radix.bytes w v)) := by
  rw [temperatureDown, pythonInt_ofNat, ← outList_ofNat]
  rfl

theorem temperatureUp_encode (bs : List UInt8) :
    temperatureUp (Base64.encode bs) = some (CText.ofInt (Radix.value 0xff bs)) := by
  rw [temperatureUp, Base64.decode_encode]

/-! ## The round trip -/

/-- The length that `zigbeeZclCtrl` takes of the data type. -/
def controlLen (attr : ZigbeeAttr) : Except Fault Int :=
  if attr.ClusterId = zclPrivateCluster then .ok (getZcl3ProvateDataType attr.dataType)
  else (dataTypeLength attr.dataType).map (↑)

open ZclDataType in
/-- The unsigned integers, with their widths. -/
def unsignedTypes : List ZclDataType :=
  [uint8, uint16, uint24, uint32, uint40, uint48, uint56, uint64]

/-- The type of an attribute is an unsigned integer of `w` bytes; of the private cluster this is the
value, of four. -/
def IsUnsigned (attr : ZigbeeAttr) (w : Nat) : Prop :=
  if attr.ClusterId = zclPrivateCluster then attr.dataType = 2 ∧ w = 4
  else ∃ t, unsignedTypes[w - 1]? = some t ∧ 0 < w ∧ attr.dataType = t.value

/-- The bytes of a value. -/
def valueBytes (msg : List UInt8) (out w : Nat) : List UInt8 := (msg.drop out).take w

/-- Wherever the value goes in a message, the text of `v` becomes `w` bytes that hold `v`, and these
bytes become the text of `v`. -/
def Survives (python : Python) (modelId : CText) (attr : ZigbeeAttr) (w v : Nat) : Prop :=
  ∃ inLen, controlLen attr = .ok inLen ∧ ∀ num msg out, msg.length = msgLen → out ≤ 6 →
    ∃ m, conversionDown python num (descOf attr modelId attr.hyKey inLen) (CText.ofInt v) msg out =
        .ok (m, w) ∧
      Radix.value 256 (valueBytes m out w) = v ∧
      conversionUp python (descOf attr modelId attr.hyKey w) (valueBytes m out w) =
        .ok (attr.hyKey, CText.ofInt v)

section

variable {python : Python} {modelId : CText} {attr : ZigbeeAttr} {w v : Nat}

theorem IsUnsigned.controlLen (h : IsUnsigned attr w) :
    controlLen attr = .ok w ∧ 0 < w ∧ w ≤ 8 := by
  unfold IsUnsigned at h
  unfold TyZigbee.controlLen
  split at h
  next hcluster =>
    obtain ⟨htype, rfl⟩ := h
    rw [if_pos hcluster, htype]
    exact ⟨rfl, by decide, by decide⟩
  next hcluster =>
    obtain ⟨t, ht, hpos, htype⟩ := h
    have hle : w ≤ 8 := by
      have hlt : w - 1 < 8 := (List.getElem?_eq_some_iff.mp ht).1
      omega
    rw [if_neg hcluster, htype]
    refine ⟨?_, hpos, hle⟩
    interval_cases w <;> obtain rfl := Option.some.inj ht <;> rfl

theorem valueBytes_of_writeAt {msg m bs : List UInt8} {out : Nat} (hne : bs ≠ [])
    (h : writeAt msg out bs = .ok m) : valueBytes m out bs.length = bs := by
  obtain ⟨hle, rfl⟩ := (writeAt_eq_ok hne).mp h
  have hlen : (msg.take out).length = out := length_take_of_le (by omega)
  rw [valueBytes, append_assoc, drop_left' hlen, take_left]

theorem conversionDown_plain (python : Python) {d : ConverDesc} (hplain : d.hyKeyPrivate = 0)
    (hlen : d.inLen ≠ 0) (num : Int) (input : CText) (msg : List UInt8) (out : Nat)
    (hout : out < msg.length) :
    ∃ m, conversionDown python num d input msg out = .ok (m, 1) ∧
      valueBytes m out 1 = [lowByte ((strToNum input).getD num)] := by
  obtain ⟨m, hm, -⟩ := setByte_ok msg out (lowByte ((strToNum input).getD num)) hout
  refine ⟨m, ?_, valueBytes_of_writeAt (cons_ne_nil _ _) (writeAt_singleton.trans hm)⟩
  rw [conversionDown, if_neg hlen, if_pos hplain, hm]
  rfl

theorem strToNum_ofNat {n : Nat} (h : n < 256) : strToNum (CText.ofInt n) = some (n : Int) := by
  rw [strToNum, atoi_ofInt]
  refine if_pos ⟨?_, ?_⟩ <;> rw [longMax] <;> omega

theorem conversionDown_temperature {key : CText} (hlike : TemperatureLike python modelId key)
    {priv : BitVec 8} (hprivate : priv ≠ 0) (hpos : 0 < w) (hw : w ≤ 8) (num : Int) (v : Nat)
    (msg : List UInt8) (out : Nat) (hout : out + 16 ≤ msg.length) :
    ∃ m, conversionDown python num ⟨modelId, key, priv, w⟩ (CText.ofInt v) msg out = .ok (m, w) ∧
      valueBytes m out w = Radix.bytes w v := by
  obtain ⟨hscene, ⟨f, hf, hdown⟩, -⟩ := hlike
  have hlen := (Base64.length_encode_le (bytes w v)).1
  rw [length_bytes] at hlen
  obtain ⟨m₁, hm₁, hlen₁⟩ := writeAt_ok msg out (bytesOf (Base64.encode (bytes w v)) ++ [0])
    (by simp only [bytesOf, length_append, length_map, length_singleton]; omega)
  obtain ⟨m₂, hm₂, -⟩ := writeAt_ok m₁ out (bytes w v) (by rw [length_bytes]; omega)
  have hne : bytes w v ≠ [] := by
    intro hnil
    have hzero := congrArg List.length hnil
    rw [length_bytes] at hzero
    exact absurd hzero hpos.ne'
  refine ⟨m₂, ?_, by simpa using valueBytes_of_writeAt hne hm₂⟩
  rw [conversionDown, if_neg (by simpa using hpos.ne'), if_neg hprivate]
  simp only [hscene, Bool.false_eq_true, if_false, hyLinkConver, hf, ok_bind, pure_bind, hdown,
    temperatureDown_ofNat, writeConverted, Base64.decode_encode, add_zero, hm₁, hm₂,
    length_bytes]
  rfl

theorem ofInt_injective {a b : Int} (h : CText.ofInt a = CText.ofInt b) : a = b := by
  rw [← atoi_ofInt a, h, atoi_ofInt]

theorem conversionUp_plain {d : ConverDesc} (hplain : d.hyKeyPrivate = 0) (b : UInt8)
    (bs : List UInt8) :
    conversionUp python d (b :: bs) = .ok (d.hyKey, CText.ofInt b.toNat) := by
  simp only [conversionUp, if_pos hplain]
  rfl

theorem bytes_ne_nil (hpos : 0 < w) (v : Nat) : Radix.bytes w v ≠ [] := fun hnil =>
  absurd ((length_bytes w v).symm.trans (congrArg List.length hnil)) hpos.ne'

theorem conversionUp_temperature {key : CText} (hlike : TemperatureLike python modelId key)
    {priv : BitVec 8} (hprivate : priv ≠ 0) (hpos : 0 < w) (hw : w ≤ 8) (hv : v < 256 ^ w)
    (inLen : Int) :
    conversionUp python ⟨modelId, key, priv, inLen⟩ (Radix.bytes w v) =
      .ok (key, CText.ofInt (Radix.value 0xff (Radix.bytes w v))) := by
  obtain ⟨hscene, -, f, hf, hup⟩ := hlike
  have hkey : ¬ (key = strSceName ∨ key = strScePhoto) := by
    rintro (rfl | rfl)
    · exact absurd hscene (by decide)
    · exact absurd hscene (by decide)
  -- twenty digits at most
  have htext : (ofInt (value 0xff (bytes w v))).length < converDataLen := by
    have hle : value 0xff (bytes w v) ≤ v := value_bytes_le (by decide) hv
    have hpow : 256 ^ w ≤ 256 ^ 8 := Nat.pow_le_pow_right (by decide) hw
    have hlen := length_ofInt_le (i := value 0xff (bytes w v)) (k := 20)
      (by decide) (by rw [Int.natAbs_natCast]; omega)
    rw [converDataLen]
    omega
  obtain ⟨b, bs, hbs⟩ := exists_cons_of_ne_nil (bytes_ne_nil hpos v)
  rw [hbs] at htext ⊢
  simp only [conversionUp, if_neg hprivate, if_neg hkey, hyLinkConver, ok_bind, pure_bind, hf, hup,
    temperatureUp_encode, Option.getD_some, strcpy, if_pos htext]
  rfl

theorem survives_plain_iff (htype : IsUnsigned attr w) (hplain : attr.hyKeyPrivate = 0)
    (hv : v < 256 ^ w) : Survives python modelId attr w v ↔ w = 1 := by
  obtain ⟨hlen, hpos, -⟩ := htype.controlLen
  have hne : (descOf attr modelId attr.hyKey w).inLen ≠ 0 := Int.natCast_ne_zero.mpr hpos.ne'
  constructor
  · rintro ⟨inLen, hinLen, h⟩
    obtain rfl := Except.ok.inj (hlen.symm.trans hinLen)
    obtain ⟨m, hdown, -⟩ := h 0 (List.replicate msgLen 0) 0 length_replicate (zero_le 6)
    obtain ⟨m', hdown', -⟩ := conversionDown_plain python hplain hne 0
      (ofInt v) (List.replicate msgLen 0) 0 (by decide)
    exact Int.natCast_inj.mp (Prod.mk.inj (Except.ok.inj (hdown.symm.trans hdown'))).2
  · rintro rfl
    refine ⟨1, hlen, fun num msg out hmsg hout => ?_⟩
    have hsmall : v < 256 := by rwa [pow_one] at hv
    obtain ⟨m, hdown, hbytes⟩ := conversionDown_plain python hplain hne num
      (ofInt v) msg out (by rw [hmsg, msgLen]; omega)
    rw [strToNum_ofNat hsmall, Option.getD_some, lowByte_ofNat] at hbytes
    have hbyte : (UInt8.ofNat v).toNat = v := by
      rw [UInt8.toNat_ofNat']
      exact mod_eq_of_lt hsmall
    refine ⟨m, hdown, ?_, ?_⟩
    · rw [hbytes, value, foldl_cons, foldl_nil, hbyte, zero_mul, zero_add]
    · rw [hbytes, conversionUp_plain hplain, hbyte]
      rfl

theorem survives_temperature_iff (htype : IsUnsigned attr w) (hprivate : attr.hyKeyPrivate ≠ 0)
    (hlike : TemperatureLike python modelId attr.hyKey) (hv : v < 256 ^ w) :
    Survives python modelId attr w v ↔ v < 256 := by
  obtain ⟨hlen, hpos, hw⟩ := htype.controlLen
  have hup := conversionUp_temperature hlike hprivate hpos hw hv w
  have hradix := value_bytes_eq_iff (r := 0xff) (by decide) hpos hv
  constructor
  · rintro ⟨inLen, hinLen, h⟩
    obtain rfl := Except.ok.inj (hlen.symm.trans hinLen)
    obtain ⟨m, hdown, -, hback⟩ :=
      h 0 (List.replicate msgLen 0) 0 length_replicate (zero_le 6)
    obtain ⟨m', hdown', hbytes⟩ := conversionDown_temperature hlike hprivate hpos hw 0 v
      (List.replicate msgLen 0) 0 (by decide)
    rw [(Prod.mk.inj (Except.ok.inj (hdown.symm.trans hdown'))).1, hbytes] at hback
    have htext := (Prod.mk.inj (Except.ok.inj (hup.symm.trans hback))).2
    exact hradix.mp (Int.natCast_inj.mp (ofInt_injective htext))
  · intro hsmall
    refine ⟨w, hlen, fun num msg out hmsg hout => ?_⟩
    obtain ⟨m, hdown, hbytes⟩ := conversionDown_temperature hlike hprivate hpos hw num v
      msg out (by rw [hmsg, msgLen]; omega)
    refine ⟨m, hdown, by rw [hbytes, value_bytes hv], ?_⟩
    rw [hbytes, descOf, hup, hradix.mpr hsmall]

/-- A value survives exactly when a plain type is one byte wide, and a temperature is one byte
high. -/
theorem survives_iff (python : Python) (modelId : CText) (attr : ZigbeeAttr) (w v : Nat)
    (htype : IsUnsigned attr w)
    (hkind : attr.hyKeyPrivate ≠ 0 → TemperatureLike python modelId attr.hyKey)
    (hv : v < 2 ^ (8 * w)) :
    Survives python modelId attr w v ↔
      (attr.hyKeyPrivate = 0 → w = 1) ∧ (attr.hyKeyPrivate ≠ 0 → v < 256) := by
  have hv' : v < 256 ^ w := by rwa [pow_mul] at hv
  by_cases hplain : attr.hyKeyPrivate = 0
  · rw [survives_plain_iff htype hplain hv']
    exact ⟨fun h => ⟨fun _ => h, fun hne => absurd hplain hne⟩, fun h => h.1 hplain⟩
  · rw [survives_temperature_iff htype hplain (hkind hplain) hv']
    exact ⟨fun h => ⟨fun heq => absurd heq hplain, fun _ => h⟩, fun h => h.2 hplain⟩

end

namespace Sample

/-- The temperatures of _TZE200_twuagcv5.py. -/
def temperatures : Python := fun _ f input inLen =>
  if f = "TargetTemperature_down".toList then temperatureDown input inLen
  else if f = "TargetTemperature_up".toList then temperatureUp input
  else none

def targetTemperature : ZigbeeAttr :=
  ⟨"TargetTemperature_1".toList, 1, 1, 1, 106, zclPrivateCluster, 2, 48, 2⟩

/-- A level of two bytes. -/
def level : ZigbeeAttr := ⟨"Level_1".toList, 0, 1, 1, 0, 8, 1, 0, 0x21⟩

theorem targetTemperature_like :
    TemperatureLike temperatures "_TZE200_twuagcv5".toList targetTemperature.hyKey :=
  ⟨by decide, ⟨"TargetTemperature_down".toList, by decide, fun _ _ => if_pos rfl⟩,
    "TargetTemperature_up".toList, by decide, fun _ _ =>
      (if_neg (by decide)).trans (if_pos rfl)⟩

end Sample

open Sample in
theorem survives_targetTemperature :
    Survives temperatures "_TZE200_twuagcv5".toList targetTemperature 4 21 :=
  (survives_iff temperatures _ targetTemperature 4 21 ⟨rfl, rfl⟩ (fun _ => targetTemperature_like)
    (by decide)).mpr ⟨fun h => absurd h (by decide), fun _ => by decide⟩

open Sample in
/-- A temperature that is higher than a byte, and a plain value that is wider than one. -/
theorem not_survives :
    ¬ Survives temperatures "_TZE200_twuagcv5".toList targetTemperature 4 1155 ∧
      ¬ Survives temperatures "_TZE200_twuagcv5".toList level 2 300 := by
  have htemperature : IsUnsigned targetTemperature 4 := ⟨rfl, rfl⟩
  have hlevel : IsUnsigned level 2 := ⟨_, rfl, by decide, rfl⟩
  constructor
  · intro h
    have hsmall := (survives_temperature_iff htemperature (by decide) targetTemperature_like
      (by decide)).mp h
    exact absurd hsmall (by decide)
  · intro h
    have hwidth := (survives_plain_iff hlevel rfl (by decide)).mp h
    exact absurd hwidth (by decide)

end Honyar.TyZigbee
