import Honyar.TyZigbee.Control

/-!
# The message of a control frame

`zigbeeZclDispatch` gives a control frame an array of 33 bytes for its message, and no function
behind it looks at its size.  A text that Python makes is copied there as it is, before its bytes
are; and the length of the message is the number of its bytes as long as the conversion does not
fail, of which nothing takes notice.
-/

namespace Honyar.TyZigbee

open Faults Option Except

/-- The size of `msg`. -/
def msgLen : Nat := 33

/-- What is put before a value: of a key with a number, the number. -/
def numberLen (key : CText) : Nat := if isScene key then 2 else 0

variable {python : Python} {num : Int} {d : ConverDesc} {input : CText} {msg : List UInt8}
  {out : Nat}

/-- A conversion that has a function, if it needs one, whose text leaves room for its NUL. -/
def Converts (python : Python) (d : ConverDesc) (input : CText) (out : Nat) : Prop :=
  d.hyKeyPrivate ≠ 0 → ∃ f, functionName d.hyKey strDown = .ok f ∧
    ∀ text, python d.modelId f input d.inLen = some text →
      out + numberLen d.hyKey + text.length < msgLen

theorem writeAt_ok (msg : List UInt8) (out : Nat) (as : List UInt8)
    (h : out + as.length ≤ msg.length) :
    ∃ m, writeAt msg out as = .ok m ∧ m.length = msg.length := by
  rcases eq_or_ne as [] with rfl | hne
  · exact ⟨msg, rfl, rfl⟩
  · obtain ⟨m, hm⟩ : ∃ m, writeAt msg out as = .ok m := ⟨_, (writeAt_eq_ok hne).mpr ⟨h, rfl⟩⟩
    exact ⟨m, hm, writeAt_length hm⟩

theorem setByte_ok (msg : List UInt8) (i : Nat) (a : UInt8) (h : i < msg.length) :
    ∃ m, setByte msg i a = .ok m ∧ m.length = msg.length := by
  obtain ⟨m, hm⟩ : ∃ m, setByte msg i a = .ok m := ⟨_, setByte_eq_ok.mpr ⟨h, rfl⟩⟩
  exact ⟨m, hm, setByte_length hm⟩

theorem writeConverted_ok_iff (msg : List UInt8) (out : Nat) (text : Option CText) :
    (∃ r, writeConverted msg out text = .ok r) ↔
      ∀ t, text = some t → out + t.length < msg.length := by
  cases text with
  | none => exact iff_of_true ⟨_, rfl⟩ fun t h => by cases h
  | some t =>
    have hlen : (bytesOf t ++ [0]).length = t.length + 1 := by simp [bytesOf]
    have hdecode := Base64.length_decode_le t
    simp only [some.injEq, forall_eq']
    constructor
    · rintro ⟨r, h⟩
      obtain ⟨m, hm, -⟩ := bind_eq_ok.mp h
      have hle := ((writeAt_eq_ok (by simp)).mp hm).1
      omega
    · intro h
      obtain ⟨m, hm, hmlen⟩ := writeAt_ok msg out (bytesOf t ++ [0]) (by omega)
      obtain ⟨m', hm', -⟩ := writeAt_ok m out (Base64.decode t) (by omega)
      refine ⟨(m', (Base64.decode t).length), ?_⟩
      rw [writeConverted, hm, ok_bind, hm', ok_bind]
      rfl

theorem writeConverted_spec {text : Option CText} {m : List UInt8} {n : Nat}
    (h : writeConverted msg out text = .ok (m, n)) :
    m.length = msg.length ∧ (n = 0 ∨ out + n ≤ msg.length) := by
  cases text with
  | none =>
    obtain ⟨rfl, rfl⟩ := Prod.mk.inj (ok.inj h)
    exact ⟨rfl, .inl rfl⟩
  | some t =>
    obtain ⟨m₁, hm₁, h⟩ := bind_eq_ok.mp h
    obtain ⟨m₂, hm₂, h⟩ := bind_eq_ok.mp h
    obtain ⟨rfl, rfl⟩ := Prod.mk.inj (ok.inj h)
    have hlen := writeAt_length hm₁
    refine ⟨(writeAt_length hm₂).trans hlen, ?_⟩
    rcases eq_or_ne (Base64.decode t) [] with hnil | hne
    · exact .inl (by rw [hnil]; rfl)
    · exact .inr (hlen ▸ ((writeAt_eq_ok hne).mp hm₂).1)

/-! ## Conversion -/

theorem conversionDown_fails (h : d.inLen = 0) :
    conversionDown python num d input msg out = .ok (msg, -1) := by
  rw [conversionDown, if_pos h]
  rfl

theorem conversionDown_ok_iff (num : Int) (hmsg : msg.length = msgLen) (hout : out ≤ 6)
    (h : d.inLen ≠ 0) :
    (∃ r, conversionDown python num d input msg out = .ok r) ↔ Converts python d input out := by
  have hroom : out + 2 ≤ msg.length := by
    rw [hmsg, msgLen]
    omega
  unfold conversionDown Converts
  rw [if_neg h]
  by_cases hprivate : d.hyKeyPrivate = 0
  · rw [if_pos hprivate]
    obtain ⟨m, hm, -⟩ := setByte_ok msg out (lowByte ((Hylink.strToNum input).getD num))
      (by omega)
    refine iff_of_true ⟨(m, 1), ?_⟩ fun hne => absurd hprivate hne
    rw [hm, ok_bind]
    rfl
  · rw [if_neg hprivate]
    simp only [ne_eq, hprivate, not_false_eq_true, true_imp_iff]
    -- the number is there, if there is one
    obtain ⟨m, hm, hmlen⟩ : ∃ m, (if isScene d.hyKey then writeNumber num d.hyKey msg out
        else .ok msg : Except Fault (List UInt8)) = .ok m ∧ m.length = msg.length := by
      split
      · exact writeAt_ok msg out _ hroom
      · exact ⟨msg, rfl, rfl⟩
    rw [hm, ok_bind, hyLinkConver]
    cases hf : functionName d.hyKey strDown with
    | error e =>
      refine iff_of_false ?_ ?_
      · rintro ⟨r, hr⟩
        cases hr
      · rintro ⟨f, hr, -⟩
        cases hr
    | ok f =>
      have hiff := writeConverted_ok_iff m (out + numberLen d.hyKey)
        (python d.modelId f input d.inLen)
      rw [hmlen, hmsg] at hiff
      simp only [ok_bind, pure_bind, ok.injEq, exists_eq_left']
      rw [← hiff]
      constructor
      · rintro ⟨r, hr⟩
        obtain ⟨r', hr', -⟩ := bind_eq_ok.mp hr
        exact ⟨r', hr'⟩
      · rintro ⟨r', hr'⟩
        refine ⟨(r'.1, r'.2 + numberLen d.hyKey), ?_⟩
        change writeConverted m (out + numberLen d.hyKey) _ >>= _ = _
        rw [hr']
        rfl

/-- What it writes stays in the message, and its result is the number of its bytes. -/
theorem conversionDown_spec (hmsg : msg.length = msgLen) (hout : out ≤ 6) (h : d.inLen ≠ 0)
    {r : List UInt8 × Int} (hr : conversionDown python num d input msg out = .ok r) :
    r.1.length = msgLen ∧ ∃ n : Nat, r.2 = n ∧ out + n ≤ msgLen := by
  unfold conversionDown at hr
  rw [if_neg h] at hr
  split at hr
  next =>
    obtain ⟨m, hm, hr⟩ := bind_eq_ok.mp hr
    obtain rfl := ok.inj hr
    refine ⟨(setByte_length hm).trans hmsg, 1, rfl, ?_⟩
    rw [msgLen]
    omega
  next =>
    obtain ⟨m, hm, hr⟩ := bind_eq_ok.mp hr
    obtain ⟨text, -, hr⟩ := bind_eq_ok.mp hr
    obtain ⟨r', hr', hr⟩ := bind_eq_ok.mp hr
    obtain rfl := ok.inj hr
    have hmlen : m.length = msg.length := by
      split at hm
      next => exact writeAt_length hm
      next => exact congrArg List.length (ok.inj hm).symm
    obtain ⟨hlen, hn⟩ := writeConverted_spec hr'
    refine ⟨hlen.trans (hmlen.trans hmsg), r'.2 + numberLen d.hyKey, ?_, ?_⟩
    · simp only [numberLen]
      split <;> simp
    · have hnumber : numberLen d.hyKey ≤ 2 := by
        unfold numberLen
        split <;> omega
      rw [hmlen, hmsg] at hn
      change r'.2 = 0 ∨ out + numberLen d.hyKey + r'.2 ≤ msgLen at hn
      rw [msgLen] at *
      omega

/-! ## Frames -/

/-- The length a value is converted with, and where it goes; none where it is not converted. -/
def target (attr : ZigbeeAttr) : Except Fault (Option (Int × Nat)) :=
  if attr.ClusterId = zclPrivateCluster then
    .ok (some (getZcl3ProvateDataType attr.dataType, 6))
  else do
    let n ← dataTypeLength attr.dataType
    if UInt8.ofBitVec attr.z3CmdType = z3CmdTypeGlobal then return some (n, 3)
    else if UInt8.ofBitVec attr.z3CmdType = z3CmdTypePrivate then return some (n, 0)
    else return none

/-- The value is the command of the frame, and its message is empty. -/
def IsCommand (attr : ZigbeeAttr) : Prop :=
  attr.ClusterId ≠ zclPrivateCluster ∧ UInt8.ofBitVec attr.z3CmdType = z3CmdTypePrivate ∧
    attr.z3CmdId = 0

instance IsCommand.instDecidable (attr : ZigbeeAttr) : Decidable (IsCommand attr) :=
  inferInstanceAs (Decidable (_ ∧ _))

/-- What is converted. -/
def descOf (attr : ZigbeeAttr) (modelId key : CText) (inLen : Int) : ConverDesc :=
  ⟨modelId, key, attr.hyKeyPrivate, inLen⟩

/-- The number of bytes of a message: its head, and what the conversion, which does not fail,
makes of the value. -/
def Written (python : Python) (num : Int) (attr : ZigbeeAttr) (modelId key value : CText)
    (n : Nat) : Prop :=
  (target attr = .ok none ∧ n = 0) ∨
    ∃ inLen out, target attr = .ok (some (inLen, out)) ∧ ∃ (m m' : List UInt8) (r : Nat),
      m.length = msgLen ∧
        conversionDown python num (descOf attr modelId key inLen) value m out = .ok (m', r) ∧
          n = if IsCommand attr then 0 else out + r

/-- Whatever variables hold that are not set, nothing is written behind the message, and a frame is
sent only with the number of its bytes, of a conversion that does not fail. -/
def Contained (python : Python) (attr : ZigbeeAttr) (modelId key value : CText)
    (msg : List UInt8) : Prop :=
  ∀ unset, ∃ o, zigbeeZclCtrl python unset attr modelId key value msg = .ok o ∧
    ∀ frame, o = some frame → ∃ n, Written python unset.num attr modelId key value n ∧
      frame.msg_length.toNat = n ∧ n ≤ msgLen

/-- The key fits its array; an attribute is none of the device object; and a value has a length, and
is converted with room for its text. -/
def Fits (python : Python) (attr : ZigbeeAttr) (modelId key value : CText) : Prop :=
  key.length < textLen ∧ ∃ t, target attr = .ok t ∧
    (t = none → UInt8.ofBitVec attr.z3CmdType ≠ z3CmdTypeZdo) ∧
    ∀ inLen out, t = some (inLen, out) →
      inLen ≠ 0 ∧ Converts python (descOf attr modelId key inLen) value out

variable {attr : ZigbeeAttr} {modelId key value : CText} {unset : Unset}

theorem target_out {inLen : Int} (h : target attr = .ok (some (inLen, out))) : out ≤ 6 := by
  unfold target at h
  split at h
  next => cases h; exact le_rfl
  next =>
    obtain ⟨n, -, h⟩ := bind_eq_ok.mp h
    split at h
    next => cases h; decide
    next =>
      split at h
      next => cases h; decide
      next => cases h

theorem zigbeeZclCtrl_key (h : ¬ key.length < textLen) :
    zigbeeZclCtrl python unset attr modelId key value msg = .error .memory := by
  rw [zigbeeZclCtrl, strcpy, if_neg h]
  rfl

theorem zigbeeZclCtrl_error {e : Fault} (hkey : key.length < textLen) (h : target attr = .error e) :
    zigbeeZclCtrl python unset attr modelId key value msg = .error e := by
  unfold target at h
  split at h
  next => cases h
  next hcluster =>
    rw [zigbeeZclCtrl, strcpy, if_pos hkey, ok_bind]
    dsimp only
    rw [if_neg hcluster]
    cases hlen : dataTypeLength attr.dataType with
    | error e' =>
      rw [hlen] at h
      obtain rfl : e' = e := error.inj h
      rfl
    | ok n =>
      rw [hlen, ok_bind] at h
      split at h
      next => cases h
      next => split at h <;> cases h

theorem zigbeeZclCtrl_none (python : Python) (unset : Unset) (modelId value : CText)
    (msg : List UInt8) (hkey : key.length < textLen) (h : target attr = .ok none) :
    ∃ o, zigbeeZclCtrl python unset attr modelId key value msg = .ok o ∧
      (UInt8.ofBitVec attr.z3CmdType ≠ z3CmdTypeZdo → o = none) ∧
      (UInt8.ofBitVec attr.z3CmdType = z3CmdTypeZdo →
        ∃ frame, o = some frame ∧ frame.msg_length = unset.msgLen) := by
  unfold target at h
  split at h
  next => cases h
  next hcluster =>
    rw [zigbeeZclCtrl, strcpy, if_pos hkey, ok_bind]
    dsimp only
    rw [if_neg hcluster]
    obtain ⟨n, hlen, h⟩ := bind_eq_ok.mp h
    rw [hlen, ok_bind]
    split at h
    next => cases h
    next hglobal =>
      split at h
      next => cases h
      next hprivate =>
        rw [if_neg hglobal, if_neg hprivate]
        by_cases hzdo : UInt8.ofBitVec attr.z3CmdType = z3CmdTypeZdo
        · rw [if_pos hzdo]
          exact ⟨_, rfl, fun hne => absurd hzdo hne, fun _ => ⟨_, rfl, rfl⟩⟩
        · rw [if_neg hzdo]
          exact ⟨_, rfl, fun _ => rfl, fun heq => absurd heq hzdo⟩

/-- A value that is converted makes the frame, and its faults are those of the conversion. -/
theorem zigbeeZclCtrl_some (python : Python) (unset : Unset) (modelId value : CText)
    (hkey : key.length < textLen) (hmsg : msg.length = msgLen) {inLen : Int}
    (h : target attr = .ok (some (inLen, out))) :
    ∃ m : List UInt8, m.length = msgLen ∧
      (∀ e, conversionDown python unset.num (descOf attr modelId key inLen) value m out = .error e →
        zigbeeZclCtrl python unset attr modelId key value msg = .error e) ∧
      ∀ r, conversionDown python unset.num (descOf attr modelId key inLen) value m out = .ok r →
        r.1.length = msgLen →
          ∃ frame, zigbeeZclCtrl python unset attr modelId key value msg = .ok (some frame) ∧
            frame.msg_length = if IsCommand attr then 0 else .ofInt (r.2 + out) := by
  have hbuf : msg.length = 33 := hmsg
  unfold target at h
  rw [zigbeeZclCtrl, strcpy, if_pos hkey, ok_bind]
  dsimp only
  split at h
  next hcluster =>
    obtain ⟨rfl, rfl⟩ := Prod.mk.inj (some.inj (ok.inj h))
    have hcommand : ¬ IsCommand attr := fun hc => hc.1 hcluster
    rw [if_pos hcluster]
    obtain ⟨m₁, h₁, hlen₁⟩ := writeAt_ok msg 0 [0, 0] (by simp [hbuf])
    obtain ⟨m₂, h₂, hlen₂⟩ := setByte_ok m₁ 2 attr.AttributeId.toUInt8 (by omega)
    obtain ⟨m₃, h₃, hlen₃⟩ := setByte_ok m₂ 3 attr.dataType (by omega)
    refine ⟨m₃, by omega, fun e he => ?_, fun r hr hlen => ?_⟩
    · rw [h₁, ok_bind, h₂, ok_bind, h₃, ok_bind]
      rw [descOf] at he
      rw [he]
      rfl
    · have hrlen : r.1.length = 33 := hlen
      obtain ⟨m₄, h₄, hlen₄⟩ := setByte_ok r.1 4 (lowByte (r.2 >>> (8 : Nat))) (by omega)
      obtain ⟨m₅, h₅, -⟩ := setByte_ok m₄ 5 (lowByte r.2) (by omega)
      rw [h₁, ok_bind, h₂, ok_bind, h₃, ok_bind]
      rw [descOf] at hr
      rw [hr, ok_bind, h₄, ok_bind, h₅, if_neg hcommand]
      exact ⟨_, rfl, rfl⟩
  next hcluster =>
    obtain ⟨n, hn, h⟩ := bind_eq_ok.mp h
    rw [if_neg hcluster, hn, ok_bind]
    split at h
    next hglobal =>
      obtain ⟨rfl, rfl⟩ := Prod.mk.inj (some.inj (ok.inj h))
      have hcommand : ¬ IsCommand attr := fun hc => absurd (hglobal.symm.trans hc.2.1) (by decide)
      rw [if_pos hglobal]
      obtain ⟨m₁, h₁, hlen₁⟩ := writeAt_ok msg 0 (memoryBytes attr.AttributeId)
        (by simp [hbuf, memoryBytes])
      obtain ⟨m₂, h₂, hlen₂⟩ := setByte_ok m₁ 2 attr.dataType (by omega)
      refine ⟨m₂, by omega, fun e he => ?_, fun r hr hlen => ?_⟩
      · rw [h₁, ok_bind, h₂, ok_bind]
        rw [descOf] at he
        rw [he]
        rfl
      · rw [h₁, ok_bind, h₂, ok_bind]
        rw [descOf] at hr
        rw [hr, ok_bind, if_neg hcommand]
        exact ⟨_, rfl, rfl⟩
    next hglobal =>
      split at h
      next hprivate =>
        obtain ⟨rfl, rfl⟩ := Prod.mk.inj (some.inj (ok.inj h))
        rw [if_neg hglobal, if_pos hprivate]
        refine ⟨msg, hmsg, fun e he => ?_, fun r hr hlen => ?_⟩
        · rw [descOf] at he
          rw [he]
          rfl
        · rw [descOf] at hr
          rw [hr, ok_bind]
          by_cases hid : attr.z3CmdId = 0
          · rw [if_pos hid, if_pos ⟨hcluster, hprivate, hid⟩]
            exact ⟨_, rfl, rfl⟩
          · rw [if_neg hid, if_neg fun hc => hid hc.2.2]
            exact ⟨_, rfl, by simp⟩
      next => cases h

theorem toNat_ofInt {n out : Nat} (h : out + n ≤ msgLen) :
    (UInt16.ofInt ((n : Int) + out)).toNat = out + n := by
  rw [msgLen] at h
  have hmod : (((n : Int) + out) % 2 ^ 16).toNat = out + n := by omega
  rw [UInt16.ofInt, hmod, UInt16.toNat_ofNat']
  omega

/-- A control frame stays inside its message, with the number of its bytes, and is not sent where
the conversion fails, exactly when key and text fit, the value has a length, and the attribute is
none of the device object. -/
theorem contained_iff (python : Python) (attr : ZigbeeAttr) (modelId key value : CText)
    (msg : List UInt8) (hmsg : msg.length = msgLen) :
    Contained python attr modelId key value msg ↔ Fits python attr modelId key value := by
  by_cases hkey : key.length < textLen
  · cases ht : target attr with
    | error e =>
      refine iff_of_false (fun h => ?_) fun ⟨_, t, hok, _⟩ => ?_
      · obtain ⟨o, ho, -⟩ := h ⟨0, 0, 0⟩
        rw [zigbeeZclCtrl_error hkey ht] at ho
        cases ho
      · rw [ht] at hok
        cases hok
    | ok t =>
      cases t with
      | none =>
        constructor
        · intro h
          refine ⟨hkey, none, ht, fun _ hzdo => ?_, fun _ _ hsome => by cases hsome⟩
          -- a length that nothing has set
          obtain ⟨o, ho, hframe⟩ := h ⟨0, 0, 1⟩
          obtain ⟨o', ho', -, hsent⟩ := zigbeeZclCtrl_none python ⟨0, 0, 1⟩ modelId value msg
            hkey ht
          obtain ⟨frame, hsome, hlen⟩ := hsent hzdo
          obtain rfl := ok.inj (ho.symm.trans ho')
          obtain ⟨n, hwritten, hn, -⟩ := hframe frame hsome
          rcases hwritten with ⟨-, hzero⟩ | ⟨inLen, out, htarget, -⟩
          · rw [hlen, hzero] at hn
            exact absurd hn (by decide)
          · rw [ht] at htarget
            cases htarget
        · rintro ⟨-, t, hok, hzdo, -⟩ unset
          obtain rfl := ok.inj (ht.symm.trans hok)
          obtain ⟨o, ho, hnone, -⟩ := zigbeeZclCtrl_none python unset modelId value msg hkey ht
          refine ⟨o, ho, fun frame hsome => ?_⟩
          rw [hnone (hzdo rfl)] at hsome
          cases hsome
      | some p =>
        obtain ⟨inLen, out⟩ := p
        have hout := target_out ht
        constructor
        · intro h
          refine ⟨hkey, some (inLen, out), ht, nofun, ?_⟩
          rintro inLen' out' hsome
          obtain ⟨rfl, rfl⟩ := Prod.mk.inj (some.inj hsome)
          obtain ⟨m, hm, herror, hok⟩ := zigbeeZclCtrl_some python ⟨0, 0, 0⟩ modelId value hkey
            hmsg ht
          obtain ⟨o, ho, hframe⟩ := h ⟨0, 0, 0⟩
          have hne : inLen ≠ 0 := by
            intro hzero
            -- the frame of a conversion that failed
            have hfails : conversionDown python 0 (descOf attr modelId key inLen) value m out =
                .ok (m, -1) := conversionDown_fails hzero
            obtain ⟨frame, hsent, -⟩ := hok _ hfails hm
            obtain rfl := ok.inj (ho.symm.trans hsent)
            obtain ⟨n, hwritten, -⟩ := hframe frame rfl
            rcases hwritten with ⟨htarget, -⟩ | ⟨inLen', out', htarget, m₁, m₂, r, -, hr, -⟩
            · rw [ht] at htarget
              cases htarget
            · rw [ht] at htarget
              obtain ⟨rfl, rfl⟩ := Prod.mk.inj (some.inj (ok.inj htarget))
              rw [conversionDown_fails hzero] at hr
              have hres := congrArg Prod.snd (ok.inj hr)
              exact absurd hres (by simp)
          refine ⟨hne, (conversionDown_ok_iff 0 hm hout hne).mp ?_⟩
          cases hr : conversionDown python 0 (descOf attr modelId key inLen) value m out with
          | error e =>
            rw [herror e hr] at ho
            cases ho
          | ok r => exact ⟨r, rfl⟩
        · rintro ⟨-, t, hok, -, hsome⟩ unset
          obtain rfl := ok.inj (ht.symm.trans hok)
          obtain ⟨hne, hconverts⟩ := hsome inLen out rfl
          obtain ⟨m, hm, -, hok⟩ := zigbeeZclCtrl_some python unset modelId value hkey hmsg ht
          obtain ⟨r, hr⟩ := (conversionDown_ok_iff unset.num hm hout hne).mpr hconverts
          obtain ⟨hlen, n, hn, hle⟩ := conversionDown_spec hm hout hne hr
          obtain ⟨frame, hsent, hlength⟩ := hok r hr hlen
          refine ⟨_, hsent, fun frame' hframe => ?_⟩
          obtain rfl := some.inj hframe
          refine ⟨if IsCommand attr then 0 else out + n, .inr ⟨inLen, out, ht, m, r.1, n, hm, ?_,
            rfl⟩, ?_, ?_⟩
          · rw [hr, ← hn]
          · rw [hlength]
            split
            · rfl
            · rw [hn, toNat_ofInt hle]
          · split
            · exact Nat.zero_le _
            · exact hle
  · refine iff_of_false (fun h => ?_) fun ⟨hlt, _⟩ => hkey hlt
    obtain ⟨o, ho, -⟩ := h ⟨0, 0, 0⟩
    rw [zigbeeZclCtrl_key hkey] at ho
    cases ho

namespace Sample

/-- The bytes of letters in UTF-16. -/
def utf16 (t : CText) : List UInt8 := t.flatMap fun c => [0, UInt8.ofNat c.toNat]

theorem length_encode_utf16 (t : CText) : 8 * t.length ≤ 3 * (Base64.encode (utf16 t)).length := by
  have hlen : (utf16 t).length = 2 * t.length := by simp [utf16, List.length_flatMap, Nat.mul_comm]
  have hle := (Base64.le_length_encode (utf16 t)).1
  omega

/-- `SceName_down`, of letters. -/
def pyfile : Python := fun _ f input _ =>
  if f = "SceName_down".toList then some (Base64.encode (utf16 input)) else none

/-- The names of the scenes of a panel. -/
def sceName : ZigbeeAttr := ⟨strSceName, 1, 1, 1, 0x6d, zclPrivateCluster, 2, 48, 0⟩

/-- A switch, which is turned by a command. -/
def switch : ZigbeeAttr := ⟨"Switch_1".toList, 0, 1, 1, 0, 6, 2, 0, 0x10⟩

/-- An attribute that is written, without a type. -/
def untyped : ZigbeeAttr := ⟨"LedEnable".toList, 0, 1, 1, 0x5000, 6, 1, 0, 0⟩

def zeros : List UInt8 := List.replicate 33 0

end Sample

open Sample in
theorem contained_switch : Contained pyfile switch ['m'] "Switch_1".toList ['1'] zeros :=
  (contained_iff pyfile switch ['m'] "Switch_1".toList ['1'] zeros (by decide)).mpr
    ⟨by decide, some (1, 0), by decide, nofun, fun inLen out h => by
      obtain ⟨rfl, rfl⟩ := Prod.mk.inj (some.inj h)
      exact ⟨by decide, fun hprivate => absurd rfl hprivate⟩⟩

open Sample in
/-- The name of a scene has ten letters; and a value of no type is sent all the same. -/
theorem control_not_contained :
    ¬ Contained pyfile sceName ['m'] "SceName_1".toList "abcdefghij".toList zeros ∧
      ¬ Contained pyfile untyped ['m'] "LedEnable".toList ['1'] zeros := by
  constructor
  · intro h
    obtain ⟨-, t, ht, -, hsome⟩ := (contained_iff _ _ _ _ _ zeros (by decide)).mp h
    obtain rfl : t = some (255, 6) := Except.ok.inj (ht.symm.trans (by decide))
    obtain ⟨f, hf, hroom⟩ := (hsome 255 6 rfl).2 (by decide)
    obtain rfl : f = "SceName_down".toList := Except.ok.inj (hf.symm.trans (by decide))
    have hlong := hroom (Base64.encode (utf16 "abcdefghij".toList)) (if_pos rfl)
    have hlen := length_encode_utf16 "abcdefghij".toList
    -- the text is not to be computed
    generalize Base64.encode (utf16 "abcdefghij".toList) = text at hlen hlong
    have hletters : "abcdefghij".toList.length = 10 := rfl
    have hnumber : numberLen "SceName_1".toList = 2 := rfl
    rw [hletters] at hlen
    rw [descOf, hnumber, msgLen] at hlong
    omega
  · intro h
    obtain ⟨-, t, ht, -, hsome⟩ := (contained_iff _ _ _ _ _ zeros (by decide)).mp h
    obtain rfl : t = some (0, 3) := Except.ok.inj (ht.symm.trans (by decide))
    exact (hsome 0 3 rfl).1 rfl

end Honyar.TyZigbee
