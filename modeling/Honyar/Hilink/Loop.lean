import Honyar.Hilink.Services
import Honyar.Lib.Decimal
import Mathlib.Tactic.FinCases

/-!
# The closed loop

A value is sent to a service, the device reports what it was sent, and the service shows the
value.  Whether it does, and whether the other services keep theirs, is decided here for every
device that the cloud can command.
-/

namespace Honyar.Hilink

open Libhylink (charVal)
open Faults
open Option (bind_some getD_some isSome_iff_exists isSome_some some.inj)
open List

variable (charSigned : Bool)
variable {n : Int} {c : DevCloud} {p' : Private}

/-! ## The loop -/

/-- A value that is sent to a service. -/
inductive Value where
  | num (n : Int)
  | text (t : CText)

def Value.json : Value → Json
  | num n => .number (CText.ofInt n) n
  | text t => .string t

def Value.item : Value → Item
  | num n => .num n
  | text t => .str t

/-- The value fits a field of the kind. -/
def Kind.Fits : Kind → Value → Prop
  | .byte, .num n => charVal charSigned (.ofInt 8 n) = n
  | .int, .num n => (BitVec.ofInt 32 n).toInt = n
  | .name, .text t => t.length < 18
  | _, _ => False

/-- The payload of a command. -/
def payload (prop : CText) (v : Value) : Json := .object [(prop, v.json)]

/-- The models of the devices that take commands: 0 to 6, and the panel with its views. -/
def models : List Nat := [0, 1, 2, 3, 4, 5, 6, 8, 9, 10, 11]

/-- The serial number of the device of a model, or of a view. -/
def snOf (m : Nat) (DeviceId : CText) : CText :=
  if m ≤ 8 then DeviceId else viewSn DeviceId (m - 9)

/-- The models under which a device is in the cloud. -/
def viewsOf (m : Nat) : List Nat := if m < 8 then [m] else [8, 9, 10, 11]

/-- A device with its fields, and the devices it has in the cloud: the one of model `m`, and for
the panel those of the views. -/
structure Attached (m : Nat) (dev : DevLocal) (p : Private) (clouds : List DevCloud) : Prop where
  model : some dev.ModelId = localModel[m]?
  priv : dev.priv.or (Private.zero m) = some p
  isOf : p.IsOf m
  found : ∃ c, listGetByIdCloud clouds (snOf m dev.DeviceId) = some c
  views : ∀ view ∈ viewsOf m, ∀ c,
    listGetByIdCloud clouds (snOf view dev.DeviceId) = some c → c.IsOf view

/-- A service of a model with its property: one of the table, or the one for all switches. -/
def ServiceOf (m : Nat) (svcId prop : CText) (kind : Kind) : Prop :=
  (∃ pos : Nat, (cloudAttr m)[pos]? = some svcId ∧ (props m)[pos]? = some (prop, kind)) ∨
    (m = 5 ∨ m = 6) ∧ svcId = "switch".toList ∧ prop = strOn ∧ kind = .byte

/-- The device reports the key and the value of a message. -/
def report (out : LocalDev) : Json :=
  .array [.object [(strKey, .string out.Key), (strValue, .string out.Value)]]

/-- The value of a service in the list. -/
def valAt (clouds : List DevCloud) (sn : CText) (pos : Nat) : Option SvcVal :=
  (listGetByIdCloud clouds sn).bind (DevCloud.val · pos)

/-- Every service of `clouds` but one keeps its value, if its fields have not changed. -/
def Keeps (m : Nat) (DeviceId svcId : CText) (p p' : Private) (clouds clouds' : List DevCloud) :
    Prop :=
  ∀ sn pos, (∃ c, listGetByIdCloud clouds sn = some c ∧ pos < c.devSvc.length) →
    ¬ (sn = snOf m DeviceId ∧ (cloudAttr m)[pos]? = some svcId) →
    (∀ view ∈ viewsOf m, snOf view DeviceId = sn →
      (p'.vals charSigned view)[pos]? = (p.vals charSigned view)[pos]?) →
    valAt clouds' sn pos = valAt clouds sn pos

/-- The value arrives at the service it was sent to, and the others keep theirs. -/
def ClosedLoop (frameNumber : Int) (m : Nat) (dev : DevLocal) (p : Private)
    (clouds : List DevCloud) (svcId prop : CText) (v : Value) : Prop :=
  ∃ out, cloudToLocal frameNumber clouds (snOf m dev.DeviceId) svcId (payload prop v) =
      .ok (some out) ∧ out.DeviceId = dev.DeviceId ∧
    ∃ dev' p' clouds',
      localAttributeUpdate charSigned dev (report out) clouds = .ok (some (dev', clouds')) ∧
      dev'.priv = some p' ∧
      (∃ (pos : Nat) (json : SvcVal), (cloudAttr m)[pos]? = some svcId ∧
        valAt clouds' (snOf m dev.DeviceId) pos = some json ∧ (prop, v.item) ∈ json) ∧
      Keeps charSigned m dev.DeviceId svcId p p' clouds clouds'

/-! ## When it holds -/

/-- The services that are written along with the one at `pos`: those of the panel and of the views
before its own, and of the panel the names. -/
def Alongside (m pos view pos' : Nat) : Prop :=
  m = 8 ∧ view = 8 ∧ 0 < pos' ∧ pos' < 7 ∧ pos' ≠ pos ∨ 9 ≤ m ∧ 8 ≤ view ∧ view < m

/-- The bridge leaves the fields of a service as they are: the scene has been taken note of, and
the name is there. -/
def Settled : Private → Nat → Nat → Prop
  | .hy0134 dev, 8, 0 => dev.KeyFobValue = 0
  | .hy0134 dev, 8, pos + 1 => ∀ h : pos < 12, dev.SceName ⟨pos, h⟩ ≠ []
  | _, _, _ => True

/-- What is written along has the value that is written. -/
def InSync (m pos : Nat) (DeviceId : CText) (p : Private) (clouds : List DevCloud) : Prop :=
  ∀ view pos', Alongside m pos view pos' → Settled p view pos' →
    ∀ c, listGetByIdCloud clouds (snOf view DeviceId) = some c → pos' < c.devSvc.length →
      c.val pos' = (p.vals charSigned view)[pos']?

/-- The value is a number, or a text that fits the message and is not empty. -/
def Value.Sendable : Value → Prop
  | num _ => True
  | text t => t ≠ [] ∧ t.length < 16

/-! ## Commands -/

variable {charSigned} {m pos : Nat} {svcId prop DeviceId : CText} {kind : Kind} {v : Value}

/-- The key of a service in a message. -/
def keyAt (m pos : Nat) : CText :=
  if m = 8 then "SceName_".toList ++ CText.ofInt pos else ((localAttr m)[pos]?).getD []

theorem getObjectItem_payload (prop name : CText) (v : Value) :
    (payload prop v).getObjectItem name =
      if Json.sameName name prop then some v.json else none := by
  simp only [payload, Json.getObjectItem, find?_cons, find?_nil]
  cases Json.sameName name prop <;> rfl

theorem dropLast_snOf (hm : 9 ≤ m ∧ m ≤ 11) : (snOf m DeviceId).dropLast = DeviceId := by
  have hdigit : ∀ j < 3, ∃ c, CText.ofInt (j : Nat) = [c] := by
    intro j hj
    match j, hj with
    | 0, _ | 1, _ | 2, _ => exact ⟨_, rfl⟩
  obtain ⟨c, hc⟩ := hdigit (m - 9) (by omega)
  rw [snOf, if_neg (by omega), viewSn, hc, dropLast_concat]

theorem keyOf_eq (hm : m ∈ models) (hsvc : (cloudAttr m)[pos]? = some svcId) :
    keyOf m svcId = (localAttr m)[pos]? ∧ strSearch svcId (cloudAttr m) = some pos ∧
      ((localAttr m)[pos]?).isSome := by
  have hall : ∀ m ∈ models, ∀ pos < (cloudAttr m).length, ∀ svcId ∈ (cloudAttr m)[pos]?,
      keyOf m svcId = (localAttr m)[pos]? ∧ strSearch svcId (cloudAttr m) = some pos ∧
        ((localAttr m)[pos]?).isSome := by decide
  exact hall m hm pos (List.getElem?_eq_some_iff.mp hsvc).1 svcId hsvc

theorem firstItem_payload {names : List CText} (h : ∃ name ∈ names, Json.sameName name prop) :
    firstItem (payload prop v) names = some v.json := by
  obtain ⟨name, hname, hsame⟩ := h
  induction names with
  | nil => cases hname
  | cons x names ih =>
    rw [firstItem, findSome?_cons, getObjectItem_payload]
    by_cases hx : Json.sameName x prop
    · rw [if_pos hx]
    · rw [if_neg hx]
      rcases mem_cons.mp hname with rfl | hname
      · exact absurd hsame hx
      · exact ih hname

/-- The command for a service goes to its device, with its key and the value. -/
theorem commandOf_eq (DeviceId : CText) (v : Value) (hm : m ∈ models)
    (hsvc : (cloudAttr m)[pos]? = some svcId)
    (hprop : (props m)[pos]? = some (prop, kind)) (hscene : ¬ (m = 8 ∧ pos = 0)) :
    commandOf m (snOf m DeviceId) (((localAttr m)[pos]?).getD []) svcId (payload prop v) =
      some (DeviceId, keyAt m pos, v.json) := by
  have hfirst (names : List CText)
      (h : ∀ x ∈ props m, ∃ name ∈ names, Json.sameName name x.1 = true) :
      firstItem (payload prop v) names = some v.json :=
    firstItem_payload (h _ (mem_of_getElem? hprop))
  obtain ⟨-, hpos, -⟩ := keyOf_eq hm hsvc
  have hall : ∀ m ∈ models, m ∈ [0, 1, 2, 4, 5, 6] ∨ m ∈ [3, 8, 9, 10, 11] := by decide
  have hcases := hall m hm
  simp only [mem_cons, not_mem_nil, or_false] at hcases
  obtain (rfl | rfl | rfl | rfl | rfl | rfl) | rfl | rfl | rfl | rfl | rfl := hcases
  iterate 6
    · simp only [commandOf, hfirst [strOn, strMode] (by decide)]
      rfl
  · simp only [commandOf, hfirst [strOn, strBrightness, strColorTemperature] (by decide)]
    rfl
  · -- Of the services of the panel, the names take a command.
    obtain ⟨n, rfl⟩ : ∃ n, pos = n + 1 := Nat.exists_eq_succ_of_ne_zero fun h => hscene ⟨rfl, h⟩
    have hname : (List.replicate 6 (strName, Kind.name))[n]? = some (prop, kind) := hprop
    obtain ⟨rfl, -⟩ := Prod.mk.inj (eq_of_mem_replicate (mem_of_getElem? hname))
    rw [commandOf, getObjectItem_payload, hpos]
    rfl
  · rw [commandOf, hfirst [strOn, strTarget] (by decide), dropLast_snOf (by decide)]
    rfl
  · rw [commandOf, hfirst [strOn, strMode, strTarget, strGear] (by decide),
      dropLast_snOf (by decide)]
    rfl
  · -- The key is chosen by the property.
    rw [commandOf, getObjectItem_payload, getObjectItem_payload, dropLast_snOf (by decide)]
    match pos, hprop with
    | 0, hprop =>
      obtain ⟨rfl, -⟩ := Prod.mk.inj (some.inj hprop)
      rfl
    | 1, hprop =>
      obtain ⟨rfl, -⟩ := Prod.mk.inj (some.inj hprop)
      rfl

/-- The value of a command, as a text. -/
def Value.toText : Value → CText
  | num n => CText.ofInt n
  | text t => t

theorem natAbs_lt_of_fits (h : kind.Fits charSigned (.num n)) : n.natAbs < 10 ^ 10 := by
  cases kind with
  | byte =>
    have hc : charVal charSigned (.ofInt 8 n) = n := h
    have hlt := (BitVec.ofInt 8 n).isLt
    rw [charVal] at hc
    split at hc
    · have := BitVec.toInt_lt (x := BitVec.ofInt 8 n)
      have := BitVec.le_toInt (BitVec.ofInt 8 n)
      omega
    · omega
  | int =>
    have hi : (BitVec.ofInt 32 n).toInt = n := h
    have := BitVec.toInt_lt (x := BitVec.ofInt 32 n)
    have := BitVec.le_toInt (BitVec.ofInt 32 n)
    omega
  | name => cases h

theorem getValueFromJson_eq (hv : kind.Fits charSigned v) :
    getValueFromJson v.json = strcpy 16 v.toText ∧ ((∀ t, v = .text t → t.length < 16) →
      v.toText.length < 16) := by
  cases v with
  | num n =>
    refine ⟨rfl, fun _ => ?_⟩
    have := CText.length_ofInt_le (by decide) (natAbs_lt_of_fits hv)
    exact Nat.lt_of_le_of_lt this (by decide)
  | text t => exact ⟨rfl, fun h => h t rfl⟩

variable {dev : DevLocal} {p : Private} {clouds : List DevCloud} {frameNumber : Int}

/-- The message for a service. -/
def messageOf (frameNumber : Int) (dev : DevLocal) (m pos : Nat) (v : Value) : LocalDev :=
  ⟨frameNumber, "Ctrl".toList, dev.DeviceId, dev.ModelId, keyAt m pos, v.toText⟩

theorem strSearch_cloudModel (hm : m ∈ models) (hc : c.IsOf m) :
    strSearch c.prodId cloudModel = some m := by
  have hall : ∀ m ∈ models, ∀ t ∈ cloudModel[m]?, strSearch t cloudModel = some m := by decide
  exact hall m hm c.prodId hc.prodId.symm

/-- A command for a service is sent exactly when its texts fit; it is sent to the device, with the
key of the service. -/
theorem cloudToLocal_eq (hm : m ∈ models) (hd : Attached m dev p clouds)
    (hsvc : (cloudAttr m)[pos]? = some svcId) (hprop : (props m)[pos]? = some (prop, kind))
    (hscene : ¬ (m = 8 ∧ pos = 0)) (hv : kind.Fits charSigned v) (out : LocalDev) :
    cloudToLocal frameNumber clouds (snOf m dev.DeviceId) svcId (payload prop v) = .ok (some out) ↔
      out = messageOf frameNumber dev m pos v ∧ (snOf m dev.DeviceId).length < 24 ∧
        (CText.ofInt frameNumber).length < 3 ∧ ∀ t, v = .text t → t.length < 16 := by
  obtain ⟨c, hc⟩ := hd.found
  obtain ⟨hkey, -, hsome⟩ := keyOf_eq hm hsvc
  obtain ⟨K, hK⟩ := isSome_iff_exists.mp hsome
  have hmember : ∀ m ∈ models, m ∈ viewsOf m := by decide
  have hindex := strSearch_cloudModel hm (hd.views m (hmember m hm) c hc)
  have hcommand := commandOf_eq dev.DeviceId v hm hsvc hprop hscene
  obtain ⟨htext, hshort⟩ := getValueFromJson_eq hv
  have htextIff : v.toText.length < 16 ↔ ∀ t, v = .text t → t.length < 16 :=
    ⟨fun h t ht => (by rwa [ht] at h), hshort⟩
  rw [hK, getD_some] at hcommand
  rw [cloudToLocal, hc]
  simp only [strcpy_bind_eq_ok, hindex, ← hd.model, Fault.ofOption, ok_bind, hkey, hK, hcommand,
    htext, writeToLocal, bind_assoc, pure_bind, ← htextIff]
  constructor
  · rintro ⟨hsn, htxt, hframe, h⟩
    exact ⟨(some.inj (Except.ok.inj h)).symm, hsn, hframe, htxt⟩
  · rintro ⟨rfl, hsn, hframe, htxt⟩
    exact ⟨hsn, htxt, hframe, rfl⟩

/-! ## Reports -/

/-- The position of the key of a service in the local table of its device. -/
def subAt : Nat → Nat → Nat
  | 8, _ => 13
  | 9, 0 => 3
  | 9, _ => 7
  | 10, 0 => 1
  | 10, 1 => 6
  | 10, 2 => 8
  | 10, _ => 4
  | 11, 0 => 2
  | 11, _ => 5
  | _, pos => pos

theorem subAt_plain (hplain : m < 7) : subAt m pos = pos := by
  unfold subAt
  split <;> first | rfl | omega

theorem indexSub_keyAt (hm : m ∈ models) (hsvc : (cloudAttr m)[pos]? = some svcId) :
    indexSub (min m 8) (keyAt m pos) = some (subAt m pos) := by
  have hall : ∀ m ∈ models, ∀ pos < (cloudAttr m).length,
      indexSub (min m 8) (keyAt m pos) = some (subAt m pos) := by decide
  exact hall m hm pos (List.getElem?_eq_some_iff.mp hsvc).1

/-- The element of a report. -/
def element (key value : CText) : Json :=
  .object [(strKey, .string key), (strValue, .string value)]

/-- A report of one attribute: it is written to its field, and handed on to the cloud. -/
theorem localAttributeUpdate_eq (charSigned : Bool) (hm : m ∈ models) (hd : Attached m dev p clouds)
    (out : LocalDev) {s : Nat} (hsub : indexSub (min m 8) out.Key = some s)
    (hset : p.set s out.Key (element out.Key out.Value) = .ok p') :
    localAttributeUpdate charSigned dev (report out) clouds =
      (localToCloud charSigned p' (min m 8) (some s) dev.DeviceId clouds >>= fun r =>
        .ok (some ({ dev with priv := some r.1 }, r.2))) := by
  have hmodel : ∀ m ∈ models, ∀ t ∈ localModel[m]?, strSearch t localModel = some (min m 8) := by
    decide
  have hindex := hmodel m hm dev.ModelId hd.model.symm
  have hzero : dev.priv.or (Private.zero (min m 8)) = some p := by
    have hall : ∀ m ∈ models, Private.zero (min m 8) = Private.zero m := by
      intro m hm
      fin_cases hm <;> rfl
    rw [hall m hm, hd.priv]
  have hkey : member (element out.Key out.Value) strKey = .ok (.string out.Key) := rfl
  have hvalue : valuestring (.string out.Key) = .ok out.Key := rfl
  have hpass : updateAttr (min m 8) (p, none) (element out.Key out.Value) = .ok (p', some s) := by
    rw [updateAttr, hkey, ok_bind, hvalue, ok_bind, hsub]
    dsimp only
    rw [hset]
    rfl
  simp only [localAttributeUpdate, hindex, hzero, Fault.ofOption, ok_bind,
    show (report out).children = [element out.Key out.Value] from rfl, foldlM_cons,
    foldlM_nil, hpass, pure_bind, length_singleton, if_true]
  rfl

/-! ## Devices with one list of services -/

theorem charCopyFromJson_element (key : CText) (n : Int) (c : BitVec 8) :
    charCopyFromJson (element key (CText.ofInt n)) strValue c = .ok (.ofInt 8 n) := by
  have hget : (element key (CText.ofInt n)).getObjectItem strValue =
      some (.string (CText.ofInt n)) := rfl
  rw [charCopyFromJson, hget]
  simp only [valuestring, Json.valuestring?_string, Fault.ofOption, ok_bind, CText.atoi_ofInt]
  rfl

theorem intCopyFromJson_element (key : CText) (n : Int) (c : BitVec 32) :
    intCopyFromJson (element key (CText.ofInt n)) strValue c = .ok (.ofInt 32 n) := by
  have hget : (element key (CText.ofInt n)).getObjectItem strValue =
      some (.string (CText.ofInt n)) := rfl
  rw [intCopyFromJson, hget]
  simp only [valuestring, Json.valuestring?_string, Fault.ofOption, ok_bind, CText.atoi_ofInt]
  rfl

theorem set_of_out {s : Nat} {c : BitVec 8} {write : BitVec 8 → Private}
    (h : p.out s = some (c, write)) (key : CText) (n : Int) :
    p.set s key (element key (CText.ofInt n)) = .ok (write (.ofInt 8 n)) := by
  unfold Private.set
  split
  next => cases h
  next => cases h
  next => cases h
  next =>
    rw [h]
    dsimp only
    rw [charCopyFromJson_element]
    rfl

theorem set_byte {prop' : CText} (hprop : some (prop', Kind.byte) = some (prop, kind))
    (hout : ∃ f, p.out pos = some f ∧ ∀ c, (f.2 c).IsOf m ∧
      ((f.2 c).vals charSigned m)[pos]? = some (intVal prop' (charVal charSigned c)))
    (hv : kind.Fits charSigned (.num n)) (key : CText) :
    ∃ p', p.set pos key (element key (CText.ofInt n)) = .ok p' ∧ p'.IsOf m ∧
      (p'.vals charSigned m)[pos]? = some [(prop, .num n)] := by
  obtain ⟨rfl, rfl⟩ := Prod.mk.inj (some.inj hprop)
  obtain ⟨f, hout, hf⟩ := hout
  refine ⟨_, set_of_out hout key n, (hf _).1, (hf _).2.trans ?_⟩
  rw [show charVal charSigned (.ofInt 8 n) = n from hv]
  rfl

/-- The field of a service takes the value, and its service shows it. -/
theorem set_plain (hplain : m < 7) (hp : p.IsOf m) (hprop : (props m)[pos]? = some (prop, kind))
    (hv : kind.Fits charSigned (.num n)) (key : CText) :
    ∃ p', p.set pos key (element key (CText.ofInt n)) = .ok p' ∧ p'.IsOf m ∧
      (p'.vals charSigned m)[pos]? = some [(prop, .num n)] := by
  cases p with
  | hy0095 dev =>
    obtain rfl := hp
    match pos, hprop with
    | 0, hprop | 1, hprop =>
      refine set_byte hprop ?_ hv key
      exact ⟨_, rfl, fun _ => ⟨rfl, rfl⟩⟩
  | hy0096 dev =>
    obtain rfl := hp
    match pos, hprop with
    | 0, hprop | 1, hprop | 2, hprop =>
      refine set_byte hprop ?_ hv key
      exact ⟨_, rfl, fun _ => ⟨rfl, rfl⟩⟩
  | hy0097 dev =>
    obtain rfl := hp
    match pos, hprop with
    | 0, hprop | 1, hprop | 2, hprop | 3, hprop =>
      refine set_byte hprop ?_ hv key
      exact ⟨_, rfl, fun _ => ⟨rfl, rfl⟩⟩
  | d09223f dev =>
    obtain rfl := hp
    match pos, hprop with
    | 0, hprop =>
      obtain ⟨rfl, rfl⟩ := Prod.mk.inj (some.inj hprop)
      refine ⟨.d09223f { dev with ColorTemperature := .ofInt 32 n }, ?_, rfl, ?_⟩
      · rw [Private.set, intCopyFromJson_element]
        rfl
      · show some (intVal strColorTemperature (BitVec.ofInt 32 n).toInt) = _
        rw [show (BitVec.ofInt 32 n).toInt = n from hv]
        rfl
    | 1, hprop | 2, hprop =>
      refine set_byte hprop ?_ hv key
      exact ⟨_, rfl, fun _ => ⟨rfl, rfl⟩⟩
  | hy0121 dev =>
    obtain rfl := hp
    match pos, hprop with
    | 0, hprop | 1, hprop =>
      refine set_byte hprop ?_ hv key
      exact ⟨_, rfl, fun _ => ⟨rfl, rfl⟩⟩
  | hy0122 dev =>
    obtain rfl := hp
    match pos, hprop with
    | 0, hprop | 1, hprop | 2, hprop =>
      refine set_byte hprop ?_ hv key
      exact ⟨_, rfl, fun _ => ⟨rfl, rfl⟩⟩
  | hy0107 dev =>
    obtain rfl := hp
    match pos, hprop with
    | 0, hprop | 1, hprop | 2, hprop | 3, hprop =>
      refine set_byte hprop ?_ hv key
      exact ⟨_, rfl, fun _ => ⟨rfl, rfl⟩⟩
  | hy0093 dev =>
    obtain rfl := hp
    cases hplain.false
  | hy0134 dev =>
      exact absurd hp.1 (by omega)

theorem cloudGetAttr_plain (hplain : m < 7) (hp : p'.IsOf m) (index : Nat) (index_sub : Option Nat)
    (out : CText) (clouds : List DevCloud) :
    cloudGetAttr charSigned p' index index_sub out clouds =
      (updateVals (p'.vals charSigned m) index_sub out clouds >>= fun clouds' =>
        .ok (p', clouds')) := by
  cases p' with
  | hy0095 dev => rfl
  | hy0096 dev => rfl
  | hy0097 dev => rfl
  | d09223f dev => rfl
  | hy0121 dev => rfl
  | hy0122 dev => rfl
  | hy0107 dev => rfl
  | hy0093 dev =>
    obtain rfl := hp
    cases hplain.false
  | hy0134 dev => exact absurd hp.1 (by omega)

theorem localToCloud_plain {json : SvcVal} (hplain : m < 7) (hp : p'.IsOf m)
    (hc : listGetByIdCloud clouds DeviceId = some c) (hof : c.IsOf m)
    (hsvc : (cloudAttr m)[pos]? = some svcId) (hjson : (p'.vals charSigned m)[pos]? = some json)
    (index : Nat) :
    ∃ clouds', localToCloud charSigned p' index (some pos) DeviceId clouds = .ok (p', clouds') ∧
      listGetByIdCloud clouds' =
        Function.update (listGetByIdCloud clouds) DeviceId (some (c.put (pos, json))) := by
  have hpos : pos < c.devSvc.length := by
    rw [hof.length_eq]
    exact (List.getElem?_eq_some_iff.mp hsvc).1
  obtain ⟨clouds', hmod, hlook⟩ := modSvc_eq hc json hpos
  refine ⟨clouds', ?_, hlook⟩
  rw [localToCloud, hc]
  dsimp only [isSome_some]
  rw [if_pos rfl, cloudGetAttr_plain hplain hp, updateVals, hjson]
  dsimp only
  rw [hmod]
  rfl

theorem valAt_of_eq {sn : CText} (h : listGetByIdCloud clouds sn = some c) (pos : Nat) :
    valAt clouds sn pos = c.val pos := by
  rw [valAt, h, bind_some]

/-! ## What a report leaves -/

/-- The service at `pos` shows `json` after the report of `v`, and the other services are those of
`clouds'`. -/
def Reported (charSigned : Bool) (frameNumber : Int) (m pos : Nat) (dev : DevLocal) (v : Value)
    (clouds : List DevCloud) (p' : Private) (clouds' : List DevCloud) (json : SvcVal) : Prop :=
  localAttributeUpdate charSigned dev (report (messageOf frameNumber dev m pos v)) clouds =
      .ok (some ({ dev with priv := some p' }, clouds')) ∧
    valAt clouds' (snOf m dev.DeviceId) pos = some json

theorem pos_unique {pos' : Nat} (hm : m ∈ models) (hsvc : (cloudAttr m)[pos]? = some svcId)
    (hsvc' : (cloudAttr m)[pos']? = some svcId) : pos' = pos :=
  some.inj ((keyOf_eq hm hsvc').2.1.symm.trans (keyOf_eq hm hsvc).2.1)

/-- The loop closes exactly when the message is sent, the service shows the value, and the others
keep theirs. -/
theorem closedLoop_iff_of_reported {clouds' : List DevCloud} {json : SvcVal} (hm : m ∈ models)
    (hd : Attached m dev p clouds) (hsvc : (cloudAttr m)[pos]? = some svcId)
    (hprop : (props m)[pos]? = some (prop, kind)) (hscene : ¬ (m = 8 ∧ pos = 0))
    (hv : kind.Fits charSigned v)
    (hreport : Reported charSigned frameNumber m pos dev v clouds p' clouds' json) :
    ClosedLoop charSigned frameNumber m dev p clouds svcId prop v ↔
      (snOf m dev.DeviceId).length < 24 ∧ (CText.ofInt frameNumber).length < 3 ∧
        (∀ t, v = .text t → t.length < 16) ∧ (prop, v.item) ∈ json ∧
        Keeps charSigned m dev.DeviceId svcId p p' clouds clouds' := by
  obtain ⟨hupdate, hval⟩ := hreport
  constructor
  · rintro ⟨out, hsend, -, dev', p₁, clouds₁, hupdate₁, hpriv, ⟨pos₁, json₁, hsvc₁, hval₁, hmem⟩,
      hkeeps⟩
    obtain ⟨rfl, hsn, hframe, htext⟩ := (cloudToLocal_eq hm hd hsvc hprop hscene hv out).mp hsend
    obtain ⟨rfl, rfl⟩ : { dev with priv := some p' } = dev' ∧ clouds' = clouds₁ :=
      Prod.mk.inj (some.inj (Except.ok.inj (hupdate.symm.trans hupdate₁)))
    obtain rfl : p' = p₁ := some.inj hpriv
    obtain rfl := pos_unique hm hsvc hsvc₁
    obtain rfl : json = json₁ := some.inj (hval.symm.trans hval₁)
    exact ⟨hsn, hframe, htext, hmem, hkeeps⟩
  · rintro ⟨hsn, hframe, htext, hmem, hkeeps⟩
    refine ⟨_, (cloudToLocal_eq hm hd hsvc hprop hscene hv _).mpr ⟨rfl, hsn, hframe, htext⟩, rfl,
      ?_⟩
    exact ⟨_, p', clouds', hupdate, rfl, ⟨pos, json, hsvc, hval, hmem⟩, hkeeps⟩

/-- On the devices with one list of services the service shows the value, and nothing else
changes. -/
theorem reported_plain (frameNumber : Int) (hm : m ∈ models) (hplain : m < 7)
    (hd : Attached m dev p clouds) (hsvc : (cloudAttr m)[pos]? = some svcId)
    (hprop : (props m)[pos]? = some (prop, kind)) (hv : kind.Fits charSigned (.num n)) :
    ∃ p' clouds',
      Reported charSigned frameNumber m pos dev (.num n) clouds p' clouds' [(prop, .num n)] ∧
      Keeps charSigned m dev.DeviceId svcId p p' clouds clouds' := by
  obtain ⟨c, hc⟩ := hd.found
  have hmember : ∀ m ∈ models, m ∈ viewsOf m := by decide
  have hof := hd.views m (hmember m hm) c hc
  have hself : snOf m dev.DeviceId = dev.DeviceId := if_pos (by omega)
  rw [hself] at hc
  obtain ⟨p', hset, hp', hjson⟩ := set_plain hplain hd.isOf hprop hv (keyAt m pos)
  have hupdate := localAttributeUpdate_eq charSigned hm hd
    (messageOf frameNumber dev m pos (.num n)) (indexSub_keyAt hm hsvc)
    (by rw [subAt_plain hplain]; exact hset)
  obtain ⟨clouds', hcloud, hlook⟩ :=
    localToCloud_plain hplain hp' hc hof hsvc hjson (min m 8)
  rw [subAt_plain hplain, hcloud] at hupdate
  have hpos : pos < c.devSvc.length := by
    rw [hof.length_eq]
    exact (List.getElem?_eq_some_iff.mp hsvc).1
  have hfound : listGetByIdCloud clouds' dev.DeviceId = some (c.put (pos, [(prop, .num n)])) := by
    rw [hlook, Function.update_self]
  refine ⟨p', clouds', ⟨hupdate, ?_⟩, ?_⟩
  · rw [hself, valAt_of_eq hfound, DevCloud.val_put hpos, if_pos rfl]
  · rintro sn pos' - hother -
    by_cases hsn : sn = dev.DeviceId
    · rw [hsn, valAt_of_eq hfound, valAt_of_eq hc, DevCloud.val_put hpos, if_neg]
      rintro rfl
      exact hother ⟨hsn.trans hself.symm, hsvc⟩
    · rw [valAt, valAt, hlook, Function.update_of_ne hsn]

end Honyar.Hilink
