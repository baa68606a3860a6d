import Honyar.TyZigbee.Exchange

/-!
# Two builders of a report

A report of the Zigbee process is put together by `hylinkSendFunc`, from a `HylinkSend`
(hylinkSend.h), or by `hylinkSendSingleFunc`, from texts that may be missing.  Where no model id is
given, both look up the device and its profile; of the alias and the name of the device, one of
them takes the other one's choice.
-/

namespace Honyar.TyZigbee

open Hylink (strCommand strReport strType strData strDeviceId strModelId strKey strValue)
open Option

/-- `HylinkSendData`. -/
structure HylinkSendData where
  DeviceId : CText
  ModelId : CText
  Key : CText
  Value : CText
deriving DecidableEq

/-- `HylinkSend`, as far as it is sent. -/
structure HylinkSend where
  type : CText
  Data : List HylinkSendData

/-- A report. -/
def reportArray (type : CText) (items : List Json) : Json :=
  .object [(strCommand, .string strReport), (strFrameNumber, .string ['0', '0']),
    (strType, .string type), (strData, .array items)]

variable (profiles : List ZigbeeModel) (hyMap : List HylinkDev)

namespace HylinkSend

/-- The model of an element without one: the alias where there is none. -/
def modelOf (DeviceId : CText) : Option CText := do
  let hyDev ← hylinkListGet hyMap DeviceId
  let zDev ← zigbeeListGet profiles hyDev.ModelId
  return if zDev.report_modelId = [] then zDev.report_modelId else hyDev.ModelId

/-- One pass of the loop of `hylinkSendFunc`. -/
def arrayItem (d : HylinkSendData) : Option Json := do
  let ModelId ← (if d.ModelId = [] then modelOf profiles hyMap d.DeviceId else some d.ModelId :
    Option CText)
  return .object (addNonempty strDeviceId d.DeviceId ++ [(strModelId, .string ModelId)] ++
    addNonempty strKey d.Key ++ addNonempty strValue d.Value)

/-- `hylinkSendFunc`: the message, if it sends one. -/
def hylinkSendFunc (s : HylinkSend) : Option Json :=
  if s.Data = [] then none
  else (s.Data.mapM (arrayItem profiles hyMap)).map (reportArray s.type)

/-- The model of a device without one. -/
def singleModelOf (DeviceId : CText) : Option CText := do
  let hyDev ← hylinkListGet hyMap DeviceId
  let zDev ← zigbeeListGet profiles hyDev.ModelId
  return zDev.reported hyDev.ModelId

/-- `hylinkSendSingleFunc`: the message, if it sends one. -/
def hylinkSendSingleFunc (DeviceId : CText) (ModelId : Option CText) (type : CText)
    (Key Value : Option CText) : Option Json := do
  let ModelId ← (match ModelId with
    | some ModelId => some ModelId
    | none => singleModelOf profiles hyMap DeviceId : Option CText)
  return reportArray type [.object ([(strDeviceId, .string DeviceId),
    (strModelId, .string ModelId)] ++ addString? strKey Key ++ addString? strValue Value)]

end HylinkSend

variable {profiles} {hyMap}

theorem hylinkSendSingleFunc_eq (DeviceId type : CText) (Key Value : Option CText) :
    hylinkSendSingleFunc profiles hyMap DeviceId type Key Value =
      HylinkSend.hylinkSendSingleFunc profiles hyMap DeviceId none type Key Value := by
  unfold hylinkSendSingleFunc HylinkSend.hylinkSendSingleFunc HylinkSend.singleModelOf
  cases hylinkListGet hyMap DeviceId with
  | none => rfl
  | some hyDev =>
    simp only [bind_eq_bind, bind_some]
    cases zigbeeListGet profiles hyDev.ModelId <;> rfl

theorem hylinkSendFunc_eq {DeviceId Key : CText} (hid : DeviceId ≠ []) (hkey : Key ≠ [])
    (type : CText) :
    hylinkSendFunc profiles hyMap type DeviceId Key =
      HylinkSend.hylinkSendFunc profiles hyMap ⟨type, [⟨DeviceId, [], Key, []⟩]⟩ := by
  unfold hylinkSendFunc HylinkSend.hylinkSendFunc HylinkSend.arrayItem HylinkSend.modelOf
  simp only [List.mapM_cons, List.mapM_nil, List.cons_ne_nil, if_false, if_true, addNonempty, hid,
    hkey]
  cases hylinkListGet hyMap DeviceId with
  | none => rfl
  | some hyDev =>
    simp only [bind_eq_bind, bind_some]
    cases zigbeeListGet profiles hyDev.ModelId <;> rfl

namespace HylinkSend

theorem hylinkSendFunc_singleton (type : CText) (d : HylinkSendData) :
    hylinkSendFunc profiles hyMap ⟨type, [d]⟩ =
      (arrayItem profiles hyMap d).map fun item => reportArray type [item] := by
  rw [hylinkSendFunc, if_neg (List.cons_ne_nil d []), List.mapM_cons, List.mapM_nil]
  cases arrayItem profiles hyMap d <;> rfl

/-- The elements of a message. -/
def dataOf (json : Json) : Option (List Json) := (json.getObjectItem strData).map Json.children

theorem dataOf_reportArray (type : CText) (items : List Json) :
    dataOf (reportArray type items) = some items := rfl

theorem mapM_flatten (type : CText) (ds : List HylinkSendData) :
    ds.mapM (arrayItem profiles hyMap) =
      (ds.mapM fun d => (hylinkSendFunc profiles hyMap ⟨type, [d]⟩).bind dataOf).map
        List.flatten := by
  induction ds with
  | nil => rfl
  | cons d ds ih =>
    rw [List.mapM_cons, List.mapM_cons, ih, hylinkSendFunc_singleton]
    cases arrayItem profiles hyMap d with
    | none => rfl
    | some item =>
      simp only [map_some, bind_some, dataOf_reportArray, bind_eq_bind]
      cases ds.mapM fun d => (hylinkSendFunc profiles hyMap ⟨type, [d]⟩).bind dataOf <;> rfl

theorem hylinkSendFunc_flatten (type : CText) (d : HylinkSendData) (ds : List HylinkSendData) :
    hylinkSendFunc profiles hyMap ⟨type, d :: ds⟩ =
      ((d :: ds).mapM fun d => (hylinkSendFunc profiles hyMap ⟨type, [d]⟩).bind dataOf).map
        fun arrays => reportArray type arrays.flatten := by
  rw [hylinkSendFunc, if_neg (List.cons_ne_nil d ds), mapM_flatten type, map_map]
  rfl

/-! ## Agreement -/

/-- Where the device and its profile are there, its alias is its name, and none of the texts that
are given is empty. -/
def Alike (profiles : List ZigbeeModel) (hyMap : List HylinkDev) (DeviceId : CText)
    (Key Value : Option CText) : Prop :=
  ∀ hyDev zDev, hylinkListGet hyMap DeviceId = some hyDev →
    zigbeeListGet profiles hyDev.ModelId = some zDev →
      zDev.report_modelId = hyDev.ModelId ∧ DeviceId ≠ [] ∧ Key ≠ some [] ∧ Value ≠ some []

theorem reportArray_singleton_inj {type : CText} {j j' : Json} :
    reportArray type [j] = reportArray type [j'] ↔ j = j' := by
  simp [reportArray]

theorem addNonempty_getD_eq_iff (name : CText) (t : Option CText) :
    addNonempty name (t.getD []) = addString? name t ↔ t ≠ some [] := by
  cases t with
  | none => simp [addNonempty, addString?]
  | some t =>
    by_cases ht : t = []
    · simp [addNonempty, addString?, ht]
    · simp [addNonempty, addString?, ht]

/-- The members that are left out where they are empty are the others exactly when none is. -/
theorem members_eq_iff {DeviceId m m' : CText} {Key Value : Option CText} :
    addNonempty strDeviceId DeviceId ++ [(strModelId, Json.string m)] ++
        addNonempty strKey (Key.getD []) ++ addNonempty strValue (Value.getD []) =
      [(strDeviceId, .string DeviceId), (strModelId, .string m')] ++ addString? strKey Key ++
        addString? strValue Value ↔
      m = m' ∧ DeviceId ≠ [] ∧ Key ≠ some [] ∧ Value ≠ some [] := by
  have hmodel : strModelId ≠ strDeviceId := by decide
  by_cases hid : DeviceId = []
  · simp [addNonempty, hid, hmodel]
  · rw [← addNonempty_getD_eq_iff strKey Key, ← addNonempty_getD_eq_iff strValue Value]
    simp only [addNonempty, ne_eq, hid, not_false_eq_true, true_and]
    cases Key with
    | none => simp [addString?]
    | some k =>
      by_cases hk : k = []
      · cases Value with
        | none => simp [addString?, hk]
        | some v =>
          by_cases hv : v = []
          · simp [addString?, hk, hv]
          · simp [addString?, hk, hv]
      · simp [addString?, hk]

theorem hylinkSendFunc_eq_single_iff (type DeviceId : CText) (Key Value : Option CText) :
    hylinkSendFunc profiles hyMap ⟨type, [⟨DeviceId, [], Key.getD [], Value.getD []⟩]⟩ =
        hylinkSendSingleFunc profiles hyMap DeviceId none type Key Value ↔
      Alike profiles hyMap DeviceId Key Value := by
  rw [hylinkSendFunc_singleton]
  unfold arrayItem modelOf hylinkSendSingleFunc singleModelOf Alike
  rw [if_pos rfl]
  cases hget : hylinkListGet hyMap DeviceId with
  | none => simp
  | some hyDev =>
    simp only [bind_eq_bind, bind_some, some.injEq]
    cases hz : zigbeeListGet profiles hyDev.ModelId with
    | none =>
      refine iff_of_true rfl fun hyDev' zDev h h' => ?_
      rw [← h, hz] at h'
      cases h'
    | some zDev =>
      have hmodel : (if zDev.report_modelId = [] then zDev.report_modelId else hyDev.ModelId) =
          zDev.reported hyDev.ModelId ↔ zDev.report_modelId = hyDev.ModelId := by
        unfold ZigbeeModel.reported
        split
        · rfl
        · exact eq_comm
      simp only [bind_some, pure_def, map_some, some.injEq,
        reportArray_singleton_inj, Json.object.injEq, members_eq_iff, hmodel]
      constructor
      · rintro h hyDev' zDev' rfl h'
        obtain rfl := some.inj (hz.symm.trans h')
        exact h
      · intro h
        exact h hyDev zDev rfl hz

/-- Both builders make the same of one element without a model exactly when its alias is its name
and no text is empty, and a message with several elements has those of the messages with one. -/
theorem builders_agree_iff (profiles : List ZigbeeModel) (hyMap : List HylinkDev)
    (type DeviceId : CText) (Key Value : Option CText) (d : HylinkSendData)
    (ds : List HylinkSendData) :
    (hylinkSendFunc profiles hyMap ⟨type, [⟨DeviceId, [], Key.getD [], Value.getD []⟩]⟩ =
        hylinkSendSingleFunc profiles hyMap DeviceId none type Key Value ↔
      Alike profiles hyMap DeviceId Key Value) ∧
    hylinkSendFunc profiles hyMap ⟨type, d :: ds⟩ =
      ((d :: ds).mapM fun d => (hylinkSendFunc profiles hyMap ⟨type, [d]⟩).bind dataOf).map
        fun arrays => reportArray type arrays.flatten :=
  ⟨hylinkSendFunc_eq_single_iff type DeviceId Key Value, hylinkSendFunc_flatten type d ds⟩

/-- A device with an alias is reported under its name by one of them, and under the alias by the
other one. -/
theorem builders_disagree :
    ¬ ∀ (profiles : List ZigbeeModel) (hyMap : List HylinkDev) (type DeviceId : CText)
      (Key Value : Option CText),
      hylinkSendFunc profiles hyMap ⟨type, [⟨DeviceId, [], Key.getD [], Value.getD []⟩]⟩ =
        hylinkSendSingleFunc profiles hyMap DeviceId none type Key Value := by
  intro h
  have halike := (hylinkSendFunc_eq_single_iff ..).mp
    (h [⟨['m'], ['a']⟩] [⟨['d'], ['m'], [], 0, 0⟩] strAttribute ['d'] (some ['k']) (some ['v']))
  exact absurd (halike ⟨['d'], ['m'], [], 0, 0⟩ ⟨['m'], ['a']⟩ rfl rfl).1 (by decide)

end HylinkSend

end Honyar.TyZigbee
