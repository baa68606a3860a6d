import Honyar.Libhylink.Recv

/-!
# Messages to the gateway

A message to the gateway is put together in a `HylinkDevSendData` (hylinkSend.h), whose members
are arrays of fixed sizes, and printed by `hylinkSend` (hylinkSend.c).  A member without text is
left out.  The texts being that short, the printed message fits the buffer of `hylinkDispatch`.
-/

namespace Honyar.Libhylink

open Hylink

/-- `struct HylinkSendData`. -/
structure HylinkSendData where
  DeviceId : CText
  ModelId : CText
  Key : CText
  Value : CText
deriving DecidableEq

/-- `HylinkDevSendData`, without the frame number, which is not sent. -/
structure HylinkDevSendData where
  type : CText
  Data : HylinkSendData
deriving DecidableEq

/-- The sizes of `DeviceId`, `ModelId` and `Key`; of `Value`; and of `Type`. -/
def deviceIdLen : Nat := 24
def valueLen : Nat := 16
def typeLen : Nat := 12

def strFrameNumber : CText := "FrameNumber".toList
def strDelete : CText := "Delete".toList
def strCtrl : CText := "Ctrl".toList
def strAll : CText := "All".toList

/-- A member, unless it has no text. -/
def member? (name text : CText) : List (CText × Json) :=
  if text = [] then [] else [(name, .string text)]

/-- What `hylinkSend` prints. -/
def HylinkDevSendData.json (d : HylinkDevSendData) : Json :=
  .object [(strCommand, .string strDispatch), (strFrameNumber, .string ['0']),
    (strType, .string d.type),
    (strData, .array [.object (member? strDeviceId d.Data.DeviceId ++
      member? strModelId d.Data.ModelId ++ member? strKey d.Data.Key ++
      member? strValue d.Data.Value)])]

/-- What `hylinkSendDevAttr` puts together. -/
def hylinkSendDevAttr (devId : CText) : Except Fault HylinkDevSendData := do
  return ⟨ReportType.devAttri.text, ← strcpy deviceIdLen devId, [], strAll, []⟩

/-- What `hylinkDelDev` puts together. -/
def hylinkDelDevData (sn : CText) : Except Fault HylinkDevSendData := do
  return ⟨strDelete, ← strcpy deviceIdLen sn, [], [], []⟩

/-- `cjson_to_str` into an array of `size` bytes. -/
def cjsonToStr (size : Nat) (item : Json) : Except Fault CText :=
  match item.valuestring? with
  | some t => strcpy size t
  | none => strcpy size (CText.ofInt item.valueint)

/-- What `hyCloudCtrlSend` puts together. -/
def hyCloudCtrlSend (sn modelId hyType hyKey : CText) (payload : Json) (cloudKey : CText) :
    Except Fault HylinkDevSendData := do
  let DeviceId ← strcpy deviceIdLen sn
  let ModelId ← strcpy deviceIdLen modelId
  let type ← (if hyType = [] then .ok strCtrl else strcpy typeLen hyType : Except Fault CText)
  let Key ← strcpy deviceIdLen hyKey
  let Value ← cjsonToStr valueLen (← member payload cloudKey)
  return ⟨type, DeviceId, ModelId, Key, Value⟩

end Honyar.Libhylink
