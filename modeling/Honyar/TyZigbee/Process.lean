import Honyar.Hylink.RecvJson
import Honyar.Lib.Store
import Honyar.Lib.Undefined

/-!
# The Zigbee process

The map of devices the Zigbee process keeps (hylinkListFunc.c), its table (database.c), what it
does when a device joins or leaves (hylink.c), the messages it sends (hylinkSend.c), and those it
receives (hylinkRecv.c).

The commands it gives to the Zigbee side are listed, and not followed.  A row of the table is a
device id with a model id; a statement that is prepared is taken to be executed.
-/

namespace Honyar.TyZigbee

open Hylink

/-- `HylinkDev`. -/
structure HylinkDev where
  DeviceId : CText
  ModelId : CText
  Version : CText
  version : BitVec 8
  activeTime : Int
deriving DecidableEq, Repr

/-- `zigbeeDev`, as far as a device is named by it. -/
structure ZigbeeModel where
  manuName : CText
  report_modelId : CText
deriving DecidableEq, Repr

/-- `zigbeeListGet`. -/
def zigbeeListGet (profiles : List ZigbeeModel) (key : CText) : Option ZigbeeModel :=
  profiles.find? (·.manuName = key)

/-- `hylinkListGet`. -/
def hylinkListGet (hyMap : List HylinkDev) (key : CText) : Option HylinkDev :=
  hyMap.find? (·.DeviceId = key)

/-- `hylinkListAdd`: an entry of that id is replaced. -/
def hylinkListAdd (hyMap : List HylinkDev) (dev : HylinkDev) : List HylinkDev :=
  Store.put HylinkDev.DeviceId dev hyMap

/-- `hylinkListDel`. -/
def hylinkListDel (hyMap : List HylinkDev) (key : CText) : List HylinkDev :=
  Store.remove HylinkDev.DeviceId key hyMap

/-- What the process asks of the Zigbee side. -/
inductive ZigbeeCall where
  /-- `runCmdCb(&cmd, CMD_NETWORK_ACCESS)`. -/
  | networkAccess (cmd : BitVec 8)
  /-- `runSystemCb(HYLINK_ZB_CHANNEL)`. -/
  | channel
  /-- `runCmdCb(devId, CMD_DELETE_DEV)`. -/
  | deleteDev (devId : CText)
  /-- `runZigbeeCb(devId, modelId, key, value, ZIGBEE_DEV_DISPATCH)`. -/
  | dispatch (devId : CText) (modelId key value : Option CText)
  /-- `runSystemCb(HYLINK_RESET)` and `runSystemCb(ZIGBEE_RESET)`: the process ends. -/
  | reset
deriving DecidableEq, Repr

/-- The map, the rows of the table, the messages that were sent, and the calls. -/
structure Process where
  hyMap : List HylinkDev
  rows : List (CText × CText)
  sent : List Json
  calls : List ZigbeeCall

/-- `insertDatabse`: the row with the id is replaced. -/
def insertDatabse (rows : List (CText × CText)) (devId modelId : CText) : List (CText × CText) :=
  Store.replace Prod.fst (devId, modelId) rows

/-- The width of the texts of a `HylinkDev`. -/
def textLen : Nat := 33

/-- A device as it is taken into the map. -/
def newDev (devId modelId version : CText) : Except Fault HylinkDev := do
  return ⟨← strcpy textLen devId, ← strcpy textLen modelId, ← strcpy textLen version, 0, 0⟩

def strVersion : CText := "Version".toList
def strRegister : CText := "Register".toList
def strUnRegister : CText := "UnRegister".toList
def strAttribute : CText := "Attribute".toList
def strDevsInfo : CText := "DevsInfo".toList
def strGatewayDevId : CText := "0000000000000000".toList
def strFrameNumber : CText := "FrameNumber".toList

/-! ## Messages it sends -/

variable (profiles : List ZigbeeModel)

/-- The name a device is reported under: its alias, if its profile has one. -/
def ZigbeeModel.reported (zDev : ZigbeeModel) (modelId : CText) : CText :=
  if zDev.report_modelId = [] then modelId else zDev.report_modelId

/-- A report with one element. -/
def reportJson (type : CText) (arrayItem : List (CText × Json)) : Json :=
  .object [(strCommand, .string strReport), (strFrameNumber, .string ['0', '0']),
    (strType, .string type), (strData, .array [.object arrayItem])]

/-- `cJSON_AddStringToObject`, of a text that may be missing. -/
def addString? (name : CText) : Option CText → List (CText × Json)
  | some t => [(name, .string t)]
  | none => []

/-- `hylinkSendSingleFunc` without a model id: the message, if it sends one. -/
def hylinkSendSingleFunc (hyMap : List HylinkDev) (DeviceId type : CText)
    (Key Value : Option CText) : Option Json := do
  let hyDev ← hylinkListGet hyMap DeviceId
  let zDev ← zigbeeListGet profiles hyDev.ModelId
  return reportJson type ([(strDeviceId, .string DeviceId),
    (strModelId, .string (zDev.reported hyDev.ModelId))] ++
      addString? strKey Key ++ addString? strValue Value)

/-- `hylinkSendFunc` with one element without a model id or a value.  Here the alias is sent when
there is none. -/
def hylinkSendFunc (hyMap : List HylinkDev) (type DeviceId Key : CText) : Option Json := do
  let hyDev ← hylinkListGet hyMap DeviceId
  let zDev ← zigbeeListGet profiles hyDev.ModelId
  let ModelId := if zDev.report_modelId = [] then zDev.report_modelId else hyDev.ModelId
  return reportJson type [(strDeviceId, .string DeviceId), (strModelId, .string ModelId),
    (strKey, .string Key)]

/-- `hylinkReportDevInfo`: the gateway is looked up in the map like a device. -/
def hylinkReportDevInfo (hyMap : List HylinkDev) : Option Json :=
  hylinkSendFunc profiles hyMap strDevsInfo strGatewayDevId strDevsInfo

/-- A message goes out, if there is one. -/
def Process.send (s : Process) (json : Option Json) : Process :=
  { s with sent := s.sent ++ json.toList }

/-- A call is made. -/
def Process.call (s : Process) (c : ZigbeeCall) : Process := { s with calls := s.calls ++ [c] }

/-! ## Devices that join and leave -/

/-- `hylinkDevJoin`. -/
def hylinkDevJoin (s : Process) (devId version manuName : CText) : Except Fault Process :=
  match zigbeeListGet profiles manuName with
  | none => return s.call (.deleteDev devId)
  | some _ => do
    let hyDev ← newDev devId manuName version
    let s := { s with
      hyMap := hylinkListAdd s.hyMap hyDev
      rows := insertDatabse s.rows hyDev.DeviceId hyDev.ModelId }
    let s := s.send (hylinkSendSingleFunc profiles s.hyMap hyDev.DeviceId strRegister none none)
    let s := s.send (hylinkSendSingleFunc profiles s.hyMap hyDev.DeviceId strAttribute
      (some strVersion) (some hyDev.Version))
    return s.call (.dispatch hyDev.DeviceId (some hyDev.ModelId) none none)

/-- `hylinkDevLeave`: the statement reads the id from the entry that `hylinkListDel` released. -/
def hylinkDevLeave (s : Process) (devId : CText) : Except Fault Process :=
  match hylinkListGet s.hyMap devId with
  | none => return s
  | some hyDev =>
    let s := s.send (hylinkSendSingleFunc profiles s.hyMap hyDev.DeviceId strUnRegister none none)
    let s := { s with hyMap := hylinkListDel s.hyMap hyDev.DeviceId }
    match hylinkListGet s.hyMap devId with
    | none => .error .released
    | some hyDev => return { s with rows := Store.remove Prod.fst hyDev.DeviceId s.rows }

/-! ## Messages it receives -/

/-- `hylink_recv_type`, in its order. -/
inductive RecvType where
  | add
  | delete
  | reFactory
  | restart
  | devsInfo
  | devAttri
  | ctrl
  | attribute'
deriving DecidableEq, Repr

def RecvType.text : RecvType → CText
  | add => "Add".toList
  | delete => "Delete".toList
  | reFactory => "ReFactory".toList
  | restart => "Restart".toList
  | devsInfo => strDevsInfo
  | devAttri => "DevAttri".toList
  | ctrl => "Ctrl".toList
  | attribute' => strAttribute

/-- `findStrIndex(.., hylink_recv_type, ..)`. -/
def findRecvType (t : CText) : Option RecvType :=
  [RecvType.add, .delete, .reFactory, .restart, .devsInfo, .devAttri, .ctrl, .attribute'].find?
    fun r => r.text == t

/-- A device the gateway lists is taken into the map as it is listed. -/
def recvDevsInfo (s : Process) (arraySub : Json) : Except Fault Process :=
  match arraySub.getObjectItem strModelId, arraySub.getObjectItem strDeviceId with
  | some modelidJson, some devidJson => do
    let hyDev ← newDev (← valuestring devidJson) (← valuestring modelidJson) []
    return ({ s with hyMap := hylinkListAdd s.hyMap hyDev }).call
      (.dispatch hyDev.DeviceId (some hyDev.ModelId) none none)
  | _, _ => return s

/-- What the `switch` does with an element; `none` is `goto fail`. -/
def recvElement (type : RecvType) (s : Process) (arraySub : Json) :
    Except Fault (Option Process) :=
  match type with
  | .add =>
    match arraySub.getObjectItem strKey, arraySub.getObjectItem strValue with
    | some _, some value => do
      let num ← Fault.ofOption (strToNum (← valuestring value))
      return some ((s.call (.networkAccess (.ofInt 8 num))).call .channel)
    | _, _ => return none
  | .delete =>
    match arraySub.getObjectItem strDeviceId with
    | some DeviceId => return some (← hylinkDevLeave profiles s (← valuestring DeviceId))
    | none => return none
  | .reFactory | .restart => return some s
  | .devsInfo => return some (← recvDevsInfo s arraySub)
  | .devAttri =>
    match arraySub.getObjectItem strDeviceId with
    | some DeviceId => return some (s.call (.dispatch (← valuestring DeviceId) none none none))
    | none => return none
  | .ctrl =>
    match arraySub.getObjectItem strDeviceId, arraySub.getObjectItem strKey,
      arraySub.getObjectItem strValue with
    | some DeviceId, some key, some value =>
      return some (s.call (.dispatch (← valuestring DeviceId) none (some (← valuestring key))
        (some (← valuestring value))))
    | _, _, _ => return none
  | .attribute' =>
    match arraySub.getObjectItem strDeviceId, arraySub.getObjectItem strKey with
    | some DeviceId, some key =>
      return some (s.call (.dispatch (← valuestring DeviceId) none (some (← valuestring key))
        none))
    | _, _ => return none

/-- The loop over the elements of `Data`, up to one that fails. -/
def recvElements (type : RecvType) : Process → List Json → Except Fault Process
  | s, [] => return s
  | s, d :: ds => do
    match ← recvElement profiles type s d with
    | some s' => recvElements type s' ds
    | none => return s

/-- `hylinkRecvJson`, from the value of the text on. -/
def hylinkRecvJson (s : Process) (root : Json) : Except Fault Process :=
  match root.getObjectItem strCommand with
  | none => return s
  | some Command => do
    if (← valuestring Command) = strDispatch then
      match root.getObjectItem strType, root.getObjectItem strData with
      | some typeJson, some Data =>
        match typeJson.valuestring?.bind findRecvType with
        | none => return s
        | some .reFactory => return s.call .reset
        | some type => recvElements profiles type s Data.children
      | _, _ => return s
    else return s

end Honyar.TyZigbee
