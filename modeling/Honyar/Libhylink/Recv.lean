import Honyar.Libhylink.Types

/-!
# Messages from the gateway

`hylinkRecvAnaly` (hylinkRecv.c) works through the elements of a report.  What it calls through
`runTransferCb` was registered elsewhere and is a parameter: a call sees the map as it stands
and changes a world of its own.  No such call changes the map.

Between two calls the code holds on to the entry of a device.  Here it holds on to the device's
id, and reading an entry that is gone is a fault.
-/

namespace Honyar.Libhylink

open Hylink

/-- `hylink_report_type`, in its order. -/
inductive ReportType where
  | register
  | unRegister
  | onOff
  | attr
  | event
  | devAttri
  | devsInfo
  | localScene
  | reFactory
deriving DecidableEq, Repr

def ReportType.text : ReportType → CText
  | register => "Register".toList
  | unRegister => "UnRegister".toList
  | onOff => "OnOff".toList
  | attr => "Attribute".toList
  | event => "Event".toList
  | devAttri => "DevAttri".toList
  | devsInfo => "DevsInfo".toList
  | localScene => "LocalScene".toList
  | reFactory => "ReFactory".toList

/-- `findStrIndex(.., hylink_report_type, ..)`. -/
def findReportType (t : CText) : Option ReportType :=
  [ReportType.register, .unRegister, .onOff, .attr, .event, .devAttri, .devsInfo,
    .localScene, .reFactory].find? fun r => r.text == t

def strBeatHeartResponse : CText := "BeatHeartResponse".toList
def strOnline : CText := "Online".toList
def strParams : CText := "Params".toList
def strOp : CText := "Op".toList
def strExecScene : CText := "ExecScene".toList
def strId : CText := "Id".toList

/-- What is called through `runTransferCb` and `runSystemCb`. -/
inductive Transfer where
  /-- `TRANSFER_SUBDEV_LINE`; without an id it is about all devices. -/
  | subdevLine (id : Option CText) (status : BitVec 8)
  /-- `TRANSFER_CLOUD_REPORT` of one attribute, or of all of them (`ATTR_REPORT_ALL`). -/
  | cloudReport (devId : CText) (hyAttr : Option Nat)
  /-- `TRANSFER_DEVATTR`. -/
  | devAttr (devId : CText)
  /-- `TRANSFER_SCENE_REPORT`. -/
  | sceneReport (sceneId : CText)
  /-- `TRANSFER_MQTT_REPORT`. -/
  | mqttReport (json : Json)
  /-- `SYSTEM_RESET`. -/
  | systemReset

/-- What the library is built and linked with: the sign of a `char`, the files under
`HYLINK_PROFILE_PATH`, and the calls that were registered. -/
structure Platform (χ : Type) where
  charSigned : Bool
  hyprofile : CText → Option Json
  transferCb : List HyLinkDev → Transfer → χ → Except Fault χ

/-- The map of devices, and the world of the registered calls. -/
structure HyState (χ : Type) where
  hyMap : List HyLinkDev
  world : χ

variable {χ : Type} (p : Platform χ)

/-- `runTransferCb`. -/
def runTransferCb (s : HyState χ) (t : Transfer) : Except Fault (HyState χ) := do
  return { s with world := ← p.transferCb s.hyMap t s.world }

/-- Follows the pointer to an entry. -/
def entry (s : HyState χ) (id : CText) : Except Fault HyLinkDev :=
  match hylinkListGetById s.hyMap id with
  | some dev => .ok dev
  | none => .error .released

/-- `addProfileDev`, and the calls for a device it made. -/
def addDev (s : HyState χ) (devId modelId : CText) (devAttr : Bool) :
    Except Fault (HyState χ) := do
  let (dev, hyMap) ← addProfileDev p.hyprofile s.hyMap devId modelId
  let s := { s with hyMap := hyMap }
  match dev with
  | none => return s
  | some dev =>
    let s ← runTransferCb p s (.cloudReport dev.devId none)
    if devAttr then runTransferCb p s (.devAttr dev.devId) else return s

/-- A pass of the loop over `Params` in `hylinkAnalyDevInfo`.  Where the update fails, the log
names the attribute of the same index. -/
def updateParam (id : CText) (s : HyState χ) (param : Json × Nat) : Except Fault (HyState χ) := do
  let (dev, res) ← hylinkSubDevAttrUpdate p.charSigned (← entry s id) param.1
  let s := { s with hyMap := hylinkListAdd s.hyMap dev }
  match res with
  | .success _ => return s
  | .repeated | .fail => if param.2 < dev.attr.length then return s else .error .memory

/-- The end of `hylinkAnalyDevInfo`, for a device that was made or changed its line. -/
def updateParams (s : HyState χ) (Data : Json) (id : CText) : Except Fault (HyState χ) := do
  let params := ((Data.getObjectItem strParams).map Json.children).getD []
  let s ← params.zipIdx.foldlM (updateParam p id) s
  let s ← runTransferCb p s (.cloudReport id none)
  runTransferCb p s (.devAttr id)

/-- `hylinkAnalyDevInfo`. -/
def hylinkAnalyDevInfo (s : HyState χ) (Data : Json) : Except Fault (HyState χ) :=
  if hasObjectItem Data strModelId then
    match Data.getObjectItem strDeviceId with
    | none => return s
    | some devidJson => do
      let online ← Fault.ofOption (getByteForJson Data strOnline 0)
      let devId ← valuestring devidJson
      match hylinkListGetById s.hyMap devId with
      | none =>
        if online = subdevOnline then
          let hyModelId ← Fault.ofOption (getStrForJson Data strModelId devIdLen [])
          let (dev, hyMap) ← addProfileDev p.hyprofile s.hyMap devId hyModelId
          match dev with
          | none => return { s with hyMap := hyMap }
          | some dev => updateParams p { s with hyMap := hyMap } Data dev.devId
        else return s
      | some dev =>
        if online = dev.online then return s
        else
          let s := { s with hyMap := hylinkListAdd s.hyMap { dev with online := online } }
          let s ← runTransferCb p s (.subdevLine (some devId) online)
          updateParams p s Data devId
  else return s

/-- The cases 3 to 5 of the `switch`, for a device in the map. -/
def updateAttr (s : HyState χ) (arraySub : Json) (dev : HyLinkDev) : Except Fault (HyState χ) := do
  let mut s := s
  if dev.online = subdevOffline then
    s := { s with hyMap := hylinkListAdd s.hyMap { dev with online := subdevOnline } }
    s ← runTransferCb p s (.subdevLine (some dev.devId) subdevOnline)
    s ← runTransferCb p s (.devAttr dev.devId)
  let (dev', type) ← hylinkSubDevAttrUpdate p.charSigned (← entry s dev.devId) arraySub
  s := { s with hyMap := hylinkListAdd s.hyMap dev' }
  match type with
  | .success i => runTransferCb p s (.cloudReport dev.devId (some i))
  | .repeated | .fail => return s

/-- What the `switch` does with an element. -/
def recvElement (type : ReportType) (arraySub : Json) (s : HyState χ) (hyDevId : CText) :
    Except Fault (HyState χ) :=
  match type, hylinkListGetById s.hyMap hyDevId with
  | .register, none => do
    let hyModelId ← Fault.ofOption (getStrForJson arraySub strModelId devIdLen [])
    addDev p s hyDevId hyModelId false
  | .register, some dev =>
    runTransferCb p { s with hyMap := hylinkListAdd s.hyMap { dev with online := subdevOnline } }
      (.subdevLine (some hyDevId) subdevOnline)
  | .unRegister, none => return s
  | .unRegister, some _ => do
    let s ← runTransferCb p s (.subdevLine (some hyDevId) subdevRestore)
    let dev ← entry s hyDevId
    return { s with hyMap := hylinkListDel s.hyMap dev.devId }
  | .onOff, none => do
    let online ← Fault.ofOption (getByteForJson arraySub strValue 0)
    if online ≠ 0 ∧ hasObjectItem arraySub strModelId then
      let hyModelId ← Fault.ofOption (getStrForJson arraySub strModelId devIdLen [])
      addDev p s hyDevId hyModelId true
    else return s
  | .onOff, some dev => do
    let online ← Fault.ofOption (getByteForJson arraySub strValue 0)
    if online = dev.online then return s
    else
      let online ← Fault.ofOption (getByteForJson arraySub strValue dev.online)
      runTransferCb p { s with hyMap := hylinkListAdd s.hyMap { dev with online := online } }
        (.subdevLine (some hyDevId) online)
  | .attr, some dev | .event, some dev | .devAttri, some dev => updateAttr p s arraySub dev
  | .attr, none | .event, none | .devAttri, none =>
    if hasObjectItem arraySub strModelId then do
      let hyModelId ← Fault.ofOption (getStrForJson arraySub strModelId devIdLen [])
      addDev p s hyDevId hyModelId true
    else return s
  | .devsInfo, _ => hylinkAnalyDevInfo p s arraySub
  | .localScene, _ => do
    let Op ← valuestring (← member arraySub strOp)
    if Op = strExecScene then
      match arraySub.getObjectItem strId with
      | some Id => runTransferCb p s (.sceneReport (← valuestring Id))
      | none => return s
    else return s
  | .reFactory, _ => return s

/-- A pass of the loop over the elements of `Data`; `hyDevId` keeps what the last element put in
it. -/
def recvStep (type : ReportType) (s : HyState χ × CText) (arraySub : Json) :
    Except Fault (HyState χ × CText) := do
  let hyDevId ← Fault.ofOption (getStrForJson arraySub strDeviceId devIdLen s.2)
  return (← recvElement p type arraySub s.1 hyDevId, hyDevId)

/-- `hylinkRecvAnaly`, from the value of the text on: the state, and whether it returns 0. -/
def hylinkRecvAnaly (s : HyState χ) (root : Json) : Except Fault (HyState χ × Bool) :=
  match root.getObjectItem strCommand with
  | none => return (s, false)
  | some Command => do
    let command ← valuestring Command
    if command = strReport then
      match root.getObjectItem strType, root.getObjectItem strData with
      | some typeJson, some Data =>
        match typeJson.valuestring?.bind findReportType with
        | none => return (s, false)
        | some .reFactory => return (← runTransferCb p s .systemReset, false)
        | some type =>
          let (s, _) ← Data.children.foldlM (recvStep p type) (s, [])
          return (← runTransferCb p s (.mqttReport root), true)
      | _, _ => return (s, false)
    else if command = strBeatHeartResponse then
      return (← runTransferCb p s (.mqttReport root), true)
    else return (s, false)

end Honyar.Libhylink
