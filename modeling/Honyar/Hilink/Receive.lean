import Honyar.Hilink.Bridge
import Honyar.Hylink.Stream

/-!
# Messages from the gateway

`recv_toLocal` (local_tcp_client.c) starts `read_from_local` (local_receive.c) behind every 0x02
of a chunk.  Once the list of devices has been asked for three times it returns after the first
message that was accepted.

`read_from_local` looks up the device that the first element of `Data` names.  A registration, a
device that leaves and an online state are taken from this element alone, and the attributes of all
elements are set on its device.
-/

namespace Honyar.Hilink

open Hylink (stx strCommand strReport strType strData strDeviceId strModelId)

def strGatewayId : CText := "GatewayId".toList
def strVersion : CText := "Version".toList
def strOnline : CText := "Online".toList
def strParams : CText := "Params".toList
def strPermitJoining : CText := "PermitJoining".toList
def strBeatHeartResponse : CText := "BeatHeartResponse".toList

/-- `STR_HOST_GATEWAYID`. -/
def hostGatewayId : CText := "0000000000000000".toList

/-- `INT_OFFLINK` and `INT_ONLINK`. -/
def intOffLink : BitVec 8 := 0
def intOnLink : BitVec 8 := 1

/-- `DEV_ONLINE` and `DEV_RESTORE`. -/
def devOnline : Int := 1
def devRestore : Int := 2

/-- The sizes of `DeviceId` and `ModelId`, of `GatewayId`, and of `Version`. -/
def deviceIdLen : Nat := 24
def gatewayIdLen : Nat := 20
def versionLen : Nat := 16

/-- The rest of `dev_local_t`. -/
structure LocalNode extends DevLocal where
  GatewayId : CText
  Version : CText
  Online : BitVec 8

/-- What the bridge passes on. -/
inductive Told where
  /-- `HilinkSyncBrgDevStatus`. -/
  | status (sn : CText) (status : Int)
  /-- `write_delete_dev`. -/
  | deleteDev (sn : CText)
deriving DecidableEq, Repr

/-- The gateway, the lists of both sides, and what was passed on. -/
structure Bridge where
  gateway : LocalNode
  PermitJoining : BitVec 8
  locals : List LocalNode
  clouds : List DevCloud
  told : List Told

/-- How the process ends before a message does. -/
inductive Ended where
  | undefined (cause : Fault)
  /-- `exit`, at the end of `hyLinkSystem`. -/
  | exit
deriving DecidableEq, Repr

/-- What C leaves undefined ends the process. -/
def defined {α : Type} (x : Except Fault α) : Except Ended α := x.mapError .undefined

namespace Bridge

/-- `list_get_by_id_local`. -/
def listGetByIdLocal (s : Bridge) (devid : CText) : Option LocalNode :=
  if devid = hostGatewayId then some s.gateway else s.locals.find? (·.DeviceId = devid)

/-- The device that `list_get_by_id_local` finds is written. -/
def put (s : Bridge) (devid : CText) (dev : LocalNode) : Bridge :=
  if devid = hostGatewayId then { s with gateway := dev }
  else { s with locals := s.locals.modify (s.locals.findIdx (·.DeviceId = devid)) fun _ => dev }

/-- `hyLinkDevStatus`: a panel is told of with its views. -/
def hyLinkDevStatus (s : Bridge) (src : LocalNode) (status : Int) : Bridge :=
  let sns := src.DeviceId ::
    if src.ModelId = hy0134.toList then (List.range 3).map (viewSn src.DeviceId) else []
  { s with told := s.told ++ sns.map fun sn => .status sn status }

/-- `list_del_by_id_cloud`. -/
def listDelByIdCloud (s : Bridge) (devid : CText) : Bridge :=
  { s with clouds := s.clouds.eraseP (·.sn = devid) }

end Bridge

variable (charSigned : Bool)

/-! ## What a message does to a device -/

/-- `local_attribute_update` with data, on a device of the bridge. -/
def attributeUpdate (s : Bridge) (dev : LocalNode) (Data : Json) :
    Except Ended (Option (LocalNode × Bridge)) := do
  match ← defined (localAttributeUpdate charSigned dev.toDevLocal Data s.clouds) with
  | none => return none
  | some (d, clouds) =>
    let dev := { dev with toDevLocal := d }
    let addFlag := (listGetByIdCloud s.clouds dev.DeviceId).isNone
    let s := { s with clouds := clouds }
    return some (dev,
      if addFlag ∧ dev.Online ≠ 0 then s.hyLinkDevStatus dev devOnline else s)

/-- `local_attribute_update` without data. -/
def attributeRegister (dev : LocalNode) : Option LocalNode :=
  (strSearch dev.ModelId localModel).map fun index =>
    { dev with priv := dev.priv.or (Private.zero index) }

/-- The loop of `local_attr_gateway`. -/
def localAttrGateway (PermitJoining : BitVec 8) (Data : Json) : Except Fault (BitVec 8) :=
  Data.children.foldlM (fun c array_sub =>
    match array_sub.getObjectItem strKey with
    | none => return c
    | some Key => do
      if (← valuestring Key) = strPermitJoining then charCopyFromJson array_sub strValue c
      else return c) PermitJoining

/-- A device as `Register` takes it from an element. -/
def registerDev (root : Json) (s : Bridge) (devid : CText) (array_sub : Json) :
    Except Ended Bridge :=
  match s.listGetByIdLocal devid with
  | some _ => return s
  | none => do
    let GatewayId ← defined (strCopyFromJson gatewayIdLen root strGatewayId [])
    let DeviceId ← defined (strCopyFromJson deviceIdLen array_sub strDeviceId [])
    let ModelId ← defined (strCopyFromJson deviceIdLen array_sub strModelId [])
    match attributeRegister ⟨⟨DeviceId, ModelId, none⟩, GatewayId, [], intOnLink⟩ with
    | none => return s
    | some dev => return { s with locals := dev :: s.locals }

/-- `UnRegister`: the gateway is in no list it could be taken from. -/
def unRegisterDev (s : Bridge) (devid : CText) : Except Ended Bridge :=
  match s.listGetByIdLocal devid with
  | none => return s
  | some dev =>
    let s := { s with told := s.told ++ [Told.deleteDev dev.DeviceId] }
    let s := (s.hyLinkDevStatus dev devRestore).listDelByIdCloud devid
    if devid = hostGatewayId then .error (.undefined .memory)
    else return { s with locals := s.locals.eraseP (·.DeviceId = devid) }

/-- `OnOff`. -/
def onOffDev (s : Bridge) (devid : CText) (array_sub : Json) : Except Ended Bridge :=
  match s.listGetByIdLocal devid, array_sub.getObjectItem strKey with
  | some dev, some Key => do
    if (← defined (valuestring Key)) = strOnline then
      let dev := { dev with Online := ← defined (charCopyFromJson array_sub strValue dev.Online) }
      return (s.put devid dev).hyLinkDevStatus dev (Libhylink.charVal charSigned dev.Online)
    else return s
  | _, _ => return s

/-- `Attribute`, `DevAttri` and `Event`. -/
def attributeDev (s : Bridge) (devid : CText) (Data : Json) : Except Ended Bridge :=
  match s.listGetByIdLocal devid with
  | none => return s
  | some dev => do
    let woken := { dev with Online := intOnLink }
    let (dev, s) := if dev.Online = intOffLink then
        (woken, (s.put devid woken).hyLinkDevStatus woken devOnline)
      else (dev, s)
    if dev.DeviceId = hostGatewayId then
      return { s with PermitJoining := ← defined (localAttrGateway s.PermitJoining Data) }
    else
      match ← attributeUpdate charSigned s dev Data with
      | none => return s
      | some (dev, s) => return s.put devid dev

/-- One pass of the loop of `local_load_device_info`. -/
def loadDeviceInfo (root : Json) (Params : Option CText) (s : Bridge) (array_sub : Json) :
    Except Ended Bridge := do
  let devid ← defined (do valuestring (← member array_sub strDeviceId))
  let Data := Params.bind array_sub.getObjectItem
  match s.listGetByIdLocal devid with
  | none => do
    let GatewayId ← defined (strCopyFromJson gatewayIdLen root strGatewayId [])
    let DeviceId ← defined (strCopyFromJson deviceIdLen array_sub strDeviceId [])
    let ModelId ← defined (strCopyFromJson deviceIdLen array_sub strModelId [])
    let Version ← defined (strCopyFromJson versionLen array_sub strVersion [])
    let Online ← defined (charCopyFromJson array_sub strOnline 0)
    let dev : LocalNode := ⟨⟨DeviceId, ModelId, none⟩, GatewayId, Version, Online⟩
    match Data with
    | none => return { s with locals := (attributeRegister dev).toList ++ s.locals }
    | some Data =>
      match ← attributeUpdate charSigned s dev Data with
      | none => return s
      | some (dev, s) => return { s with locals := dev :: s.locals }
  | some dev => do
    if (← defined (do valuestring (← member array_sub strModelId))) = dev.ModelId then
      let Version ← defined (strCopyFromJson versionLen array_sub strVersion dev.Version)
      let Online ← defined (charCopyFromJson array_sub strOnline dev.Online)
      let changed := decide (Online = 1 ∨ Online ≠ dev.Online)
      let dev := { dev with Version := Version, Online := Online }
      let s := s.put devid dev
      if dev.DeviceId = hostGatewayId then
        match Data with
        | none => return s
        | some Data =>
          return { s with PermitJoining := ← defined (localAttrGateway s.PermitJoining Data) }
      else
        let s := if changed then s.hyLinkDevStatus dev (Libhylink.charVal charSigned Online) else s
        match Data with
        | none => return s.put devid ((attributeRegister dev).getD dev)
        | some Data =>
          match ← attributeUpdate charSigned s dev Data with
          | none => return s
          | some (dev, s) => return s.put devid dev
    else return s

/-! ## Messages -/

/-- `s_typeReport`, in its order. -/
inductive LocalType where
  | register
  | unRegister
  | onOff
  | attribute'
  | devAttri
  | event
  | devList
  | devsInfo
  | reFactory
  | cooInfo
  | neighborInfo
  | childrenInfo
  | setSig
  | getSig
  | ack
deriving DecidableEq, Repr

namespace LocalType

def text : LocalType → CText
  | register => "Register".toList
  | unRegister => "UnRegister".toList
  | onOff => "OnOff".toList
  | attribute' => "Attribute".toList
  | devAttri => "DevAttri".toList
  | event => "Event".toList
  | devList => "DevList".toList
  | devsInfo => "DevsInfo".toList
  | reFactory => "ReFactory".toList
  | cooInfo => "CooInfo".toList
  | neighborInfo => "NeighborInfo".toList
  | childrenInfo => "ChildrenInfo".toList
  | setSig => "SetSig".toList
  | getSig => "GetSig".toList
  | ack => "Ack".toList

def all : List LocalType :=
  [register, unRegister, onOff, attribute', devAttri, event, devList, devsInfo, reFactory, cooInfo,
    neighborInfo, childrenInfo, setSig, getSig, ack]

/-- `str_search(.., s_StypeReport.attr, ..)`. -/
def find? (t : CText) : Option LocalType := all.find? fun type => type.text = t

theorem find?_text (type : LocalType) : find? type.text = some type := by
  cases type <;> decide

end LocalType

/-- The `switch` of `read_from_local`.  `devid` is `none` where nothing was copied into it. -/
def readType (s : Bridge) (type : LocalType) (root array_sub Data : Json) (devid : Option CText) :
    Except Ended Bridge :=
  match type with
  | .register => do registerDev root s (← defined (Fault.ofOption devid)) array_sub
  | .unRegister => do unRegisterDev s (← defined (Fault.ofOption devid))
  | .onOff => do onOffDev charSigned s (← defined (Fault.ofOption devid)) array_sub
  | .attribute' | .devAttri | .event => do
    attributeDev charSigned s (← defined (Fault.ofOption devid)) Data
  | .devList => Data.children.foldlM (loadDeviceInfo charSigned root none) s
  | .devsInfo => Data.children.foldlM (loadDeviceInfo charSigned root (some strParams)) s
  | .reFactory => .error .exit
  | .cooInfo | .neighborInfo | .childrenInfo | .setSig | .getSig | .ack => return s

/-- `read_from_local`, from the value of the text on, and whether it returns 0. -/
def readFromLocal (s : Bridge) (root : Json) : Except Ended (Bridge × Bool) :=
  match root.getObjectItem strCommand with
  | none => return (s, false)
  | some Command => do
    -- a command that is neither of the two is reported and goes on as a report does
    if (← defined (valuestring Command)) = strBeatHeartResponse then return (s, true)
    else
      match root.getObjectItem strType, root.getObjectItem strData with
      | some typeJson, some Data => do
        match LocalType.find? (← defined (valuestring typeJson)), Data.children with
        | some type, array_sub :: _ => do
          let devid ← defined (match array_sub.getObjectItem strDeviceId with
            | none => .ok none
            | some obj => do return some (← strcpy deviceIdLen (← valuestring obj)))
          return (← readType charSigned s type root array_sub Data devid, true)
        | _, _ => return (s, false)
      | _, _ => return (s, false)

section

variable {σ J : Type} (read : σ → J → Except Ended (σ × Bool)) (parse : CText → Option J)

/-- `read_from_local`, on a text. -/
def readText (s : σ) (json : CText) : Except Ended (σ × Bool) :=
  match parse json with
  | none => return (s, false)
  | some root => read s root

/-- `recv_toLocal`: the texts it passes on, and what becomes of the state. -/
def recvToLocal (getDevListFlag : Nat) : σ → CText → List CText × Except Ended σ
  | s, [] => ([], .ok s)
  | s, b :: data =>
    if b = stx then
      match readText read parse s data with
      | .error e => ([data], .error e)
      | .ok (s, ret) =>
        if ret ∧ 3 ≤ getDevListFlag then ([data], .ok s)
        else
          let (texts, r) := recvToLocal getDevListFlag s data
          (data :: texts, r)
    else recvToLocal getDevListFlag s data

end

end Honyar.Hilink
