import Honyar.Libhylink.Send

/-!
# Devices of the cloud

The cloud side of a device (cloudLinkListFunc.h): made from a profile of its own when libhylink
first reports the device (`cloudReport`), brought on line, off line or taken away as libhylink
says (`cloudSubDevLink`), and taken away by the cloud itself (`cloudLinkDevDel`).

The calls to the cloud and the write to the gateway are answered from outside: what the `n`-th of
them returns is a parameter.
-/

namespace Honyar.CloudLink

open Hylink Libhylink

/-- `iotx_linkkit_dev_meta_info_t`. -/
structure MetaInfo where
  product_key : CText
  product_secret : CText
  device_name : CText
  device_secret : CText
deriving DecidableEq

/-- `CloudLinkDevAttr`. -/
structure CloudLinkDevAttr where
  hyKey : CText
  hyType : CText
  cloudKey : CText
  valueType : BitVec 8
deriving DecidableEq

/-- `CloudLinkServerAttr`. -/
structure CloudLinkServerAttr where
  serverId : CText
  hyKey : CText
  key : CText
  value : CText
deriving DecidableEq

/-- `CloudLinkEventAttr`. -/
structure CloudLinkEventAttr where
  eventId : CText
  hyKey : CText
  key : CText
  value : BitVec 8
deriving DecidableEq

/-- `CloudLinkDev`. -/
structure CloudLinkDev where
  modelId : CText
  id : Int
  alinkInfo : MetaInfo
  attr : List CloudLinkDevAttr
  serverAttr : List CloudLinkServerAttr
  eventAttr : List CloudLinkEventAttr
deriving DecidableEq

/-- The id of the device it stands for. -/
abbrev CloudLinkDev.device_name (dev : CloudLinkDev) : CText := dev.alinkInfo.device_name

/-- A call whose result comes from outside. -/
inductive RemoteCall where
  /-- `IOT_Linkkit_Open`. -/
  | linkkitOpen (info : MetaInfo)
  /-- `IOT_Linkkit_Connect`. -/
  | connect (devid : Int)
  /-- `IOT_Linkkit_Report` of `ITM_MSG_LOGIN`. -/
  | login (devid : Int)
  /-- `IOT_Linkkit_Report` of `ITM_MSG_LOGOUT`. -/
  | logout (devid : Int)
  /-- `IOT_DevReset_Report`. -/
  | devReset (product_key device_name : CText)
  /-- `IOT_Linkkit_Close`. -/
  | close (devid : Int)
  /-- `TRANSFER_CLIENT_WRITE`. -/
  | write (message : Json)

/-- What is told to the cloud, and the one error `cloudAttrReport` logs. -/
inductive Post where
  /-- `linkkit_user_post_property`. -/
  | property (devid : Int) (payload : Json)
  /-- `user_post_event`; without a payload it posts an empty object. -/
  | event (eventId : CText) (payload : Option Json)
  /-- `reportGateWayInfo`. -/
  | gateWayInfo (device_name product_key : CText) (result : Int)
  /-- "hyLinkDev is null". -/
  | hyLinkDevNull (device_name : CText)

/-- The sign of a `char`, the files under `PROFILE_PATH`, `master_devid`, and the answers from
outside. -/
structure Cloud where
  charSigned : Bool
  profile : CText → Option Json
  master_devid : Int
  answer : Nat → RemoteCall → Int

/-- The map of cloud devices, the calls that were made, and what was told to the cloud. -/
structure CloudState where
  cloudMap : List CloudLinkDev
  calls : List RemoteCall
  posts : List Post

/-- `FAIL_RETURN`. -/
def failReturn : Int := -1

/-! ## Profiles -/

/-- The text of a member that is taken to be there, in an array of `size` bytes. -/
def textMember (size : Nat) (obj : Json) (name : CText) : Except Fault CText := do
  strcpy size (← valuestring (← member obj name))

/-- The text of a member that may be missing. -/
def textMember? (size : Nat) (obj : Json) (name : CText) : Except Fault CText :=
  if hasObjectItem obj name then textMember size obj name else return []

def parseAttr (arraySub : Json) : Except Fault CloudLinkDevAttr := do
  let hyKey ← textMember 33 arraySub "hyKey".toList
  let hyType ← textMember? 8 arraySub "hyType".toList
  let cloudKey ← textMember? 33 arraySub "cloudKey".toList
  let valueType ← member arraySub "valueType".toList
  return ⟨hyKey, hyType, cloudKey, .ofInt 8 valueType.valueint⟩

def parseServerAttr (arraySub : Json) : Except Fault CloudLinkServerAttr := do
  let serverId ← textMember 33 arraySub "serverId".toList
  let hyKey ← textMember 33 arraySub "hyKey".toList
  let key ← textMember 33 arraySub "key".toList
  let value ← textMember 33 arraySub "value".toList
  return ⟨serverId, hyKey, key, value⟩

def parseEventAttr (arraySub : Json) : Except Fault CloudLinkEventAttr := do
  let eventId ← textMember 33 arraySub "eventId".toList
  let hyKey ← textMember 33 arraySub "hyKey".toList
  let key ← textMember 33 arraySub "key".toList
  let value ← member arraySub "value".toList
  return ⟨eventId, hyKey, key, .ofInt 8 value.valueint⟩

/-- Reads an array whose length is kept in a `char`; an empty one is refused. -/
def parseArray {α : Type} (charSigned : Bool) (parse : Json → Except Fault α) (attr : Json) :
    Except Fault (Option (List α)) :=
  let arraySize := attr.children.length
  if arraySize = 0 then return none
  else if charVal charSigned (.ofNat 8 arraySize) = arraySize then
    return some (← attr.children.mapM parse)
  else .error .memory

/-- The same for an array that may be missing. -/
def parseArray? {α : Type} (charSigned : Bool) (parse : Json → Except Fault α) (root : Json)
    (name : CText) : Except Fault (Option (List α)) :=
  match root.getObjectItem name with
  | some attr => parseArray charSigned parse attr
  | none => return some []

/-- `cloudLinkParseJson`, from the value of the text on, but for the entry in the map. -/
def cloudLinkParseJson (charSigned : Bool) (devId : CText) (root : Json) :
    Except Fault (Option CloudLinkDev) :=
  match root.getObjectItem "modelId".toList, root.getObjectItem "productKey".toList,
    root.getObjectItem "productSecret".toList, root.getObjectItem "deviceSecret".toList,
    root.getObjectItem "attr".toList with
  | some modelId, some productKey, some productSecret, some deviceSecret, some attr =>
    if attr.children.length = 0 then return none
    else do
      let modelId ← strcpy 33 (← valuestring modelId)
      let product_key ← strcpy 21 (← valuestring productKey)
      let product_secret ← strcpy 65 (← valuestring productSecret)
      let device_name ← strcpy 33 devId
      let device_secret ← strcpy 65 (← valuestring deviceSecret)
      match ← parseArray charSigned parseAttr attr with
      | none => return none
      | some attr =>
        match ← parseArray? charSigned parseServerAttr root "services".toList with
        | none => return none
        | some serverAttr =>
          match ← parseArray? charSigned parseEventAttr root "events".toList with
          | none => return none
          | some eventAttr =>
            return some ⟨modelId, -1,
              ⟨product_key, product_secret, device_name, device_secret⟩, attr, serverAttr,
              eventAttr⟩
  | _, _, _, _, _ => return none

/-! ## The map -/

/-- `cloudLinkListGetById`. -/
def cloudLinkListGetById (cloudMap : List CloudLinkDev) (id : CText) : Option CloudLinkDev :=
  cloudMap.find? (·.device_name = id)

/-- `cloudLinkListGetBySn`: the first entry, in the order of the map, with that id. -/
def cloudLinkListGetBySn (cloudMap : List CloudLinkDev) (sn : Int) : Option CloudLinkDev :=
  cloudMap.find? (·.id = sn)

/-- `cloudLinkListAdd`, and any writing to an entry. -/
def cloudLinkListAdd (cloudMap : List CloudLinkDev) (dev : CloudLinkDev) : List CloudLinkDev :=
  Store.put CloudLinkDev.device_name dev cloudMap

/-- `cloudLinkListDelDev`, by the name of the device. -/
def cloudLinkListDelDev (cloudMap : List CloudLinkDev) (name : CText) : List CloudLinkDev :=
  Store.remove CloudLinkDev.device_name name cloudMap

variable (k : Cloud)

/-- A call to the outside. -/
def call (w : CloudState) (c : RemoteCall) : Int × CloudState :=
  (k.answer w.calls.length c, { w with calls := w.calls ++ [c] })

/-- `cloudLinkDev->id` is set. -/
def setId (w : CloudState) (dev : CloudLinkDev) (id : Int) : CloudState :=
  { w with cloudMap := cloudLinkListAdd w.cloudMap { dev with id := id } }

/-! ## Reports -/

/-- What `cloudSingleEventReport` posts: nothing for an event whose value is 0. -/
def cloudSingleEventReport (hyAttr : HyLinkDevAttr) (cloudLinkDev : CloudLinkDev) : List Post :=
  match cloudLinkDev.eventAttr.find? (·.hyKey = hyAttr.hyKey) with
  | none => []
  | some e =>
    if hyAttr.value = .enum 0 ∨ hyAttr.value = .num 0 then []
    else
      [.event e.eventId
        (if e.key = [] then none else generateCloudJson k.charSigned e.key hyAttr.value)]

/-- What `cloudSingleAttrReport` posts. -/
def cloudSingleAttrReport (hyAttr : HyLinkDevAttr) (cloudLinkDev : CloudLinkDev) : List Post :=
  match cloudLinkDev.attr.find? (·.hyKey = hyAttr.hyKey) with
  | none => cloudSingleEventReport k hyAttr cloudLinkDev
  | some a =>
    ((generateCloudJson k.charSigned a.cloudKey hyAttr.value).map
      (Post.property cloudLinkDev.id)).toList ++ cloudSingleEventReport k hyAttr cloudLinkDev

/-- `cloudAttrReport`, of one attribute or of all. -/
def cloudAttrReport (hyMap : List HyLinkDev) (cloudLinkDev : CloudLinkDev) (hyAttr : Option Nat)
    (w : CloudState) : Except Fault CloudState :=
  match hylinkListGetById hyMap cloudLinkDev.device_name with
  | none => return { w with posts := w.posts ++ [.hyLinkDevNull cloudLinkDev.device_name] }
  | some hyLinkDev =>
    match hyAttr with
    | none =>
      return { w with posts := w.posts ++
        hyLinkDev.attr.flatMap fun a => cloudSingleAttrReport k a cloudLinkDev }
    | some i =>
      match hyLinkDev.attr[i]? with
      | none => .error .memory
      | some a => return { w with posts := w.posts ++ cloudSingleAttrReport k a cloudLinkDev }

/-! ## The line of a device -/

/-- `linkkit_subdev_status`: what it returns, and the state with the id it leaves. -/
def linkkitSubdevStatus (dev : CloudLinkDev) (status : BitVec 8) (w : CloudState) :
    Int × CloudState :=
  if dev.id = k.master_devid then (-1, w)
  else if status = subdevOffline then
    if dev.id < 0 then (-1, w)
    else
      let (res, w) := call k w (.logout dev.id)
      if res = failReturn then (res, w) else (res, setId w dev (-1))
  else if status = subdevOnline then
    let (devid, w) := call k w (.linkkitOpen dev.alinkInfo)
    if devid = failReturn then (-1, w)
    else
      let w := setId w dev devid
      let (res, w) := call k w (.connect devid)
      if res = failReturn then (res, w)
      else
        let (res, w) := call k w (.login devid)
        if res = failReturn then (res, w) else (0, w)
  else if status = subdevRestore then
    let (res, w) := call k w (.devReset dev.alinkInfo.product_key dev.device_name)
    if res = failReturn then (res, w)
    else if dev.id < 0 then (res, w)
    else
      let (res, w) := call k w (.close dev.id)
      (res, setId w dev (-1))
  else (-1, w)

/-- `cloudSubDevStatus`, for the entry of a name: what it returns, and the state. -/
def cloudSubDevStatus (hyMap : List HyLinkDev) (name : CText) (status : BitVec 8)
    (w : CloudState) : Except Fault (Int × CloudState) :=
  match cloudLinkListGetById w.cloudMap name with
  | none => return (-1, w)
  | some dev =>
    match hylinkListGetById hyMap dev.device_name with
    | none => .error .missing
    | some _ => do
      let (res, w) := linkkitSubdevStatus k dev status w
      if res < 0 then return (res, w)
      else if status = subdevRestore then
        return (0, { w with cloudMap := cloudLinkListDelDev w.cloudMap dev.device_name })
      else if status = subdevOnline then
        match cloudLinkListGetById w.cloudMap name with
        | none => .error .released
        | some dev =>
          let w ← cloudAttrReport k hyMap dev none w
          return (0, { w with posts := w.posts ++
            [.gateWayInfo dev.device_name dev.alinkInfo.product_key res] })
      else return (0, w)

/-- `cloudSubDevLink`: for one device, or for all that are in the map. -/
def cloudSubDevLink (hyMap : List HyLinkDev) (id : Option CText) (status : BitVec 8)
    (w : CloudState) : Except Fault (Int × CloudState) :=
  match id with
  | none => do
    let names := w.cloudMap.map CloudLinkDev.device_name
    return (0, ← names.foldlM
      (fun w name => do return (← cloudSubDevStatus k hyMap name status w).2) w)
  | some devId => cloudSubDevStatus k hyMap devId status w

/-- `addProfileDev(PROFILE_PATH, devId, modelId, cloudLinkParseJson)`. -/
def addCloudDev (devId modelId : CText) (w : CloudState) :
    Except Fault (Option CloudLinkDev × CloudState) :=
  match k.profile modelId with
  | none => return (none, w)
  | some root => do
    match ← cloudLinkParseJson k.charSigned devId root with
    | none => return (none, w)
    | some dev => return (some dev, { w with cloudMap := cloudLinkListAdd w.cloudMap dev })

/-- `cloudReport`. -/
def cloudReport (hyMap : List HyLinkDev) (devId : CText) (hyAttr : Option Nat) (w : CloudState) :
    Except Fault CloudState :=
  match hylinkListGetById hyMap devId with
  | none => .error .released
  | some hyLinkDev =>
    match cloudLinkListGetById w.cloudMap hyLinkDev.devId with
    | none => do
      let (dev, w) ← addCloudDev k hyLinkDev.devId hyLinkDev.modelId w
      match dev with
      | none => return w
      | some dev =>
        if hyLinkDev.online = subdevOnline then
          return (← cloudSubDevLink k hyMap (some dev.device_name) hyLinkDev.online w).2
        else return w
    | some dev =>
      if hyLinkDev.online = subdevOnline then cloudAttrReport k hyMap dev hyAttr w
      else return w

/-- `hylinkDispatch`. -/
def dispatch (d : HylinkDevSendData) (w : CloudState) : Int × CloudState :=
  call k w (.write d.json)

/-- The calls `cloudLinkOpen` and `hylinkOpen` register.  No call is registered for
`TRANSFER_MQTT_REPORT`.  `systemReset` takes all devices away, and the process ends. -/
def transferCb (hyMap : List HyLinkDev) (t : Transfer) (w : CloudState) :
    Except Fault CloudState :=
  match t with
  | .subdevLine id status => return (← cloudSubDevLink k hyMap id status w).2
  | .cloudReport devId hyAttr => cloudReport k hyMap devId hyAttr w
  | .devAttr devId => return (dispatch k (← hylinkSendDevAttr devId) w).2
  | .sceneReport sceneId =>
    return { w with posts := w.posts ++
      [.event "ReportScene".toList (some (.object [("SceneId".toList, .string sceneId)]))] }
  | .mqttReport _ => return w
  | .systemReset => return (← cloudSubDevLink k hyMap none subdevRestore w).2

/-- libhylink as the cloud side links it. -/
def platform (hyprofile : CText → Option Json) : Platform CloudState where
  charSigned := k.charSigned
  hyprofile := hyprofile
  transferCb := transferCb k

/-- `hylinkDelDev`: the device goes when the message could be written. -/
def hylinkDelDev (sn : CText) (s : HyState CloudState) :
    Except Fault (Int × HyState CloudState) := do
  let (ret, w) := dispatch k (← hylinkDelDevData sn) s.world
  return (ret, ⟨if 0 ≤ ret then hylinkListDel s.hyMap sn else s.hyMap, w⟩)

/-- `cloudLinkDevDel`. -/
def cloudLinkDevDel (sn : CText) (s : HyState CloudState) :
    Except Fault (Int × HyState CloudState) :=
  match cloudLinkListGetById s.world.cloudMap sn with
  | none => return (-1, s)
  | some dev => do
    let (_, w) ← cloudSubDevLink k s.hyMap (some dev.device_name) subdevRestore s.world
    hylinkDelDev k sn { s with world := w }

/-- `cloudLinkCtrl`, with the value of the text, if it is one: what it returns, and the state. -/
def cloudLinkCtrl (sn : Int) (payload : Option Json) (w : CloudState) :
    Except Fault (Int × CloudState) :=
  match cloudLinkListGetBySn w.cloudMap sn with
  | none => return (-1, w)
  | some dev =>
    match payload with
    | none => return (-1, w)
    | some root =>
      match dev.attr.find? fun a => hasObjectItem root a.cloudKey with
      | none => return (-1, w)
      | some a => do
        let data ← hyCloudCtrlSend dev.device_name dev.modelId a.hyType a.hyKey root a.cloudKey
        return dispatch k data w

end Honyar.CloudLink
