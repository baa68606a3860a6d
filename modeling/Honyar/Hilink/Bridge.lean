import Honyar.Hilink.Types

/-!
# Commands and reports

A command of the cloud is turned into a message for the device (`cloud_tolocal`), and what a
device reports is kept in its fields (`local_attribute_update`) and turned into the values of its
services (`cloud_get_attr`).

The values are kept here; what of them is passed on to the HiLink SDK is not followed.  A model
index outside the tables, or a text too long for its array, is a fault.
-/

namespace Honyar.Hilink

open Libhylink (charVal)

/-! ## Commands -/

/-- `local_dev_t`. -/
structure LocalDev where
  FrameNumber : Int
  type : CText
  DeviceId : CText
  ModelId : CText
  Key : CText
  Value : CText
deriving DecidableEq, Repr

/-- `getValue_FromJson`, into `Value`. -/
def getValueFromJson (val : Json) : Except Fault CText :=
  match val.valuestring? with
  | some t => strcpy 16 t
  | none => strcpy 16 (CText.ofInt val.valueint)

/-- A member with a text, unless it is empty. -/
def member? (name t : CText) : List (CText × Json) := if t = [] then [] else [(name, .string t)]

/-- `write_to_local`: the message. -/
def writeToLocal (dev : LocalDev) : Except Fault Json := do
  let str ← strcpy 3 (CText.ofInt dev.FrameNumber)
  return .object [("Command".toList, .string "Dispatch".toList),
    ("FrameNumber".toList, .string str), ("Type".toList, .string dev.type),
    ("Data".toList, .array [.object (member? "DeviceId".toList dev.DeviceId ++
      member? "ModelId".toList dev.ModelId ++ member? strKey dev.Key ++
      member? strValue dev.Value)])]

/-- The first of some members that is there. -/
def firstItem (root : Json) (names : List CText) : Option Json :=
  names.findSome? root.getObjectItem

/-- The key the tables give for a service; `none` is `goto fail`. -/
def keyOf (modelIndex : Nat) (svcId : CText) : Option CText :=
  match strSearch svcId (cloudAttr modelIndex) with
  | some index => (localAttr modelIndex)[index]?
  | none =>
    if modelIndex = 5 ∨ modelIndex = 6 then
      if svcId = "switch".toList then some "Switch_All".toList else some []
    else none

/-- What the `switch` makes of the model: the device id, the key and the value; `none` is
`goto fail`. -/
def commandOf (modelIndex : Nat) (DeviceId Key svcId : CText) (root : Json) :
    Option (CText × CText × Json) :=
  match modelIndex with
  | 0 | 1 | 2 | 4 | 5 | 6 => (firstItem root [strOn, strMode]).map (DeviceId, Key, ·)
  | 3 => (firstItem root [strOn, strBrightness, strColorTemperature]).map (DeviceId, Key, ·)
  | 8 =>
    (root.getObjectItem strName).map (DeviceId,
      "SceName_".toList ++ CText.ofInt ((strSearch svcId (cloudAttr 8)).elim (-1) Int.ofNat), ·)
  | 9 => (firstItem root [strOn, strTarget]).map (DeviceId.dropLast, Key, ·)
  | 10 => (firstItem root [strOn, strMode, strTarget, strGear]).map (DeviceId.dropLast, Key, ·)
  | 11 =>
    match root.getObjectItem strOn, root.getObjectItem strGear with
    | some val, _ => some (DeviceId.dropLast, "Switch_2".toList, val)
    | none, some val => some (DeviceId.dropLast, "WindSpeed_2".toList, val)
    | none, none => none
  | _ => none

/-- `cloud_tolocal`: the message it writes, if it writes one. -/
def cloudToLocal (frameNumber : Int) (clouds : List DevCloud) (sn svcId : CText) (root : Json) :
    Except Fault (Option LocalDev) :=
  match listGetByIdCloud clouds sn with
  | none => return none
  | some dev => do
    let DeviceId ← strcpy 24 sn
    let modelIndex ← Fault.ofOption (strSearch dev.prodId cloudModel)
    let ModelId ← Fault.ofOption localModel[modelIndex]?
    match keyOf modelIndex svcId with
    | none => return none
    | some Key =>
      match commandOf modelIndex DeviceId Key svcId root with
      | none => return none
      | some (DeviceId, Key, val) => do
        let out := ⟨frameNumber, "Ctrl".toList, DeviceId, ModelId, Key,
          ← getValueFromJson val⟩
        let _ ← writeToLocal out
        return some out

/-! ## Fields a report sets -/

/-- `char_copy_from_json`. -/
def charCopyFromJson (json : Json) (src : CText) (dst : BitVec 8) : Except Fault (BitVec 8) :=
  match json.getObjectItem src with
  | none => return dst
  | some obj => do return .ofInt 8 (CText.atoi (← valuestring obj))

/-- `int_copy_from_json`. -/
def intCopyFromJson (json : Json) (src : CText) (dst : BitVec 32) : Except Fault (BitVec 32) :=
  match json.getObjectItem src with
  | none => return dst
  | some obj => do return .ofInt 32 (CText.atoi (← valuestring obj))

/-- `str_copy_from_json`, into an array of `size` bytes. -/
def strCopyFromJson (size : Nat) (json : Json) (src dst : CText) : Except Fault CText :=
  match json.getObjectItem src with
  | none => return dst
  | some obj => do strcpy size (← valuestring obj)

/-- The field at a position of the local table, and how it is written. -/
def DevSwitch.out {n : Nat} (dev : DevSwitch n) (index_sub : Nat) :
    Option (BitVec 8 × (BitVec 8 → DevSwitch n)) :=
  if h : index_sub < n then
    some (dev.Switch ⟨index_sub, h⟩,
      fun c => { dev with Switch := Function.update dev.Switch ⟨index_sub, h⟩ c })
  else if index_sub = n then some (dev.LedEnable, fun c => { dev with LedEnable := c })
  else if index_sub = n + 1 then
    some (dev.PowerOffProtection, fun c => { dev with PowerOffProtection := c })
  else none

def DevModule.out {n : Nat} (dev : DevModule n) (index_sub : Nat) :
    Option (BitVec 8 × (BitVec 8 → DevModule n)) :=
  if index_sub = n + 2 then some (dev.KeyMode, fun c => { dev with KeyMode := c })
  else (dev.toDevSwitch.out index_sub).map fun (c, write) =>
    (c, fun c => { dev with toDevSwitch := write c })

def DevHY0093.out (dev : DevHY0093) : Nat → Option (BitVec 8 × (BitVec 8 → DevHY0093))
  | 0 => some (dev.ContactAlarm, fun c => { dev with ContactAlarm := c })
  | 1 => some (dev.BatteryPercentage, fun c => { dev with BatteryPercentage := c })
  | 2 => some (dev.LowBatteryAlarm, fun c => { dev with LowBatteryAlarm := c })
  | 3 => some (dev.TamperAlarm, fun c => { dev with TamperAlarm := c })
  | _ => none

def DevHY0134.out (dev : DevHY0134) : Nat → Option (BitVec 8 × (BitVec 8 → DevHY0134))
  | 0 => some (dev.CurrentTemperature, fun c => { dev with CurrentTemperature := c })
  | 1 => some (dev.Switch 0, fun c => { dev with Switch := Function.update dev.Switch 0 c })
  | 2 => some (dev.Switch 1, fun c => { dev with Switch := Function.update dev.Switch 1 c })
  | 3 => some (dev.Switch 2, fun c => { dev with Switch := Function.update dev.Switch 2 c })
  | 4 => some (dev.WindSpeed 0,
      fun c => { dev with WindSpeed := Function.update dev.WindSpeed 0 c })
  | 5 => some (dev.WindSpeed 1,
      fun c => { dev with WindSpeed := Function.update dev.WindSpeed 1 c })
  | 6 => some (dev.TargetTemperature 0,
      fun c => { dev with TargetTemperature := Function.update dev.TargetTemperature 0 c })
  | 7 => some (dev.TargetTemperature 1,
      fun c => { dev with TargetTemperature := Function.update dev.TargetTemperature 1 c })
  | 8 => some (dev.WorkMode, fun c => { dev with WorkMode := c })
  | 9 => some (dev.Enable 0, fun c => { dev with Enable := Function.update dev.Enable 0 c })
  | 10 => some (dev.Enable 1, fun c => { dev with Enable := Function.update dev.Enable 1 c })
  | 11 => some (dev.Enable 2, fun c => { dev with Enable := Function.update dev.Enable 2 c })
  | 12 => some (dev.KeyFobValue, fun c => { dev with KeyFobValue := c })
  | _ => none

/-- The fields of `dev_09223f_t` that are one byte. -/
def Dev09223f.out (dev : Dev09223f) : Nat → Option (BitVec 8 × (BitVec 8 → Dev09223f))
  | 1 => some (dev.Luminance, fun c => { dev with Luminance := c })
  | 2 => some (dev.Switch, fun c => { dev with Switch := c })
  | _ => none

def Private.out (p : Private) (index_sub : Nat) : Option (BitVec 8 × (BitVec 8 → Private)) :=
  match p with
  | .hy0095 dev => (dev.out index_sub).map fun (c, write) => (c, .hy0095 ∘ write)
  | .hy0096 dev => (dev.out index_sub).map fun (c, write) => (c, .hy0096 ∘ write)
  | .hy0097 dev => (dev.out index_sub).map fun (c, write) => (c, .hy0097 ∘ write)
  | .d09223f dev => (dev.out index_sub).map fun (c, write) => (c, .d09223f ∘ write)
  | .hy0121 dev => (dev.out index_sub).map fun (c, write) => (c, .hy0121 ∘ write)
  | .hy0122 dev => (dev.out index_sub).map fun (c, write) => (c, .hy0122 ∘ write)
  | .hy0107 dev => (dev.out index_sub).map fun (c, write) => (c, .hy0107 ∘ write)
  | .hy0093 dev => (dev.out index_sub).map fun (c, write) => (c, .hy0093 ∘ write)
  | .hy0134 dev => (dev.out index_sub).map fun (c, write) => (c, .hy0134 ∘ write)

/-- The number behind the first `num_pos` characters of a key, less one: an index into an array
of 12. -/
def posOf (num_pos : Nat) (key : CText) : Except Fault (Option (Fin 12)) :=
  if key.length < num_pos then .error .memory
  else
    let pos := CText.atoi (key.drop num_pos) - 1
    if h : 0 ≤ pos ∧ pos < 12 then return some ⟨pos.toNat, by omega⟩ else return none

/-- What a report of one attribute does to the fields: `index_sub` is its position in the local
table. -/
def Private.set (p : Private) (index_sub : Nat) (key : CText) (array_sub : Json) :
    Except Fault Private :=
  match p, index_sub with
  | .d09223f dev, 0 => do
    return .d09223f { dev with
      ColorTemperature := ← intCopyFromJson array_sub strValue dev.ColorTemperature }
  | .hy0134 dev, 13 => do
    match ← posOf "SceName_".toList.length key with
    | none => return .hy0134 dev
    | some pos =>
      let name ← strCopyFromJson 18 array_sub strValue (dev.SceName pos)
      return .hy0134 { dev with SceName := Function.update dev.SceName pos name }
  | .hy0134 dev, 14 => do
    match ← posOf "ScePhoto_".toList.length key with
    | none => return .hy0134 dev
    | some pos =>
      let photo ← charCopyFromJson array_sub strValue (dev.ScePhoto pos)
      return .hy0134 { dev with ScePhoto := Function.update dev.ScePhoto pos photo }
  | p, index_sub =>
    match p.out index_sub with
    | none => return p
    | some (c, write) => do return write (← charCopyFromJson array_sub strValue c)

/-! ## Values of services -/

section

variable (charSigned : Bool)

/-- The values `cloud_get_attr` makes of the switches and of the indicator. -/
def DevSwitch.vals {n : Nat} (dev : DevSwitch n) : List SvcVal :=
  (List.finRange n).map (fun i => intVal strOn (charVal charSigned (dev.Switch i))) ++
    [intVal strMode (charVal charSigned dev.LedEnable)]

def Dev09223f.vals (dev : Dev09223f) : List SvcVal :=
  [intVal strColorTemperature dev.ColorTemperature.toInt,
    intVal strBrightness (charVal charSigned dev.Luminance),
    intVal strOn (charVal charSigned dev.Switch)]

/-- Values are written one after another, each at its position. -/
def modSvcs (out : CText) (vals : List (Nat × SvcVal)) (clouds : List DevCloud) :
    Except Fault (List DevCloud) :=
  vals.foldlM (fun clouds v => modSvc out v.1 v.2 clouds) clouds

/-- The `switch` over `index_sub` in most models: the value at its position, or else all. -/
def updateVals (vals : List SvcVal) (index_sub : Option Nat) (out : CText)
    (clouds : List DevCloud) : Except Fault (List DevCloud) :=
  match index_sub with
  | some i =>
    match vals[i]? with
    | some v => modSvc out i v clouds
    | none => modSvcs out (vals.zipIdx.map Prod.swap) clouds
  | none => modSvcs out (vals.zipIdx.map Prod.swap) clouds

/-- `cloud_get_attr` for the door sensor. -/
def DevHY0093.getAttr (dev : DevHY0093) (out : CText) (clouds : List DevCloud) :
    Except Fault (DevHY0093 × List DevCloud) := do
  let cloud ← Fault.ofOption (listGetByIdCloud clouds out)
  let svc ← Fault.ofOption cloud.devSvc[0]?
  let dev :=
    if svc.svcVal = none then { dev with init_ContactAlarm := dev.ContactAlarm, door_event := 0xff }
    -- A signed byte is never 0xff.
    else if ¬ charSigned ∧ dev.door_event = 0xff then
      if dev.init_ContactAlarm ≠ dev.ContactAlarm then { dev with door_event := dev.ContactAlarm }
      else dev
    else { dev with door_event := dev.ContactAlarm }
  let clouds ← modSvc out 0 (intVal strOn (charVal charSigned dev.door_event)) clouds
  let clouds ← modSvc out 1 (intVal strStatus (charVal charSigned dev.ContactAlarm)) clouds
  return (dev, clouds)

/-- A text of the source, by its bytes. -/
def bytes (bs : List Nat) : CText := bs.map Char.ofNat

/-- `sc_sceName`. -/
def sceName : List CText :=
  [bytes [0xe5, 0x9b, 0x9e, 0xe5, 0xae, 0xb6], bytes [0xe7, 0xa6, 0xbb, 0xe5, 0xae, 0xb6],
    bytes [0xe4, 0xbc, 0x9a, 0xe5, 0xae, 0xa2], bytes [0xe5, 0xbd, 0xb1, 0xe9, 0x9f, 0xb3],
    bytes [0xe5, 0x85, 0xa8, 0xe5, 0xbc, 0x80], bytes [0xe5, 0x85, 0xa8, 0xe5, 0x85, 0xb3]]

/-- The names of the other reports, with their number. -/
def sceNumber : List CText :=
  (List.range 6).map fun i => bytes [0xe5, 0x9c, 0xba, 0xe6, 0x99, 0xaf] ++ CText.ofInt (i + 1)

/-- The scenes that have no name get one. -/
def DevHY0134.withNames (names : List CText) (dev : DevHY0134) : DevHY0134 :=
  { dev with SceName := fun i =>
      if dev.SceName i = [] then (names[i.val]?).getD [] else dev.SceName i }

/-- The values of the names, from the second service on. -/
def DevHY0134.nameVals (dev : DevHY0134) : List (Nat × SvcVal) :=
  (List.finRange 6).map fun i => (i.val + 1, strVal strName (dev.SceName (i.castLE (by decide))))

/-- `s_sCloudHY0134Temperature`. -/
def temperatureVal (current target : BitVec 8) : SvcVal :=
  [(strCurrent, .num (charVal charSigned current)), (strTarget, .num (charVal charSigned target))]

/-- The values of the services of the panel and of its views. -/
def DevHY0134.vals (dev : DevHY0134) : Nat → List SvcVal
  | 8 => intVal strNum (charVal charSigned dev.KeyFobValue) :: dev.nameVals.map Prod.snd
  | 9 => [intVal strOn (charVal charSigned (dev.Switch 2)),
      temperatureVal charSigned dev.CurrentTemperature (dev.TargetTemperature 1)]
  | 10 => [intVal strOn (charVal charSigned (dev.Switch 0)),
      temperatureVal charSigned dev.CurrentTemperature (dev.TargetTemperature 0),
      intVal strMode (charVal charSigned dev.WorkMode),
      intVal strGear (charVal charSigned (dev.WindSpeed 0))]
  | 11 => [intVal strOn (charVal charSigned (dev.Switch 1)),
      intVal strGear (charVal charSigned (dev.WindSpeed 1))]
  | _ => []

/-- What is written to the `j`-th view of the panel, and whether `goto update` ends it there. -/
def DevHY0134.viewVals (dev : DevHY0134) (j : Fin 3) (index_sub : Option Nat) :
    List (Nat × SvcVal) × Bool :=
  let switch (i : Fin 3) := intVal strOn (charVal charSigned (dev.Switch i))
  let temperature (i : Fin 2) :=
    temperatureVal charSigned dev.CurrentTemperature (dev.TargetTemperature i)
  let gear (i : Fin 2) := intVal strGear (charVal charSigned (dev.WindSpeed i))
  let mode := intVal strMode (charVal charSigned dev.WorkMode)
  match j with
  | 0 =>
    match index_sub with
    | some 3 => ([(0, switch 2)], true)
    | some 0 => ([(1, temperature 1)], false)
    | some 7 => ([(1, temperature 1)], true)
    | _ => ([(0, switch 2), (1, temperature 1)], false)
  | 1 =>
    match index_sub with
    | some 1 => ([(0, switch 0)], true)
    | some 0 => ([(1, temperature 0)], false)
    | some 6 => ([(1, temperature 0)], true)
    | some 8 => ([(2, mode)], true)
    | some 4 => ([(3, gear 0)], true)
    | _ => ([(0, switch 0), (1, temperature 0), (2, mode), (3, gear 0)], false)
  | 2 =>
    match index_sub with
    | some 2 => ([(0, switch 1)], true)
    | some 5 => ([(1, gear 1)], true)
    | _ => ([(0, switch 1), (1, gear 1)], false)

/-- The serial number of the `j`-th view of a panel. -/
def viewSn (DeviceId : CText) (j : Nat) : CText := DeviceId ++ CText.ofInt j

/-- The loop over the views, each of which is added if it is not there. -/
def DevHY0134.getViews (dev : DevHY0134) (index : Nat) (index_sub : Option Nat)
    (DeviceId : CText) : List (Fin 3) → List DevCloud → Except Fault (List DevCloud)
  | [], clouds => return clouds
  | j :: js, clouds => do
    let sn := viewSn DeviceId j
    let clouds := if (listGetByIdCloud clouds sn).isSome then clouds
      else cloudAddDevice (index + j + 1) sn clouds
    let (vals, done) := dev.viewVals charSigned j index_sub
    let clouds ← modSvcs sn vals clouds
    if done then return clouds else dev.getViews index index_sub DeviceId js clouds

/-- `cloud_get_attr` for the panel: its own services, and then those of its views. -/
def DevHY0134.getAttr (dev : DevHY0134) (index : Nat) (index_sub : Option Nat) (out : CText)
    (clouds : List DevCloud) : Except Fault (DevHY0134 × List DevCloud) :=
  let num := intVal strNum (charVal charSigned dev.KeyFobValue)
  match index_sub with
  | some 12 => do
    let clouds ← modSvc out 0 num clouds
    return ({ dev with KeyFobValue := 0 }, clouds)
  | some 13 => do
    let dev := dev.withNames sceName
    let clouds ← modSvcs out dev.nameVals clouds
    return (dev, clouds)
  | _ => do
    let clouds ← modSvc out 0 num clouds
    let dev := { dev with KeyFobValue := 0 }.withNames sceNumber
    let clouds ← modSvcs out dev.nameVals clouds
    let clouds ← dev.getViews charSigned index index_sub out (List.finRange 3) clouds
    return (dev, clouds)

/-- `cloud_get_attr`, with the device of its last argument named by its serial number. -/
def cloudGetAttr (src : Private) (index : Nat) (index_sub : Option Nat) (out : CText)
    (clouds : List DevCloud) : Except Fault (Private × List DevCloud) := do
  match src with
  | .hy0095 dev => return (src, ← updateVals (dev.vals charSigned) index_sub out clouds)
  | .hy0096 dev => return (src, ← updateVals (dev.vals charSigned) index_sub out clouds)
  | .hy0097 dev => return (src, ← updateVals (dev.vals charSigned) index_sub out clouds)
  | .d09223f dev => return (src, ← updateVals (dev.vals charSigned) index_sub out clouds)
  | .hy0121 dev => return (src, ← updateVals (dev.vals charSigned) index_sub out clouds)
  | .hy0122 dev => return (src, ← updateVals (dev.vals charSigned) index_sub out clouds)
  | .hy0107 dev => return (src, ← updateVals (dev.vals charSigned) index_sub out clouds)
  | .hy0093 dev =>
    let (dev, clouds) ← dev.getAttr charSigned out clouds
    return (.hy0093 dev, clouds)
  | .hy0134 dev =>
    let (dev, clouds) ← dev.getAttr charSigned index index_sub out clouds
    return (.hy0134 dev, clouds)

/-- `local_tocloud`. -/
def localToCloud (src : Private) (index : Nat) (devAttr : Option Nat) (DeviceId : CText)
    (clouds : List DevCloud) : Except Fault (Private × List DevCloud) :=
  let clouds := if (listGetByIdCloud clouds DeviceId).isSome then clouds
    else cloudAddDevice index DeviceId clouds
  cloudGetAttr charSigned src index devAttr DeviceId clouds

/-! ## Reports -/

/-- The position of a reported key in the local table of a model. -/
def indexSub (index : Nat) (key : CText) : Option Nat :=
  match strSearch key (localAttr index) with
  | some index_sub => some index_sub
  | none => if index = hy0134Index then strnSearch key (localAttr index) 8 else none

/-- One pass of the loop of `local_attribute_update`. -/
def updateAttr (index : Nat) (s : Private × Option Nat) (array_sub : Json) :
    Except Fault (Private × Option Nat) := do
  let key ← valuestring (← member array_sub strKey)
  match indexSub index key with
  | none => return (s.1, none)
  | some index_sub => return (← s.1.set index_sub key array_sub, some index_sub)

/-- `local_attribute_update` with data: the device and the devices of the cloud; `none` when it
fails. -/
def localAttributeUpdate (dev : DevLocal) (Data : Json) (clouds : List DevCloud) :
    Except Fault (Option (DevLocal × List DevCloud)) :=
  match strSearch dev.ModelId localModel with
  | none => return none
  | some index => do
    let priv ← Fault.ofOption (dev.priv.or (Private.zero index))
    let (priv, index_sub) ← Data.children.foldlM (updateAttr index) (priv, none)
    let index_sub := if Data.children.length = 1 then index_sub else none
    let (priv, clouds) ← localToCloud charSigned priv index index_sub dev.DeviceId clouds
    return some ({ dev with priv := some priv }, clouds)

end

end Honyar.Hilink
