import Honyar.Lib.Json

/-!
# The translation of cloud scenes

`addScene` of alink's scene.c and the functions of scene_add.c: a rule of the
cloud becomes operations on the local scene, sent in arrays.  The objects are
built member by member, as the source builds them.

`none` is memory the source may not touch: a member that is not there and is
read all the same, a text that is too long for its buffer, an array that is read
behind its end.
-/

namespace Honyar.Alink

open CText

/-! ## Tables -/

/-- `CloudLinkDevAttr`. -/
structure CloudLinkDevAttr where
  hyKey : CText
  cloudKey : CText

/-- `CloudLinkEventAttr`. -/
structure CloudLinkEventAttr where
  hyKey : CText
  key : CText

/-- `CloudLinkDev`. -/
structure CloudLinkDev where
  attr : List CloudLinkDevAttr
  eventAttr : List CloudLinkEventAttr

/-- `HyLinkDevAttr`. -/
structure HyLinkDevAttr where
  hyKey : CText
  repeats : Bool

/-- `HyLinkDev`. -/
structure HyLinkDev where
  attr : List HyLinkDevAttr

/-- What the translation looks up: the devices of both sides, and the rules of a
cloud scene in `table0`; and how cJSON prints a value. -/
structure Tables where
  cloudLinkListGetById : CText → Option CloudLinkDev
  hylinkListGetById : CText → Option HyLinkDev
  table0Select : CText → List CText
  printUnformatted : Json → CText

def weekDay : List CText :=
  ["Sun".toList, "Mon".toList, "Tue".toList, "Wed".toList, "Thu".toList, "Fri".toList, "Sat".toList]

def cloudActive : List CText := ["==".toList, ">".toList, "<".toList, "!=".toList]

def localActive : List CText := ["Equ".toList, "Gtr".toList, "Lss".toList, "Not".toList]

/-! ## Objects -/

/-- The members of an object that is being built. -/
abbrev Members := List (CText × Json)

/-- `cJSON_AddStringToObject`. -/
def Members.addString (o : Members) (name : String) (t : CText) : Members :=
  o ++ [(name.toList, .string t)]

/-- The same with a pointer: nothing is added for `NULL`. -/
def Members.addString? (o : Members) (name : String) : Option CText → Members
  | some t => o.addString name t
  | none => o

/-- `cJSON_GetObjectItem` through a pointer that may be `NULL`. -/
def member (o : Option Json) (name : String) : Option Json :=
  o.bind fun o => o.getObjectItem name.toList

/-- The items `cJSON_GetArraySize` counts, none for `NULL`. -/
def items (o : Option Json) : List Json := (o.map Json.children).getD []

/-- `cjson_to_str`. -/
def cjsonToStr (j : Json) : CText :=
  match j.valuestring? with
  | some t => t
  | none => ofInt j.valueint

/-! ## Devices -/

/-- `findStrIndex(key, cloudActive, sizeof(cloudActive))`, -1 for no text.  The
length is the one in bytes: a text that is none of the four is compared with what
stands behind the array. -/
def findActive : Option CText → Option (Option Nat)
  | none => some none
  | some key =>
    if key ∈ cloudActive then some (some (cloudActive.findIdx (· == key))) else none

/-- The local name of an attribute: `some none` when the device has none of that
name.  The name is only looked at when there is something to compare it with. -/
def CloudLinkDev.hyKey? (dev : CloudLinkDev) (propertyName : Option Json) :
    Option (Option CText) :=
  if dev.attr.isEmpty && dev.eventAttr.isEmpty then some none
  else do
    let name ← (← propertyName).valuestring?
    match dev.attr.find? fun a => a.cloudKey == name with
    | some a => return some a.hyKey
    | none => return (dev.eventAttr.find? fun a => a.key == name).map CloudLinkEventAttr.hyKey

/-- `TriggerType` of an attribute, for a device that has it. -/
def triggerType? (T : Tables) (deviceName hyKey : CText) : Option CText := do
  let dev ← T.hylinkListGetById deviceName
  let a ← dev.attr.find? fun a => a.hyKey == hyKey
  return if a.repeats then "InstantEvery".toList else "InstantOnce".toList

/-- The value a device item is about. -/
def propertyValue? (params : Option Json) : Option Json :=
  match member params "propertyValue" with
  | some v => some v
  | none => member params "compareValue"

/-- The members of a device item that is known. -/
def devMembers (T : Tables) (arrayItem : Members) (deviceName hyKey value : CText) : Members :=
  let arrayItem := arrayItem.addString? "TriggerType" (triggerType? T deviceName hyKey)
  let arrayItem := arrayItem.addString "KeyCoding" "Original".toList
  let arrayItem := arrayItem.addString "ActionId" ['0']
  let arrayItem := arrayItem.addString "DevId" deviceName
  let arrayItem := arrayItem.addString "Key" hyKey
  arrayItem.addString "Value" value

/-- `getSceneDevStatus`; what it returns is not looked at. -/
def getSceneDevStatus (T : Tables) (params : Option Json) (arrayItem : Members) :
    Option Members := do
  let compareType ← member params "compareType"
  let active ← findActive compareType.valuestring?
  let arrayItem := arrayItem.addString "Active"
    ((active.bind fun i => localActive[i]?).getD "Equ".toList)
  let deviceName ← (← member params "deviceName").valuestring?
  match T.cloudLinkListGetById deviceName with
  | none => return arrayItem
  | some dev =>
    match ← dev.hyKey? (member params "propertyName") with
    | none => return arrayItem
    | some hyKey =>
      -- `char strBuf[8]`
      let value ← sprintf 8 [cjsonToStr (← propertyValue? params)]
      return devMembers T arrayItem deviceName hyKey value

/-! ## Triggers -/

/-- `weekBuf`. -/
def weekText (days : List CText) : Option CText := do
  let names ← days.mapM fun w => if 0 ≤ atoi w then weekDay[(atoi w).toNat]? else none
  sprintf 33 [[','].intercalate names]

/-- The members a condition starts with. -/
def condMembers (localSceneId logic : CText) : Members :=
  [("Op".toList, .string "AddCond".toList), ("Id".toList, .string localSceneId),
    ("Logic".toList, .string logic)]

/-- A trigger at a time. -/
def cronMembers (arrayItem : Members) (timeKey : Nat) (cron : Json) : Option Members := do
  let arrayItem := arrayItem.addString "CondType" "Time".toList
  -- `char key[8]`
  let key ← sprintf 8 ["Or_".toList, ofInt timeKey]
  let arrayItem := arrayItem.addString "TimeKey" key
  match strsep [' ', ','] (← cron.valuestring?) with
  | minu :: hour :: _ :: month :: days =>
    let arrayItem := arrayItem.addString "StartMinu" minu
    let arrayItem := arrayItem.addString "EndMinu" minu
    let arrayItem := arrayItem.addString "StartHour" hour
    let arrayItem := arrayItem.addString "EndHour" hour
    let arrayItem := arrayItem.addString "Repeat" (if month = ['*'] then ['1'] else ['0'])
    return arrayItem.addString "Week" (← weekText days)
  -- `strcmp("*", NULL)`
  | _ => none

/-- The body of the loop of `addtriggers`; `timeKey` is the static counter. -/
def addtrigger (T : Tables) (localSceneId : CText) (timeKey : Nat) (triggersItemsSub : Json) :
    Option (Json × Nat) := do
  let arrayItem := condMembers localSceneId "Or".toList
  let params := triggersItemsSub.getObjectItem "params".toList
  match member params "cron" with
  | some cron => return (.object (← cronMembers arrayItem timeKey cron), timeKey + 1)
  | none =>
    if (member params "deviceName").isSome then
      let arrayItem := arrayItem.addString "CondType" "Event".toList
      return (.object (← getSceneDevStatus T params arrayItem), timeKey)
    else return (.object arrayItem, timeKey)

/-- `addtriggers` from the counter on: the objects of its array. -/
def addtriggers (T : Tables) (localSceneId : CText) : Nat → List Json → Option (List Json)
  | _, [] => some []
  | timeKey, item :: rest => do
    let (o, timeKey) ← addtrigger T localSceneId timeKey item
    return o :: (← addtriggers T localSceneId timeKey rest)

/-! ## Conditions -/

/-- A window of time: neither its days nor its repetition are said. -/
def windowMembers (arrayItem : Members) (timeKey : Nat) (startTime : Json)
    (endTime : Option Json) : Option Members := do
  let arrayItem := arrayItem.addString "CondType" "Time".toList
  let key ← sprintf 8 ["And_".toList, ofInt timeKey]
  let arrayItem := arrayItem.addString "TimeKey" key
  let start := strsep [':'] (← startTime.valuestring?)
  let arrayItem := arrayItem.addString? "StartHour" start[0]?
  let arrayItem := arrayItem.addString? "StartMinu" start[1]?
  let stop := strsep [':'] (← (← endTime).valuestring?)
  let arrayItem := arrayItem.addString? "EndHour" stop[0]?
  return arrayItem.addString? "EndMinu" stop[1]?

/-- The body of the loop of `addconditions`. -/
def addcondition (T : Tables) (localSceneId : CText) (timeKey : Nat) (conditionsItemsSub : Json) :
    Option (Json × Nat) := do
  let arrayItem := condMembers localSceneId "And".toList
  let params := conditionsItemsSub.getObjectItem "params".toList
  match member params "startTime" with
  | some startTime =>
    return (.object (← windowMembers arrayItem timeKey startTime (member params "endTime")),
      timeKey + 1)
  | none =>
    if (member params "deviceName").isSome then
      let arrayItem := arrayItem.addString "CondType" "Event".toList
      return (.object (← getSceneDevStatus T params arrayItem), timeKey)
    else return (.object arrayItem, timeKey)

/-- `addconditions` from the counter on. -/
def addconditions (T : Tables) (localSceneId : CText) : Nat → List Json → Option (List Json)
  | _, [] => some []
  | timeKey, item :: rest => do
    let (o, timeKey) ← addcondition T localSceneId timeKey item
    return o :: (← addconditions T localSceneId timeKey rest)

/-! ## Actions -/

/-- `STR_GATEWAY_DEVID`. -/
def gatewayDevId : CText := List.replicate 16 '0'

/-- The object of `addActionsForSceneId`. -/
def addActionsForSceneId (T : Tables) (srcSceneId ruleId : CText) : Json :=
  let value : Json := .object
    [("SceneId".toList, .string ruleId), ("Enable".toList, .string ['1'])]
  .object
    [("Op".toList, .string "AddAction".toList), ("Id".toList, .string srcSceneId),
      ("KeyCoding".toList, .string "Original".toList), ("ActionId".toList, .string ruleId),
      ("DevId".toList, .string gatewayDevId), ("Key".toList, .string "SceneId".toList),
      ("Value".toList, .string (T.printUnformatted value))]

/-- The body of the loop of `addActions`: the arrays it sends at once, and the
objects it puts into the array of the batch. -/
def addaction (T : Tables) (localSceneId : CText) (actionsSub : Json) :
    Option (List (List Json) × List Json) := do
  let params := actionsSub.getObjectItem "params".toList
  match member params "sceneId" with
  | some sceneId =>
    let ruleIds := T.table0Select (← sceneId.valuestring?)
    return (ruleIds.map fun ruleId => [addActionsForSceneId T localSceneId ruleId], [])
  | none =>
    let arrayItem : Members :=
      [("Op".toList, .string "AddAction".toList), ("Id".toList, .string localSceneId)]
    return ([], [.object (← getSceneDevStatus T params arrayItem)])

/-- The arrays of a batch, in the order they are sent; an empty one is not. -/
def actionBatch (T : Tables) (localSceneId : CText) (batch : List Json) :
    Option (List (List Json)) := do
  let rs ← batch.mapM (addaction T localSceneId)
  let actionsArray := rs.flatMap Prod.snd
  return rs.flatMap Prod.fst ++ if actionsArray.isEmpty then [] else [actionsArray]

/-- `addActions`, ten at a time. -/
def addActions (T : Tables) (localSceneId : CText) (actions : List Json) :
    Option (List (List Json)) := do
  let arrays ← (actions.toChunks 10).mapM (actionBatch T localSceneId)
  return arrays.flatten

/-! ## Scenes -/

/-- The delay of a rule: that of its first addition, if this has parameters. -/
def delayTime (rules : Json) : Option Int :=
  match items (rules.getObjectItem "additions".toList) with
  | [] => some 0
  | additionsSub :: _ =>
    match additionsSub.getObjectItem "params".toList with
    | none => some 0
    | some params => (params.getObjectItem "delayTime".toList).map Json.valueint

/-- The items of `triggers` and `conditions`. -/
def ruleItems (rules : Json) (name : String) : List Json :=
  items (member (rules.getObjectItem name.toList) "items")

/-- The object that adds the scene. -/
def sceneObject (ruleId enable delayed : CText) : Json :=
  .object
    [("Op".toList, .string "AddScene".toList), ("Id".toList, .string ruleId),
      ("Enable".toList, .string enable), ("ExecDelayed".toList, .string delayed)]

/-- The object of `delete_single_scene`. -/
def deleteObject (ruleId : CText) : Json :=
  .object [("Op".toList, .string "DelScene".toList), ("Id".toList, .string ruleId)]

/-- An array is sent when it is not empty. -/
def sendArray (os : List Json) : List (List Json) := if os.isEmpty then [] else [os]

/-- `addScene`: the arrays it sends, in their order. -/
def addScene (T : Tables) (rules : Json) (isUpdate : Bool) : Option (List (List Json)) := do
  let ruleId ← (← rules.getObjectItem "ruleId".toList).valuestring?
  let enable ← rules.getObjectItem "enable".toList
  let delay ← delayTime rules
  -- `char buf[8]`
  let enableBuf ← sprintf 8 [ofInt enable.valueint]
  let delayBuf ← sprintf 8 [ofInt delay]
  let triggers ← addtriggers T ruleId 0 (ruleItems rules "triggers")
  let conditions ← addconditions T ruleId 0 (ruleItems rules "conditions")
  let actions ← addActions T ruleId (items (rules.getObjectItem "actions".toList))
  return (if isUpdate then [[deleteObject ruleId]] else []) ++
    [[sceneObject ruleId enableBuf delayBuf]] ++ sendArray triggers ++ sendArray conditions ++
      actions

end Honyar.Alink
