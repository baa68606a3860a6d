import Honyar.Lib.Store
import Honyar.Alink.SceneAdd

/-!
# Groups of switches

The services of alink's more_control.c: a group of switches that follow each other is a name in
`scene_control_group_name`, its members in `scene_control`, and a scene on the gateway with a
condition for each member.

cJSON's parsing stays outside, and the cutting of a report into parts; dispatching an array
succeeds.
-/

namespace Honyar.Alink.MoreControl

open CText

/-! ## The tables -/

/-- A row of `scene_control`. -/
structure Member where
  groupId : CText
  productKey : CText
  deviceId : CText
  switchLoop : CText
deriving DecidableEq

/-- The rows of `scene_control`, and `GROUPID` and `GROUPNAME` of those of
`scene_control_group_name`. -/
structure Db where
  members : List Member
  names : List (CText × CText)
deriving DecidableEq

/-- `table1_delete`. -/
def Db.table1Delete (db : Db) (groupId : CText) : Db :=
  { db with members := Store.remove Member.groupId groupId db.members }

/-- `table2_delete`. -/
def Db.table2Delete (db : Db) (groupId : CText) : Db :=
  { db with names := Store.remove Prod.fst groupId db.names }

/-- `table1_insert`; no field is unique. -/
def Db.table1Insert (db : Db) (groupId productKey deviceId switchLoop : CText) : Option Db := do
  -- `char field_value[4][48]`
  let groupId ← sprintf 48 [groupId]
  let productKey ← sprintf 48 [productKey]
  let deviceId ← sprintf 48 [deviceId]
  let switchLoop ← sprintf 48 [switchLoop]
  return { db with members := db.members ++ [⟨groupId, productKey, deviceId, switchLoop⟩] }

/-- `table2_insert`; the group is the key. -/
def Db.table2Insert (db : Db) (groupId groupName : CText) : Option Db := do
  let groupId ← sprintf 48 [groupId]
  let groupName ← sprintf 48 [groupName]
  return { db with names := Store.replace Prod.fst (groupId, groupName) db.names }

/-- The rows `table1_select` hands on. -/
def Db.table1Select (db : Db) (groupId : CText) : List Member :=
  db.members.filter fun m => m.groupId = groupId

/-- The rows `table2_select` hands on: all for `NULL`. -/
def Db.table2Select (db : Db) (groupId : Option CText) : List (CText × CText) :=
  match groupId with
  | none => db.names
  | some groupId => db.names.filter fun n => n.1 = groupId

/-! ## What is sent -/

/-- What a request sets off. -/
inductive Sent where
  /-- `sceneHyDispatch` of an array. -/
  | dispatch (dataArray : List Json)
  /-- `more_control_report`: the text of an object, in base64 for a query, and the response. -/
  | report (root resp : Json)
  | returns (res : Int)

/-- The object of `more_control_add_triggers`. -/
def condObject (localSceneId deviceName hyKey : CText) : Json :=
  .object
    [("Op".toList, .string "AddCond".toList), ("Id".toList, .string localSceneId),
      ("Logic".toList, .string "Or".toList), ("CondType".toList, .string "Event".toList),
      ("TriggerType".toList, .string "StateSync".toList), ("Active".toList, .string "Equ".toList),
      ("KeyCoding".toList, .string "Original".toList), ("DevId".toList, .string deviceName),
      ("Key".toList, .string hyKey), ("Value".toList, .string ['0']),
      ("ContinueTime".toList, .string ['0'])]

/-- The local name of a switch; it is only looked at when there is something to compare it
with. -/
def switchKey (dev : CloudLinkDev) (switchLoop : Option Json) : Option (Option CText) :=
  if dev.attr.isEmpty then some none
  else do
    let name ← (← switchLoop).valuestring?
    return (dev.attr.find? fun a => a.cloudKey == name).map CloudLinkDevAttr.hyKey

/-- The loop of `more_control_add_triggers`: `some none` where it returns -1. -/
def triggersArray (T : Tables) (localSceneId : CText) : List Json → Option (Option (List Json))
  | [] => some (some [])
  | triggersItemsSub :: rest => do
    let deviceName ← (← triggersItemsSub.getObjectItem "deviceName".toList).valuestring?
    match T.cloudLinkListGetById deviceName with
    | none => return none
    | some dev =>
      match ← switchKey dev (triggersItemsSub.getObjectItem "SwitchLoop".toList) with
      | none => return none
      | some hyKey =>
        return (← triggersArray T localSceneId rest).map
          (condObject localSceneId deviceName hyKey :: ·)

/-- `more_control_add_triggers`; what it returns is not looked at. -/
def moreControlAddTriggers (T : Tables) (localSceneId : CText) (triggersItems : List Json) :
    Option (List Sent) :=
  if triggersItems.isEmpty then some []
  else do
    let os ← triggersArray T localSceneId triggersItems
    return .dispatch [sceneObject localSceneId ['1'] ['0']] ::
      ((sendArray (os.getD [])).map .dispatch)

/-! ## Responses -/

/-- What `group_select_cb` adds. -/
def memberObject (m : Member) : Json :=
  .object
    [("productKey".toList, .string m.productKey), ("deviceName".toList, .string m.deviceId),
      ("SwitchLoop".toList, .string m.switchLoop)]

/-- What `group_name_select_cb` adds. -/
def groupObject (db : Db) (name : CText × CText) : Json :=
  .object
    [("GroupId".toList, .string name.1), ("Enable".toList, .string ['1']),
      ("GroupName".toList, .string name.2),
      ("ListData".toList, .array ((db.table1Select name.1).map memberObject))]

/-- The members both objects of a response start with. -/
def responseHead : Members :=
  [("code".toList, .number "200".toList 200), ("message".toList, .string "ok".toList)]

/-- `response_control` with the text of a group. -/
def responseControl (db : Db) (groupId bindSwitch : CText) : Sent :=
  let groups : List Json :=
    if bindSwitch = "AddBindSwitch".toList ∨ bindSwitch = "ModifyBindSwitch".toList then
      (db.table2Select (some groupId)).map (groupObject db)
    else if bindSwitch = "QueryBindSwitch".toList then
      (db.table2Select (if groupId = [] then none else some groupId)).map (groupObject db)
    else if bindSwitch = "DeleteBindSwitch".toList then [.string groupId]
    else []
  .report (.object (responseHead ++ [(bindSwitch, .array groups)]))
    (.object (responseHead ++ [(bindSwitch, .string [])]))

/-! ## Services -/

/-- The row of an item of `ListData`, as it is put in. -/
def Db.insertItem (groupId : CText) (db : Db) (arraySub : Json) : Option Db := do
  let productKey ← (← arraySub.getObjectItem "productKey".toList).valuestring?
  let deviceName ← (← arraySub.getObjectItem "deviceName".toList).valuestring?
  let switchLoop ← (← arraySub.getObjectItem "SwitchLoop".toList).valuestring?
  db.table1Insert groupId productKey deviceName switchLoop

/-- `add_mod_more_control` of a request that parses to `root`. -/
def addModMoreControl (T : Tables) (bindSwitch : CText) (db : Db) (root : Option Json) :
    Option (Db × List Sent) :=
  match member root "GroupId" with
  | none => some (db, [.returns (-1)])
  | some groupId => do
    let groupId ← groupId.valuestring?
    let db := (db.table1Delete groupId).table2Delete groupId
    let deleted := Sent.dispatch [deleteObject groupId]
    match member root "GroupName", member root "ListData" with
    | some groupName, some listData => do
      let db ← listData.children.foldlM (Db.insertItem groupId) db
      let db ← db.table2Insert groupId (← groupName.valuestring?)
      let added ← moreControlAddTriggers T groupId listData.children
      return (db, deleted :: added ++ [responseControl db groupId bindSwitch, .returns 0])
    | _, _ => return (db, [deleted, .returns (-1)])

/-- `query_more_control`; a response of no group is -1. -/
def queryMoreControl (db : Db) (root : Option Json) : Option (Db × List Sent) :=
  match member root "GroupId" with
  | none => some (db, [.returns (-1)])
  | some groupId =>
    match groupId.valuestring? with
    | none => some (db, [.returns (-1)])
    | some groupId =>
      some (db, [responseControl db groupId "QueryBindSwitch".toList, .returns 0])

/-- `delete_more_control`. -/
def deleteMoreControl (db : Db) (root : Option Json) : Option (Db × List Sent) :=
  match member root "GroupId" with
  | none => some (db, [.returns (-1)])
  | some groupId => do
    let groupId ← groupId.valuestring?
    let db := (db.table1Delete groupId).table2Delete groupId
    return (db, [responseControl db groupId "DeleteBindSwitch".toList, .returns 0])

/-- The services on groups, as `cloudLinkServicCtrl` tells them apart. -/
inductive Service where
  | add
  | modify
  | query
  | delete
deriving DecidableEq

/-- A request for a service. -/
def handle (T : Tables) (db : Db) : Service × Option Json → Option (Db × List Sent)
  | (.add, root) => addModMoreControl T "AddBindSwitch".toList db root
  | (.modify, root) => addModMoreControl T "ModifyBindSwitch".toList db root
  | (.query, root) => queryMoreControl db root
  | (.delete, root) => deleteMoreControl db root

end Honyar.Alink.MoreControl
