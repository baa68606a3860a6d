import Honyar.Lib.Store
import Honyar.Lib.Run
import Honyar.Alink.SceneAdd

/-!
# The table of rules

`sceneDispatch` of alink's scene.c, and `scene_local` (scene_database.c), the table that says
of each rule which cloud scene it belongs to.  A row goes in under its rule; what takes rows
out is called with a rule as well, but looks for scenes.

cJSON's parsing stays outside: a request is what `cJSON_Parse` makes of its text.  Dispatching
an array succeeds.
-/

namespace Honyar.Alink.RuleTable

open CText

/-! ## The table -/

/-- `RULEID` and `SCENEID`. -/
abbrev Row := CText × CText

/-- `table0_insert`; the rule is the key. -/
def table0Insert (devId modelId : CText) (rows : List Row) : Option (List Row) := do
  -- `char field_value[2][48]`
  let ruleId ← sprintf 48 [devId]
  let sceneId ← sprintf 48 [modelId]
  return Store.replace Prod.fst (ruleId, sceneId) rows

/-- `table0_delete`: of a scene. -/
def table0Delete (fieldValue : CText) (rows : List Row) : List Row :=
  Store.remove Prod.snd fieldValue rows

/-- The rules `table0_select` hands on. -/
def table0Select (sceneId : CText) (rows : List Row) : List CText :=
  (rows.filter fun row => row.2 = sceneId).map Prod.fst

/-! ## Requests -/

/-- What a request sets off. -/
inductive Sent where
  /-- `sceneHyDispatch` of an array. -/
  | dispatch (dataArray : List Json)
  /-- The result of `sceneDispatch` and the response it leaves. -/
  | returns (res : Int) (response : Option Json)

/-- What is done for one rule in `delScene`. -/
def delRule (ruleId : CText) (rows : List Row) : List Row × List Sent :=
  (table0Delete ruleId rows, [.dispatch [deleteObject ruleId]])

/-- The loop of `delScene`. -/
def delRules : List Json → List Row → Option (List Row × List Sent)
  | [], rows => some (rows, [])
  | ruleIdsSub :: rest, rows => do
    let (rows, sent) := delRule (← ruleIdsSub.valuestring?) rows
    let (rows, later) ← delRules rest rows
    return (rows, sent ++ later)

/-- `delScene`. -/
def delScene (ruleIds : Json) (rows : List Row) : Option (List Row × List Sent) :=
  match ruleIds with
  | .array ruleIds => delRules ruleIds rows
  | ruleId => ruleId.valuestring?.map fun ruleId => delRule ruleId rows

/-- `addScene` with the table: its arrays look up what has been inserted by then. -/
def addScene (T : Tables) (sceneId : Option CText) (rules : Json) (isUpdate : Bool)
    (rows : List Row) : Option (List Row × List Sent) := do
  let ruleId ← rules.getObjectItem "ruleId".toList
  let (rows, _) ← (if isUpdate then delScene ruleId rows else some (rows, []) : Option _)
  let rows ← table0Insert (← ruleId.valuestring?) (← sceneId) rows
  let arrays ←
    Alink.addScene { T with table0Select := fun sceneId => table0Select sceneId rows } rules
      isUpdate
  return (rows, arrays.map .dispatch)

/-- The object `triggerScene` makes of an item. -/
def execObject (ruleIdsSub : Json) : Json :=
  let arrayItem := Members.addString [] "Op" "ExecScene".toList
  let arrayItem := arrayItem.addString? "Id" ruleIdsSub.valuestring?
  .object (arrayItem.addString "Enable" ['1'])

/-- `triggerScene`. -/
def triggerScene (ruleIds : Json) : List Sent :=
  (sendArray (ruleIds.children.map execObject)).map .dispatch

/-- The loop over `rules`; false where it goes to `fail`. -/
def addScenes (T : Tables) (operationType sceneId : Option CText) :
    List Json → List Row → Option (List Row × List Sent × Bool)
  | [], rows => some (rows, [], true)
  | rulesSub :: rest, rows => do
    let operationType' ← operationType
    if operationType' = "createScene".toList ∨ operationType' = "updateScene".toList then
      let (rows, sent) ←
        addScene T sceneId rulesSub (operationType' = "updateScene".toList) rows
      let (rows, later, ok) ← addScenes T operationType sceneId rest rows
      return (rows, sent ++ later, ok)
    else return (rows, [], false)

/-- What is done for `ruleIds`. -/
def deletePart (operationType : Option CText) (ruleIds : Option Json) (rows : List Row) :
    Option (List Row × List Sent) :=
  match ruleIds with
  | none => some (rows, [])
  | some ruleIds => do
    if (← operationType) = "deleteScene".toList then delScene ruleIds rows
    else return (rows, [])

/-- What is done for `ruleId`. -/
def firePart (operationType : Option CText) (ruleId : Option Json) : Option (List Sent) :=
  match ruleId with
  | none => some []
  | some ruleId => do
    if (← operationType) = "fire".toList then return triggerScene ruleId else return []

/-- The response to a request that has been carried out. -/
def response (sceneId : Json) : Json :=
  .object ([("code".toList, .number "200".toList 200)] ++
    (sceneId.valuestring?.map fun t => ("data".toList, Json.string t)).toList ++
    [("message".toList, .string "successed".toList)])

/-- `sceneDispatch` of a request that parses to `root`. -/
def sceneDispatch (T : Tables) (rows : List Row) (root : Option Json) :
    Option (List Row × List Sent) :=
  match member root "operationType", member root "sceneId" with
  | some operationType, some sceneId => do
    let op := operationType.valuestring?
    let (rows, added, ok) ←
      addScenes T op sceneId.valuestring? (items (member root "rules")) rows
    if ok then
      let (rows, deleted) ← deletePart op (member root "ruleIds") rows
      let fired ← firePart op (member root "ruleId")
      return (rows, added ++ deleted ++ fired ++ [.returns 0 (some (response sceneId))])
    else return (rows, added ++ [.returns (-1) none])
  -- A text that is no object has no members either.
  | _, _ => some (rows, [.returns (-1) none])

end Honyar.Alink.RuleTable
