import Honyar.LocalScene.ActionList
import Honyar.LocalScene.Dispatch
import Honyar.LocalScene.ListSync

/-!
# Requests

The functions of scene.c that add, delete, bind and unbind: they read the fields of a
JSON object, some of which they require and some of which have a default, and hand
what they read to the scene list.

`none` is memory the source may not touch.
-/

namespace Honyar.LocalScene

open CText

/-- `LOGIC_MAX_LEN`. -/
def logicMaxLen : Nat := 8

/-- `TYPE_MAX_LEN`. -/
def typeMaxLen : Nat := 16

/-- What a request answers with. -/
inductive Answer where
  | jsonFormatErr
  | engine (iRet : ErrNo)
deriving DecidableEq, Repr

/-- The scene list, with `pstAction` of the scene at an address. -/
structure Gateway where
  list : SceneList
  pstAction : Nat → ActionList

/-- `JSON_value_get` into a buffer that holds zeros. -/
def readField (pcKey : String) (iValueLen : Nat) (pstData : Json) : Option CText :=
  Json.valueGet pcKey.toList [] iValueLen pstData

/-! ## Scenes -/

/-- The texts of a scene, `i` where the object has no field. -/
def readSceneText (i : SceneText) (pstData : Json) : SceneText where
  acSceneId := i.acSceneId
  acSceneName := (readField "Name" nameMaxLen pstData).getD i.acSceneName
  acSceneEnable := (readField "Enable" stateMaxLen pstData).getD i.acSceneEnable
  acExecDelayed := (readField "ExecDelayed" delayedMaxLen pstData).getD i.acExecDelayed
  acUpdateTime := (readField "UpdateTime" timeMaxLen pstData).getD i.acUpdateTime
  acNote := (readField "Note" noteMaxLen pstData).getD i.acNote

/-- What `hyScene_Add` puts where a new scene has no field. -/
def newSceneText (acSceneId : CText) : SceneText where
  acSceneId := acSceneId
  acSceneName := ['0']
  acSceneEnable := ['1']
  acExecDelayed := ['0']
  acUpdateTime := ['0']
  acNote := ['0']

/-- `hyScene_Add`. -/
def Gateway.hySceneAdd (g : Gateway) (pstData : Json) : Gateway × Answer :=
  match readField "Id" indexMaxLen pstData with
  | none => (g, .jsonFormatErr)
  | some acSceneId =>
    match (sceneListGet g.list acSceneId).bind g.list.scene? with
    | some s =>
      let i := readSceneText { s.text with acSceneId := acSceneId } pstData
      ({ g with list := LocalScene.hySceneAdd g.list i }, .engine .noErr)
    | none =>
      let i := readSceneText (newSceneText acSceneId) pstData
      (⟨LocalScene.hySceneAdd g.list i, Function.update g.pstAction g.list.heap .new⟩,
        .engine .noErr)

/-! ## Conditions -/

/-- The fields of a time condition: `none` where a required one is missing. -/
def readTimeCond (pstData : Json) : Option TimeCond := do
  let acTimeKey ← readField "TimeKey" keyMaxLen pstData
  let acTriggerType := (readField "TriggerType" keyMaxLen pstData).getD "InstantOnce".toList
  let acTriggerInterval := (readField "TriggerInterval" keyMaxLen pstData).getD ['1']
  let acStartHour ← readField "StartHour" hourMaxLen pstData
  let acStartMinu ← readField "StartMinu" minuMaxLen pstData
  let acEndHour ← readField "EndHour" hourMaxLen pstData
  let acEndMinu ← readField "EndMinu" minuMaxLen pstData
  let acWeek ← readField "Week" weekMaxLen pstData
  let acRepeat ← readField "Repeat" stateMaxLen pstData
  return {
    acTimeKey := acTimeKey
    acTriggerType := acTriggerType
    acTriggerInterval := acTriggerInterval
    iTriggerInterval := 0
    acStartHour := acStartHour
    acStartMinu := acStartMinu
    acEndHour := acEndHour
    acEndMinu := acEndMinu
    acWeek := acWeek
    acRepeat := acRepeat
    acLose := ['0'] }

/-- The identity of an event condition; the other fields are zeros. -/
def readEventId (pstData : Json) : Option EventCond := do
  let acDevId ← readField "DevId" devIdMaxLen pstData
  let acKey ← readField "Key" keyMaxLen pstData
  return {
    acDevId := acDevId
    acKey := acKey
    acTriggerType := []
    acContinueTime := []
    acValue := []
    acActive := []
    acLastValue := [] }

/-- `scene_event_or_cond_get`, `scene_event_and_cond_get`: the condition that is
filed under the text, whole; `c` where there is none. -/
def eventCondGet (x : SceneList) (s : SceneInfo) (c : EventCond) : Option EventCond :=
  match ptrHashFind x.pHashTable (eventHashKey c.acDevId c.acKey) s.acSceneId with
  | none => some c
  | some e => do
    let p ← e.condPtr? .event
    let t ← x.scene? e.pstScene
    let d ← t.node? p
    return d.stCond

/-- The other fields of an event condition, read over those of `c`. -/
def readEventCond (c : EventCond) (pstData : Json) : Option EventCond := do
  let acValue ← Json.valueGet "Value".toList c.acValue valueMaxLen pstData
  let acTriggerType :=
    (Json.valueGet "TriggerType".toList c.acTriggerType triggerTypeMaxLen pstData).getD
      "InstantOnce".toList
  let acContinueTime :=
    (Json.valueGet "ContinueTime".toList c.acContinueTime continueTimeMaxLen pstData).getD ['0']
  let acActive ← Json.valueGet "Active".toList c.acActive activeMaxLen pstData
  return { c with
    acValue := acValue
    acTriggerType := acTriggerType
    acContinueTime := acContinueTime
    acActive := acActive }

/-- The logic a text stands for. -/
def logicOf (acLogic : CText) : Option Logic :=
  if strncmpEq logicMaxLen acLogic "Or".toList then some .or
  else if strncmpEq logicMaxLen acLogic "And".toList then some .and
  else none

/-- The addition to the list of the logic; another logic adds nothing. -/
def addLogic {k : Kind} (x : SceneList) (a : Nat) (acLogic : CText) (c : Cond k) :
    Option (SceneList × Answer) :=
  match logicOf acLogic with
  | some l => (sceneCondAdd x a l c).map fun r => (r.1, .engine r.2)
  | none => some (x, .engine .noErr)

/-- `hyScene_Add_Cond`. -/
def hySceneAddCond (x : SceneList) (pstData : Json) : Option (SceneList × Answer) :=
  match readField "Id" indexMaxLen pstData with
  | none => some (x, .jsonFormatErr)
  | some acSceneId =>
    match sceneListGet x acSceneId with
    | none => some (x, .engine .notFoundErr)
    | some a =>
      match readField "Logic" logicMaxLen pstData, readField "CondType" typeMaxLen pstData with
      | some acLogic, some acCondType =>
        if strncmpEq typeMaxLen acCondType "Time".toList then
          match readTimeCond pstData with
          | none => some (x, .jsonFormatErr)
          | some c =>
            -- read with `KEY_MAX_LEN`: a longer text runs over the next field
            if c.acTriggerType.length ≤ triggerTypeMaxLen ∧
                c.acTriggerInterval.length ≤ triggerIntervalMaxLen then
              addLogic (k := .time) x a acLogic c
            else none
        else if strncmpEq typeMaxLen acCondType "Event".toList then
          match readEventId pstData with
          | none => some (x, .jsonFormatErr)
          | some c => do
            let s ← x.scene? a
            let c ← eventCondGet x s c
            match readEventCond c pstData with
            | none => return (x, .jsonFormatErr)
            | some c => addLogic (k := .event) x a acLogic c
        else some (x, .engine .noErr)
      | _, _ => some (x, .jsonFormatErr)

/-! ## Actions -/

/-- The fields of an action. -/
def readAction (pstData : Json) : Option ActionInfo := do
  let acActionId := (readField "ActionId" actionIdMaxLen pstData).getD ['0']
  let acDevId ← readField "DevId" devIdMaxLen pstData
  let acKey ← readField "Key" keyMaxLen pstData
  let acValueCoding := (readField "ValueCoding" valueCodingMaxLen pstData).getD "Original".toList
  let acValue ← readField "Value" valueMaxLen pstData
  return {
    acActionId := acActionId
    acDevId := acDevId
    acKey := acKey
    acValueCoding := acValueCoding
    acValue := acValue
    acResult := [] }

/-- `hyScene_Add_Action`. -/
def Gateway.hySceneAddAction (g : Gateway) (pstData : Json) : Gateway × Answer :=
  match readField "Id" indexMaxLen pstData with
  | none => (g, .jsonFormatErr)
  | some acSceneId =>
    match sceneListGet g.list acSceneId with
    | none => (g, .engine .notFoundErr)
    | some a =>
      match readAction pstData with
      | none => (g, .jsonFormatErr)
      | some i =>
        ({ g with pstAction := Function.update g.pstAction a (actionListAdd (g.pstAction a) i) },
          .engine .noErr)

/-! ## Deletions and panels -/

/-- What a request returns: `NoErr` or an error of error_msg.h. -/
abbrev Code := {i : Int // i ≤ 0}

namespace Code

def noErr : Code := ⟨0, by decide⟩
def notFoundErr : Code := ⟨-257, by decide⟩
def jsonFormatErr : Code := ⟨LocalScene.jsonFormatErr, by decide⟩
def sceneAddErr : Code := ⟨-287, by decide⟩
def sceneDelErr : Code := ⟨-288, by decide⟩

end Code

def ErrNo.code : ErrNo → Code
  | noErr => .noErr
  | notFoundErr => .notFoundErr
  | sceneAddErr => .sceneAddErr

def Answer.code : Answer → Code
  | jsonFormatErr => .jsonFormatErr
  | engine iRet => iRet.code

def ActionErrNo.code : ActionErrNo → Code
  | noErr => .noErr
  | notFoundErr => .notFoundErr
  | sceneDelErr => .sceneDelErr

/-- `JSON_VALUE_ALL`. -/
def jsonValueAll : CText := ['A', 'l', 'l']

/-- `hyScene_Del`. -/
def hySceneDel (x : SceneList) (pstData : Json) : Option (SceneList × Code) :=
  match readField "Id" indexMaxLen pstData with
  | none => some (x, .jsonFormatErr)
  | some acSceneId =>
    if strncmpEq indexMaxLen acSceneId jsonValueAll then some (sceneListClear x, .noErr)
    else (sceneListDel x acSceneId).map fun r => (r.1, r.2.code)

/-- A request to the scene whose id it names. -/
def toScene (x : SceneList) (pstData : Json) (f : Nat → Option (SceneList × Code)) :
    Option (SceneList × Code) :=
  match readField "Id" indexMaxLen pstData with
  | none => some (x, .jsonFormatErr)
  | some acSceneId =>
    match sceneListGet x acSceneId with
    | none => some (x, .notFoundErr)
    | some a => f a

/-- `hyScene_Bind`. -/
def hySceneBind (x : SceneList) (pstData : Json) : Option (SceneList × Code) :=
  toScene x pstData fun a =>
    match readField "DevId" devIdMaxLen pstData, readField "Key" keyMaxLen pstData,
      readField "Value" valueMaxLen pstData with
    | some acDevId, some acKey, some acValue =>
      (sceneBind x a ⟨acDevId, acKey, acValue, ['1']⟩).map fun y => (y, .noErr)
    | _, _, _ => some (x, .jsonFormatErr)

/-- `hyScene_Unbind`. -/
def hySceneUnbind (x : SceneList) (pstData : Json) : Option (SceneList × Code) :=
  toScene x pstData fun a =>
    match readField "DevId" devIdMaxLen pstData with
    | none => some (x, .jsonFormatErr)
    | some acDevId =>
      if strncmpEq devIdMaxLen acDevId jsonValueAll then
        (sceneBindClear x a).map fun y => (y, .noErr)
      else
        match readField "Key" keyMaxLen pstData with
        | none => some (x, .jsonFormatErr)
        | some acKey =>
          -- without a value it goes on, and returns what the scene list returns
          let acValue := (readField "Value" valueMaxLen pstData).getD []
          (sceneUnbind x a ⟨acDevId, acKey, acValue, []⟩).map fun r => (r.1, r.2.code)

/-- The lists are cleared one after the other. -/
def condClears (x : SceneList) (a : Nat) (ls : List (Logic × Kind)) :
    Option (SceneList × Code) :=
  (ls.foldlM (fun x p => sceneCondClear x a p.1 p.2) x).map fun y => (y, .noErr)

/-- The conditions of a type are deleted from the list of the logic: all, or the one
that the field `pcKey` names. -/
def delConds {k : Kind} (x : SceneList) (a : Nat) (l : Logic) (pcKey : String)
    (iValueLen iAllLen : Nat) (c : CText → Cond k) (pstData : Json) :
    Option (SceneList × Code) :=
  match readField pcKey iValueLen pstData with
  | none => some (x, .jsonFormatErr)
  | some t =>
    if strncmpEq iAllLen t jsonValueAll then condClears x a [(l, k)]
    else (sceneCondDel x a l (c t)).map fun r => (r.1, r.2.code)

/-- `hyScene_Del_Cond`.  An event condition is named by its device alone. -/
def hySceneDelCond (x : SceneList) (pstData : Json) : Option (SceneList × Code) :=
  toScene x pstData fun a =>
    match readField "Logic" logicMaxLen pstData with
    | none => some (x, .jsonFormatErr)
    | some acLogic =>
      if strncmpEq logicMaxLen acLogic jsonValueAll then
        condClears x a [(.or, .time), (.or, .event), (.and, .time), (.and, .event)]
      else
        match readField "CondType" typeMaxLen pstData with
        | none => some (x, .jsonFormatErr)
        | some acCondType =>
          match logicOf acLogic with
          | none => some (x, .noErr)
          | some l =>
            if strncmpEq typeMaxLen acCondType "Time".toList then
              delConds (k := .time) x a l "TimeKey" keyMaxLen typeMaxLen
                (fun t => ⟨t, [], [], 0, [], [], [], [], [], [], []⟩) pstData
            else if strncmpEq typeMaxLen acCondType "Event".toList then
              delConds (k := .event) x a l "DevId" devIdMaxLen devIdMaxLen
                (fun t => ⟨t, [], [], [], [], [], []⟩) pstData
            else if strncmpEq typeMaxLen acCondType jsonValueAll then
              condClears x a [(l, .time), (l, .event)]
            else some (x, .noErr)

/-- `hyScene_Del_Action`. -/
def Gateway.hySceneDelAction (g : Gateway) (pstData : Json) : Gateway × Code :=
  match readField "Id" indexMaxLen pstData with
  | none => (g, .jsonFormatErr)
  | some acSceneId =>
    match sceneListGet g.list acSceneId, readField "DevId" devIdMaxLen pstData with
    | none, _ => (g, .notFoundErr)
    | _, none => (g, .jsonFormatErr)
    | some a, some acDevId =>
      if strncmpEq devIdMaxLen acDevId jsonValueAll then
        ({ g with pstAction := Function.update g.pstAction a (actionListClear (g.pstAction a)) },
          .noErr)
      else
        match readField "Key" keyMaxLen pstData with
        | none => (g, .jsonFormatErr)
        | some acKey =>
          let acActionId := (readField "ActionId" actionIdMaxLen pstData).getD ['0']
          let r := actionListDel (g.pstAction a) ⟨acActionId, acDevId, acKey, [], [], []⟩
          ({ g with pstAction := Function.update g.pstAction a r.1 }, r.2.code)

/-! ## Runs -/

/-- One of the three operations, by the text of its `Op`. -/
def Gateway.handle (g : Gateway) (pstData : Json) : Option (Gateway × Answer) := do
  let acOp ← readField "Op" operationMaxLen pstData
  if strncmpEq operationMaxLen acOp Operation.addScene.text then return g.hySceneAdd pstData
  else if strncmpEq operationMaxLen acOp Operation.addAction.text then
    return g.hySceneAddAction pstData
  else if strncmpEq operationMaxLen acOp Operation.addCond.text then
    (hySceneAddCond g.list pstData).map fun r => ({ g with list := r.1 }, r.2)
  else none

/-- The operation, where it is answered with `NoErr`. -/
def Gateway.accept (g : Gateway) (pstData : Json) : Option Gateway := do
  let r ← g.handle pstData
  if r.2 = .engine .noErr then some r.1 else none

/-- The operations one after another, where all are answered with `NoErr`. -/
def Gateway.acceptAll (g : Gateway) (os : List Json) : Option Gateway := os.foldlM Gateway.accept g

end Honyar.LocalScene
