import Honyar.LocalScene.SceneList

/-!
# Adding, deleting and clearing the conditions of a scene

The twelve functions `scene_{time,event}_{or,and}_cond_{add,del,clear}` of
`scene_list.c`.  They are one text copied four times, written here once for a
logic and a type; each keeps its own name below.  Three copies have something of
their own: `scene_event_or_cond_add` and `scene_event_or_cond_del` know the
manual trigger, `scene_event_and_cond_add` has a branch for a list of one
condition, and `scene_event_and_cond_del` writes the bit of the time list.

The scene is given by its address, as the source gives it by a pointer.
-/

namespace Honyar.LocalScene

open CText

variable {k : Kind}

/-! ## Through a node of the hash table -/

/-- `pCondNode` of the node, as a pointer to a condition of type `k`: `none`
when it points to something else. -/
def PtrNode.condPtr? (e : PtrNode) (k : Kind) : Option (CondPtr k) :=
  match e.target with
  | .cond ⟨k', p⟩ => if h : k' = k then some (h ▸ p) else none
  | _ => none

/-- `scene_time_cond_true_init`, `scene_event_cond_true_init` on the scene and
the condition a node leads to. -/
def SceneList.condTrueInit (x : SceneList) (k : Kind) (e : PtrNode) (iCondTrue : Bool) :
    Option SceneList := do
  let p ← e.condPtr? k
  let s ← x.scene? e.pstScene
  let s ← LocalScene.condTrueInit s p iCondTrue
  return x.setScene e.pstScene s

/-- The truth a condition that is added or changed starts with: false for a time
condition, that of its last value, if it has one, for an event condition. -/
def Cond.initTrue : {k : Kind} → Cond k → Bool
  | .time => fun _ : TimeCond => false
  | .event => fun c : EventCond =>
    if c.acLastValue.length = 0 then false
    else
      sceneEventCondIsTrue c
        { acDevId := strncpy devIdMaxLen c.acDevId
          acKey := strncpy keyMaxLen c.acKey
          acValue := strncpy valueMaxLen c.acLastValue }

/-! ## Adding -/

/-- Changes the condition that is filed under the same text for this scene, or
adds and files a new one.  A refused condition is filed all the same, with no
pointer to it. -/
def fileCond (x : SceneList) (a : Nat) (l : Logic) (c : Cond k) :
    Option (SceneList × ErrNo × PtrNode) := do
  let s ← x.scene? a
  match ptrHashFind x.pHashTable c.hashKey s.acSceneId with
  | some e =>
    let p ← e.condPtr? k
    let t ← x.scene? e.pstScene
    let _ ← t.node? p
    return (x.setScene e.pstScene (t.modifyCond p fun d => d.set c), .noErr, e)
  | none =>
    let e (target : PtrTarget) : PtrNode :=
      { addr := x.heap + 2
        acId := strncpy indexMaxLen s.acSceneId
        pstScene := a
        target := target }
    match (s.list l k).condAdd x.heap c with
    | some (y, p) =>
      return ({ x.setScene a (s.setList l k y) with
          pHashTable := ptrHashInst x.pHashTable c.hashKey (e (.cond ⟨k, p⟩))
          heap := x.heap + 3 }, .noErr, e (.cond ⟨k, p⟩))
    | none =>
      return ({ x with
          pHashTable := ptrHashInst x.pHashTable c.hashKey (e .null)
          heap := x.heap + 3 }, .sceneAddErr, e .null)

/-- Adds or changes a condition and gives it its first truth. -/
def condAdd (x : SceneList) (a : Nat) (l : Logic) (c : Cond k) : Option (SceneList × ErrNo) := do
  let (x, iRet, e) ← fileCond x a l c
  if iRet = .noErr then return (← x.condTrueInit k e c.initTrue, iRet)
  else return (x, iRet)

/-- `JSON_VALUE_KEY_MANUAL`. -/
def jsonValueKeyManual : CText := ['M', 'a', 'n', 'u', 'a', 'l']

/-- The condition stands for the manual trigger. -/
def EventCond.isManual (c : EventCond) : Bool := strncmpEq keyMaxLen c.acKey jsonValueKeyManual

/-- `scene_time_or_cond_add`. -/
def sceneTimeOrCondAdd (x : SceneList) (a : Nat) (c : TimeCond) : Option (SceneList × ErrNo) :=
  condAdd (k := .time) x a .or c

/-- `scene_time_and_cond_add`. -/
def sceneTimeAndCondAdd (x : SceneList) (a : Nat) (c : TimeCond) : Option (SceneList × ErrNo) :=
  condAdd (k := .time) x a .and c

/-- `scene_event_or_cond_add`; the manual trigger is a flag of the scene. -/
def sceneEventOrCondAdd (x : SceneList) (a : Nat) (c : EventCond) :
    Option (SceneList × ErrNo) := do
  if c.isManual then
    let s ← x.scene? a
    return (x.setScene a { s with cManualTriggerFlag := true }, .noErr)
  else condAdd (k := .event) x a .or c

/-- `scene_event_and_cond_add`; when the list holds one condition afterwards,
the bit of the list is cleared and nothing is computed. -/
def sceneEventAndCondAdd (x : SceneList) (a : Nat) (c : EventCond) :
    Option (SceneList × ErrNo) := do
  let (x, iRet, e) ← fileCond (k := .event) x a .and c
  if iRet = .noErr then
    let s ← x.scene? a
    if 1 = (s.list .and .event).iCount then
      return (x.setScene a (s.setListTrue .and .event false), iRet)
    else
      return (← x.condTrueInit .event e (Cond.initTrue (k := .event) c), iRet)
  else return (x, iRet)

/-- The addition of each logic and type, as the method table
`{time,event}_{or,and}_cond_add` of the class has them. -/
def sceneCondAdd (x : SceneList) (a : Nat) :
    (l : Logic) → {k : Kind} → Cond k → Option (SceneList × ErrNo)
  | .or, .time => sceneTimeOrCondAdd x a
  | .or, .event => sceneEventOrCondAdd x a
  | .and, .time => sceneTimeAndCondAdd x a
  | .and, .event => sceneEventAndCondAdd x a

/-! ## Deleting -/

/-- The truth words after `cond_del`: an emptied list gets its neutral truth in
the bit of `bit`, otherwise the truth of the set the condition was in is worked
out and everything above it. -/
def condDelTrue (s : SceneInfo) (l : Logic) (bit : Kind) (p : CondPtr k) : Option SceneInfo := do
  if 0 = (s.list l k).iCount then
    let s := s.modifyList l k fun x => { x with uiCondSetTrue := 0 }
    return s.setListTrue l bit (l = .and)
  else
    let n ← s.set? p
    return condSetTrueInit s p.acLogic k n.iCondSetIndex (l.wordTrue n.uiCondTrue n.ucCondCount)

/-- Deletes the condition filed under a text for this scene.  A node filed under
the id of a scene leads to that scene: no two scenes have one id. -/
def condDel (x : SceneList) (a : Nat) (l : Logic) (k : Kind) (bit : Kind) (acHashKey : CText) :
    Option (SceneList × ErrNo) := do
  let s ← x.scene? a
  match ptrHashFind x.pHashTable acHashKey s.acSceneId with
  | some e =>
    let p ← e.condPtr? k
    if e.pstScene = a then
      let s' ← s.condDel l p
      let s' ← condDelTrue s' l bit p
      return ({ x.setScene a s' with
          pHashTable := ptrHashDel x.pHashTable acHashKey s.acSceneId }, .noErr)
    else none
  | none => return (x, .notFoundErr)

/-- `scene_time_or_cond_del`. -/
def sceneTimeOrCondDel (x : SceneList) (a : Nat) (c : TimeCond) : Option (SceneList × ErrNo) :=
  condDel x a .or .time .time (timeHashKey c.acTimeKey)

/-- `scene_time_and_cond_del`. -/
def sceneTimeAndCondDel (x : SceneList) (a : Nat) (c : TimeCond) : Option (SceneList × ErrNo) :=
  condDel x a .and .time .time (timeHashKey c.acTimeKey)

/-- `scene_event_or_cond_del`. -/
def sceneEventOrCondDel (x : SceneList) (a : Nat) (c : EventCond) :
    Option (SceneList × ErrNo) := do
  if c.isManual then
    let s ← x.scene? a
    return (x.setScene a { s with cManualTriggerFlag := false }, .noErr)
  else condDel x a .or .event .event (eventHashKey c.acDevId c.acKey)

/-- `scene_event_and_cond_del`, with `0x1 << 0` where the other copies have the
bit of their own list. -/
def sceneEventAndCondDel (x : SceneList) (a : Nat) (c : EventCond) :
    Option (SceneList × ErrNo) :=
  condDel x a .and .event .time (eventHashKey c.acDevId c.acKey)

/-- The deletion of each logic and type. -/
def sceneCondDel (x : SceneList) (a : Nat) :
    (l : Logic) → {k : Kind} → Cond k → Option (SceneList × ErrNo)
  | .or, .time => sceneTimeOrCondDel x a
  | .or, .event => sceneEventOrCondDel x a
  | .and, .time => sceneTimeAndCondDel x a
  | .and, .event => sceneEventAndCondDel x a

/-! ## Clearing -/

/-- The records of all conditions a walk meets. -/
def CondList.conds {l : Logic} (y : CondList l k) : List (Cond k) :=
  y.walk.flatMap fun n => n.pstCond.map CondNode.stCond

/-- Empties a list and takes its conditions out of the hash table; the truth
words of the scene are not touched. -/
def condClear (x : SceneList) (a : Nat) (l : Logic) (k : Kind) : Option SceneList := do
  let s ← x.scene? a
  let y := s.list l k
  -- a link list that counts too few nodes keeps sets whose conditions are freed
  if y.iNodeNum ≠ 0 ∧ y.clear.stList ≠ [] then none
  else
    return { x.setScene a
        (s.setList l k { y.clear with iCount := 0, uiCondSetTrue := 0 }) with
      pHashTable := y.conds.foldl (fun h c => ptrHashDel h c.hashKey s.acSceneId) x.pHashTable }

/-- `scene_time_or_cond_clear`. -/
def sceneTimeOrCondClear (x : SceneList) (a : Nat) : Option SceneList := condClear x a .or .time

/-- `scene_event_or_cond_clear`. -/
def sceneEventOrCondClear (x : SceneList) (a : Nat) : Option SceneList := condClear x a .or .event

/-- `scene_time_and_cond_clear`. -/
def sceneTimeAndCondClear (x : SceneList) (a : Nat) : Option SceneList := condClear x a .and .time

/-- `scene_event_and_cond_clear`. -/
def sceneEventAndCondClear (x : SceneList) (a : Nat) : Option SceneList :=
  condClear x a .and .event

/-- The clearing of each logic and type. -/
def sceneCondClear (x : SceneList) (a : Nat) : Logic → Kind → Option SceneList
  | .or, .time => sceneTimeOrCondClear x a
  | .or, .event => sceneEventOrCondClear x a
  | .and, .time => sceneTimeAndCondClear x a
  | .and, .event => sceneEventAndCondClear x a

/-! ## A scene to look at -/

namespace Sample

/-- An enabled scene. -/
def text : SceneText where
  acSceneId := ['1']
  acSceneName := ['a']
  acSceneEnable := ['1']
  acExecDelayed := ['0']
  acUpdateTime := []
  acNote := []

/-- The list with that scene alone, at address 0. -/
def list : SceneList := hySceneAdd .init text

/-- "The attribute `key` of the device `d` equals `1`", last seen with `last`. -/
def eventCond (key last : CText) : EventCond where
  acDevId := ['d']
  acKey := key
  acTriggerType := ['I', 'n', 's', 't', 'a', 'n', 't', 'O', 'n', 'c', 'e']
  acContinueTime := []
  acValue := ['1']
  acActive := activeEqu
  acLastValue := last

/-- "Every Monday from 8:`start` to 8:`stop`". -/
def timeCond (key start stop : CText) : TimeCond where
  acTimeKey := key
  acTriggerType := ['I', 'n', 's', 't', 'a', 'n', 't', 'O', 'n', 'c', 'e']
  acTriggerInterval := []
  iTriggerInterval := 0
  acStartHour := ['8']
  acStartMinu := start
  acEndHour := ['8']
  acEndMinu := stop
  acWeek := ['M', 'o', 'n']
  acRepeat := ['1']
  acLose := ['0']

/-- The list an operation leaves; the empty list where it fails. -/
def after (r : Option (SceneList × ErrNo)) : SceneList := (r.map Prod.fst).getD .init

/-- The scene at address 0. -/
def scene (x : SceneList) : SceneInfo := (x.scene? 0).getD (.new text)

end Sample

end Honyar.LocalScene
