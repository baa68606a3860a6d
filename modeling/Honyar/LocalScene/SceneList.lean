import Honyar.LocalScene.CondList

/-!
# The scene list

`scene_list_class_t`: the scenes, the hash table that leads from a text to the
conditions and panels filed under it, the execution queue and the running
`Continue` timers.

`ptr_hash.c` keeps, for each text, a chain with the newest node first; `PtrHash`
is all the chains in one list, newest first, and the chain of a text is what the
list holds under it.

Memory is a set of addresses handed out once: `heap` is the next one.  A pointer
whose node is gone resolves to nothing, and an operation that follows it is
`none`.
-/

namespace Honyar.LocalScene

open CText

/-! ## The hash table -/

/-- What a `ptr_info_t` leads to besides its scene: a condition, a panel, or
nothing, when the condition was refused. -/
inductive PtrTarget where
  | cond (p : AnyPtr)
  | panel (pScenePanelNode : Nat)
  | null
deriving DecidableEq, Repr

/-- `ptr_node_t`. -/
structure PtrNode where
  addr : Nat
  acId : CText
  pstScene : Nat
  target : PtrTarget
deriving DecidableEq, Repr

/-- `ptr_hash_table_class_t`: every node with the text it is filed under. -/
abbrev PtrHash : Type := List (CText × PtrNode)

/-- The node is filed under this text and scene id. -/
def PtrNode.isFor (pcKey paId : CText) (e : CText × PtrNode) : Bool :=
  e.1 == pcKey && strncmpEq indexMaxLen e.2.acId paId

/-- `ptr_hash_inst`. -/
def ptrHashInst (h : PtrHash) (pcKey : CText) (pValue : PtrNode) : PtrHash := (pcKey, pValue) :: h

/-- `ptr_hash_find_all`: the chain of a text. -/
def ptrHashFindAll (h : PtrHash) (pcKey : CText) : List PtrNode :=
  (h.filter fun e => e.1 == pcKey).map Prod.snd

/-- `ptr_hash_find`. -/
def ptrHashFind (h : PtrHash) (pcKey paId : CText) : Option PtrNode :=
  (h.find? (PtrNode.isFor pcKey paId)).map Prod.snd

/-- `ptr_hash_del`. -/
def ptrHashDel (h : PtrHash) (pcKey paId : CText) : PtrHash :=
  h.eraseP (PtrNode.isFor pcKey paId)

def ptrHashTypeCond : CText := ['c', 'o', 'n', 'd']
def ptrHashTypeSceneBind : CText := ['s', 'c', 'e', 'n', 'e', '_', 'b', 'i', 'n', 'd']

/-- The text an event or an event condition is filed under. -/
def eventHashKey (acDevId acKey : CText) : CText :=
  snprintf keyMaxLen [acDevId, acKey, ptrHashTypeCond]

/-- The text a time condition is filed under. -/
def timeHashKey (acTimeKey : CText) : CText := snprintf keyMaxLen [acTimeKey, ptrHashTypeCond]

/-- The text a panel is filed under. -/
def panelHashKey (acDevId acKey acValue : CText) : CText :=
  snprintf keyMaxLen [acDevId, acKey, acValue, ptrHashTypeSceneBind]

/-- The text a condition is filed under. -/
def Cond.hashKey : {k : Kind} → Cond k → CText
  | .time => fun c : TimeCond => timeHashKey c.acTimeKey
  | .event => fun c : EventCond => eventHashKey c.acDevId c.acKey

/-! ## The list -/

/-- `scene_list_node_t`; its address is that of its `stSceneInfo`. -/
structure SceneNode where
  addr : Nat
  stSceneInfo : SceneInfo
deriving DecidableEq

/-- `link_queue_node_t`, with the texts of its copy of the scene that are looked
at here.  The lists and actions the copy points to are those of the scene at
`pstScene`. -/
structure QueueNode where
  iExecDelayed : Int
  iTime : Int
  pstScene : Nat
  acSceneId : CText
  acSceneEnable : CText
deriving DecidableEq, Repr

/-- A timer that runs `_scene_continue_trigger_timer_fun` once: its
`scene_timer_param_t` and its time in seconds. -/
structure ContinueTimer where
  pstCondPtr : Nat
  ulTime : Int
deriving DecidableEq, Repr

/-- `scene_list_class_t`. -/
structure SceneList where
  stList : List SceneNode
  pHashTable : PtrHash
  pstExecQueue : List QueueNode
  timers : List ContinueTimer
  heap : Nat
deriving DecidableEq

/-- The results the operations answer with. -/
inductive ErrNo where
  | noErr
  | notFoundErr
  | sceneAddErr
deriving DecidableEq, Repr

namespace SceneList

/-- The list as it is started. -/
def init : SceneList where
  stList := []
  pHashTable := []
  pstExecQueue := []
  timers := []
  heap := 0

/-- The scene at an address. -/
def scene? (x : SceneList) (a : Nat) : Option SceneInfo :=
  (x.stList.find? fun n => n.addr == a).map SceneNode.stSceneInfo

/-- Writes to the scene at an address. -/
def setScene (x : SceneList) (a : Nat) (s : SceneInfo) : SceneList :=
  { x with stList := x.stList.map fun n => if n.addr = a then { n with stSceneInfo := s } else n }

/-- The node of the hash table at an address. -/
def ptrNode? (x : SceneList) (a : Nat) : Option PtrNode :=
  (x.pHashTable.find? fun e => e.2.addr == a).map Prod.snd

@[simp] theorem pHashTable_setScene (x : SceneList) (a : Nat) (s : SceneInfo) :
    (x.setScene a s).pHashTable = x.pHashTable := rfl

@[simp] theorem pstExecQueue_setScene (x : SceneList) (a : Nat) (s : SceneInfo) :
    (x.setScene a s).pstExecQueue = x.pstExecQueue := rfl

@[simp] theorem heap_setScene (x : SceneList) (a : Nat) (s : SceneInfo) :
    (x.setScene a s).heap = x.heap := rfl

end SceneList

/-! ## Scenes -/

/-- `new_cond_list`. -/
def CondList.new (l : Logic) (k : Kind) : CondList l k where
  stList := []
  iNodeNum := 0
  uiCondSetTrue := match l with | .and => 1 | .or => 0
  iCount := 0

/-- The texts of a scene, as a request gives them. -/
structure SceneText where
  acSceneId : CText
  acSceneName : CText
  acSceneEnable : CText
  acExecDelayed : CText
  acUpdateTime : CText
  acNote : CText
deriving DecidableEq, Repr

/-- The scene `scene_list_add` builds: no conditions, no panels, the words of
the lists at their neutral truth. -/
def SceneInfo.new (i : SceneText) : SceneInfo where
  acSceneId := strncpy indexMaxLen i.acSceneId
  acSceneName := strncpy nameMaxLen i.acSceneName
  cManualTriggerFlag := false
  acSceneEnable := strncpy stateMaxLen i.acSceneEnable
  acExecDelayed := strncpy delayedMaxLen i.acExecDelayed
  acUpdateTime := strncpy timeMaxLen i.acUpdateTime
  acNote := strncpy noteMaxLen i.acNote
  ucSceneCondTrue := false
  pstPanel := []
  stOrCond := ⟨0, .new .or .time, .new .or .event⟩
  stAndCond := ⟨3, .new .and .time, .new .and .event⟩

/-- `scene_list_get`, as the address of the scene. -/
def sceneListGet (x : SceneList) (pcSceneId : CText) : Option Nat :=
  (x.stList.find? fun n =>
    strncmpEq indexMaxLen n.stSceneInfo.acSceneId (strncpy indexMaxLen pcSceneId)).map
      SceneNode.addr

/-- `scene_list_add`. -/
def sceneListAdd (x : SceneList) (i : SceneText) : SceneList :=
  { x with
    stList := { addr := x.heap, stSceneInfo := .new i } :: x.stList
    heap := x.heap + 1 }

/-- `scene_list_set`. -/
def sceneListSet (x : SceneList) (i : SceneText) : SceneList × ErrNo :=
  match sceneListGet x i.acSceneId with
  | none => (x, .notFoundErr)
  | some a =>
    ({ x with
      stList := x.stList.map fun n =>
        if n.addr = a then
          { n with
            stSceneInfo := { n.stSceneInfo with
              acSceneName := strncpy nameMaxLen i.acSceneName
              acSceneEnable := strncpy stateMaxLen i.acSceneEnable
              acExecDelayed := strncpy delayedMaxLen i.acExecDelayed
              acUpdateTime := strncpy timeMaxLen i.acUpdateTime
              acNote := strncpy noteMaxLen i.acNote } }
        else n }, .noErr)

/-- The part of `hyScene_Add` behind the reading of its fields: a scene that
exists is set, another is added. -/
def hySceneAdd (x : SceneList) (i : SceneText) : SceneList :=
  match sceneListGet x i.acSceneId with
  | some _ => (sceneListSet x i).1
  | none => sceneListAdd x i

end Honyar.LocalScene
