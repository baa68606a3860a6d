import Honyar.Lib.CText
import Honyar.Lib.Mask

/-!
# The data of the local scene engine

The records of `condition_list.h`, `scene_list.h` and `ptr_hash.h`.

A scene owns four condition lists, one for each logic (`Or`, `And`) and each
type of condition (time, event).  A list is a chain of at most 32 condition
sets, a set a chain of at most 32 conditions.  Truth is kept in words: a bit per
condition in `uiCondTrue` of its set, a bit per set in `uiCondSetTrue` of its
list, a bit per list in `ucCondListTrue` of its logic, and `ucSceneCondTrue`.

The source says which logic and type a list has by two texts of its
`stCondInfo`; here they are indices of the type, so that a list cannot be put in
the place of another and a time condition cannot stand in an event list.  A
pointer to a node is the node's address: `addr` is what `calloc` returned for
it.
-/

namespace Honyar.LocalScene

/-- `LOGIC_AND`, `LOGIC_OR`. -/
inductive Logic where
  | and
  | or
deriving DecidableEq, Repr

/-- `COND_TIME`, `COND_EVENT`. -/
inductive Kind where
  | time
  | event
deriving DecidableEq, Repr

/-- `time_cond_t`. -/
structure TimeCond where
  acTimeKey : CText
  acTriggerType : CText
  acTriggerInterval : CText
  iTriggerInterval : Int
  acStartHour : CText
  acStartMinu : CText
  acEndHour : CText
  acEndMinu : CText
  acWeek : CText
  acRepeat : CText
  acLose : CText
deriving DecidableEq, Repr

/-- `event_cond_t`. -/
structure EventCond where
  acDevId : CText
  acKey : CText
  acTriggerType : CText
  acContinueTime : CText
  acValue : CText
  acActive : CText
  acLastValue : CText
deriving DecidableEq, Repr

/-- `event_t`. -/
structure Event where
  acDevId : CText
  acKey : CText
  acValue : CText
deriving DecidableEq, Repr

/-- The record a condition node of a list of type `k` holds. -/
abbrev Cond : Kind → Type
  | .time => TimeCond
  | .event => EventCond

instance Cond.instDecidableEq : (k : Kind) → DecidableEq (Cond k)
  | .time => inferInstanceAs (DecidableEq TimeCond)
  | .event => inferInstanceAs (DecidableEq EventCond)

/-- `time_cond_node_t`, `event_cond_node_t`; the links are the order of the
chain the node stands in. -/
structure CondNode (k : Kind) where
  addr : Nat
  iCondIndex : Nat
  stCond : Cond k
deriving DecidableEq

/-- `cond_list_node_t` with its `cond_set_t`; `pstCond` is the whole chain. -/
structure CondSetNode (k : Kind) where
  addr : Nat
  iCondSetIndex : Nat
  uiCondTrue : BitVec 32
  ucCondCount : Nat
  pstCond : List (CondNode k)
deriving DecidableEq

/-- `cond_list_class_t`; `stList` is the chain of sets and `iNodeNum` the length
the link list keeps of it. -/
structure CondList (l : Logic) (k : Kind) where
  stList : List (CondSetNode k)
  iNodeNum : Int
  uiCondSetTrue : BitVec 32
  iCount : Int
deriving DecidableEq

/-- `cond_logic_t`: bit 0 of `ucCondListTrue` is the time list, bit 1 the event
list. -/
structure CondLogic (l : Logic) where
  ucCondListTrue : BitVec 8
  pstTimeCondList : CondList l .time
  pstEventCondList : CondList l .event
deriving DecidableEq

/-- `scene_panel_t`. -/
structure ScenePanel where
  acDevId : CText
  acKey : CText
  acValue : CText
  acEnable : CText
deriving DecidableEq, Repr

/-- `scene_panel_node_t`. -/
structure ScenePanelNode where
  addr : Nat
  stPanel : ScenePanel
deriving DecidableEq, Repr

/-- `scene_info_t`, without the action list. -/
structure SceneInfo where
  acSceneId : CText
  acSceneName : CText
  cManualTriggerFlag : Bool
  acSceneEnable : CText
  acExecDelayed : CText
  acUpdateTime : CText
  acNote : CText
  ucSceneCondTrue : Bool
  pstPanel : List ScenePanelNode
  stOrCond : CondLogic .or
  stAndCond : CondLogic .and
deriving DecidableEq

/-- The pointers of a `ptr_info_t` that lead from a scene to one of its
conditions: `pstCondList` (the scene's list of this logic and type),
`pCondSetNode` and `pCondNode`. -/
structure CondPtr (k : Kind) where
  acLogic : Logic
  pCondSetNode : Nat
  pCondNode : Nat
deriving DecidableEq, Repr

/-- A pointer to a condition of either type. -/
abbrev AnyPtr : Type := (k : Kind) × CondPtr k

/-! ## Following and replacing parts of a scene -/

namespace CondSetNode

variable {k : Kind}

/-- The condition node at an address. -/
def node? (n : CondSetNode k) (a : Nat) : Option (CondNode k) :=
  n.pstCond.find? fun c => c.addr == a

/-- Writes the truth word. -/
def setCondTrue (x : BitVec 32) (n : CondSetNode k) : CondSetNode k := { n with uiCondTrue := x }

/-- Writes through a pointer to a condition node. -/
def modifyNode (n : CondSetNode k) (a : Nat) (f : Cond k → Cond k) : CondSetNode k :=
  { n with
    pstCond := n.pstCond.map fun c => if c.addr = a then { c with stCond := f c.stCond } else c }

end CondSetNode

namespace CondList

variable {l : Logic} {k : Kind}

/-- `stCondInfo.acLogic`. -/
def acLogic (_ : CondList l k) : Logic := l

/-- `stCondInfo.acCondType`. -/
def acCondType (_ : CondList l k) : Kind := k

/-- The set node at an address. -/
def set? (x : CondList l k) (a : Nat) : Option (CondSetNode k) :=
  x.stList.find? fun n => n.addr == a

/-- Writes through a pointer to a set node. -/
def modifySet (x : CondList l k) (a : Nat) (f : CondSetNode k → CondSetNode k) : CondList l k :=
  { x with stList := x.stList.map fun n => if n.addr = a then f n else n }

end CondList

namespace CondLogic

variable {l : Logic}

/-- `pstTimeCondList` or `pstEventCondList`. -/
def list (x : CondLogic l) : (k : Kind) → CondList l k
  | .time => x.pstTimeCondList
  | .event => x.pstEventCondList

def setList (x : CondLogic l) : (k : Kind) → CondList l k → CondLogic l
  | .time, y => { x with pstTimeCondList := y }
  | .event, y => { x with pstEventCondList := y }

end CondLogic

/-- The bit of `ucCondListTrue` a list has: `0x1 << 0` for time, `0x1 << 1` for
events. -/
def Kind.listBit : Kind → Nat
  | .time => 0
  | .event => 1

theorem Kind.listBit_lt (k : Kind) : k.listBit < 8 := by cases k <;> decide

theorem Kind.listBit_injective {k k' : Kind} (h : k.listBit = k'.listBit) : k = k' := by
  cases k <;> cases k' <;> first | rfl | exact absurd h (by decide)

namespace SceneInfo

/-- `stOrCond` or `stAndCond`. -/
def logic (s : SceneInfo) : (l : Logic) → CondLogic l
  | .or => s.stOrCond
  | .and => s.stAndCond

def setLogic (s : SceneInfo) : (l : Logic) → CondLogic l → SceneInfo
  | .or, x => { s with stOrCond := x }
  | .and, x => { s with stAndCond := x }

/-- One of the four condition lists. -/
def list (s : SceneInfo) (l : Logic) (k : Kind) : CondList l k := (s.logic l).list k

def setList (s : SceneInfo) (l : Logic) (k : Kind) (x : CondList l k) : SceneInfo :=
  s.setLogic l ((s.logic l).setList k x)

/-- The bit of `ucCondListTrue` that belongs to a list. -/
def listTrue (s : SceneInfo) (l : Logic) (k : Kind) : Bool :=
  (s.logic l).ucCondListTrue.getLsbD k.listBit

/-- Writes the bit of `ucCondListTrue` that belongs to a list. -/
def setListTrue (s : SceneInfo) (l : Logic) (k : Kind) (b : Bool) : SceneInfo :=
  s.setLogic l
    { s.logic l with ucCondListTrue := Mask.write (s.logic l).ucCondListTrue k.listBit b }

@[simp] theorem list_setList_self (s : SceneInfo) (l : Logic) (k : Kind) (x : CondList l k) :
    (s.setList l k x).list l k = x := by
  cases l <;> cases k <;> rfl

theorem list_setList_of_ne (s : SceneInfo) {l l' : Logic} {k k' : Kind} (x : CondList l k)
    (h : ¬ (l' = l ∧ k' = k)) : (s.setList l k x).list l' k' = s.list l' k' := by
  cases l <;> cases k <;> cases l' <;> cases k' <;> first | rfl | exact absurd ⟨rfl, rfl⟩ h

@[simp] theorem listTrue_setList (s : SceneInfo) (l l' : Logic) (k k' : Kind)
    (x : CondList l k) : (s.setList l k x).listTrue l' k' = s.listTrue l' k' := by
  cases l <;> cases k <;> cases l' <;> rfl

@[simp] theorem list_setListTrue (s : SceneInfo) (l l' : Logic) (k k' : Kind) (b : Bool) :
    (s.setListTrue l k b).list l' k' = s.list l' k' := by
  cases l <;> cases l' <;> cases k' <;> rfl

@[simp] theorem listTrue_setListTrue_self (s : SceneInfo) (l : Logic) (k : Kind) (b : Bool) :
    (s.setListTrue l k b).listTrue l k = b := by
  cases l <;> exact Mask.getLsbD_write_self _ k.listBit_lt b

theorem listTrue_setListTrue_of_ne (s : SceneInfo) {l l' : Logic} {k k' : Kind} (b : Bool)
    (h : ¬ (l' = l ∧ k' = k)) : (s.setListTrue l k b).listTrue l' k' = s.listTrue l' k' := by
  have hk : l' = l → k'.listBit ≠ k.listBit := fun hl he => h ⟨hl, Kind.listBit_injective he⟩
  cases l <;> cases l' <;>
    first
    | rfl
    | exact Mask.getLsbD_write_of_ne _ k.listBit_lt b (hk rfl)

@[simp] theorem ucSceneCondTrue_setList (s : SceneInfo) (l : Logic) (k : Kind)
    (x : CondList l k) : (s.setList l k x).ucSceneCondTrue = s.ucSceneCondTrue := by
  cases l <;> cases k <;> rfl

@[simp] theorem ucSceneCondTrue_setListTrue (s : SceneInfo) (l : Logic) (k : Kind) (b : Bool) :
    (s.setListTrue l k b).ucSceneCondTrue = s.ucSceneCondTrue := by
  cases l <;> rfl

end SceneInfo

end Honyar.LocalScene
