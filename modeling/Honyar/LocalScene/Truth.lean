import Honyar.LocalScene.Value

/-!
# The truth words of a scene

The functions of `scene_list.c` that keep the truth words up to date.

`scene_event_cond_true_init` and `scene_time_cond_true_init` write the bit of
one condition and recompute every level above it; `..._cond_set_true_init` start
one level higher, at the set.  `scene_event_cond_true_update` and
`scene_time_cond_true_update` do the same work but stop at the first level that
did not change, and then decide whether the scene is executed.  The time and the
event functions of the source are copies of each other up to the bit of
`ucCondListTrue` they use, which is `Kind.listBit` here; the two updates also
differ in what they trigger.
-/

namespace Honyar.LocalScene

open CText

/-- The truth of a word of `n` members: some bit for `Or`, all bits for `And`. -/
def Logic.wordTrue (l : Logic) (x : BitVec 32) (n : Nat) : Bool :=
  match l with
  | .or => Mask.anyLow x n
  | .and => Mask.allLow x n

/-- `stList.size`, as the count of members it is used for. -/
def CondList.size {l : Logic} {k : Kind} (x : CondList l k) : Nat := x.iNodeNum.toNat

namespace SceneInfo

/-- The four cases that decide `iNewSceneTrue`. -/
def newSceneTrue (s : SceneInfo) : Bool :=
  let orCount := s.stOrCond.pstTimeCondList.iCount + s.stOrCond.pstEventCondList.iCount
  let andCount := s.stAndCond.pstTimeCondList.iCount + s.stAndCond.pstEventCondList.iCount
  if 0 = orCount ∧ 0 = andCount then false
  else if 0 ≠ orCount ∧ 0 = andCount then Mask.anyLow s.stOrCond.ucCondListTrue 2
  else if 0 = orCount ∧ 0 ≠ andCount then Mask.allLow s.stAndCond.ucCondListTrue 2
  else Mask.anyLow s.stOrCond.ucCondListTrue 2 && Mask.allLow s.stAndCond.ucCondListTrue 2

variable {k : Kind}

/-- The set node a pointer leads to. -/
def set? (s : SceneInfo) (p : CondPtr k) : Option (CondSetNode k) :=
  (s.list p.acLogic k).set? p.pCondSetNode

/-- The condition node a pointer leads to. -/
def node? (s : SceneInfo) (p : CondPtr k) : Option (CondNode k) := do
  (← s.set? p).node? p.pCondNode

/-- Writes through `pCondSetNode`. -/
def modifySet (s : SceneInfo) (p : CondPtr k) (f : CondSetNode k → CondSetNode k) : SceneInfo :=
  s.setList p.acLogic k ((s.list p.acLogic k).modifySet p.pCondSetNode f)

/-- Writes through `pCondNode`. -/
def modifyCond (s : SceneInfo) (p : CondPtr k) (f : Cond k → Cond k) : SceneInfo :=
  s.modifySet p fun n => n.modifyNode p.pCondNode f

/-- Writes the bit of a set in `uiCondSetTrue` of its list. -/
def writeCondSetTrue (s : SceneInfo) (l : Logic) (k : Kind) (iCondSetIndex : Nat) (b : Bool) :
    SceneInfo :=
  s.setList l k
    { s.list l k with
      uiCondSetTrue := Mask.write (s.list l k).uiCondSetTrue iCondSetIndex b }

/-- `iNewCondListTrue`: the truth of a list, from the bits of its sets. -/
def newCondListTrue (s : SceneInfo) (l : Logic) (k : Kind) : Bool :=
  l.wordTrue (s.list l k).uiCondSetTrue (s.list l k).size

end SceneInfo

/-! ## Recomputing without a short cut -/

/-- `scene_event_cond_set_true_init`, `scene_time_cond_set_true_init`: writes
the truth of a set and recomputes its list and the scene. -/
def condSetTrueInit (s : SceneInfo) (l : Logic) (k : Kind) (iCondSetIndex : Nat) (b : Bool) :
    SceneInfo :=
  let s := s.writeCondSetTrue l k iCondSetIndex b
  let s := s.setListTrue l k (s.newCondListTrue l k)
  { s with ucSceneCondTrue := s.newSceneTrue }

/-- Writes the truth of a condition and recomputes its set, its list and the
scene. -/
def condTrueInit {k : Kind} (s : SceneInfo) (p : CondPtr k) (iCondTrue : Bool) :
    Option SceneInfo := do
  let n ← s.set? p
  let c ← n.node? p.pCondNode
  let uiCondTrue := Mask.write n.uiCondTrue c.iCondIndex iCondTrue
  let s := s.modifySet p (CondSetNode.setCondTrue uiCondTrue)
  return condSetTrueInit s p.acLogic k n.iCondSetIndex (p.acLogic.wordTrue uiCondTrue n.ucCondCount)

/-- `scene_event_cond_true_init`. -/
def sceneEventCondTrueInit (s : SceneInfo) (iCondTrue : Bool) (pstCondPtr : CondPtr .event) :
    Option SceneInfo :=
  condTrueInit s pstCondPtr iCondTrue

/-- `scene_time_cond_true_init`. -/
def sceneTimeCondTrueInit (s : SceneInfo) (iCondTrue : Bool) (pstCondPtr : CondPtr .time) :
    Option SceneInfo :=
  condTrueInit s pstCondPtr iCondTrue

/-! ## Recomputing with short cuts -/

/-- The part of an update above the condition's set: the list and the scene are
looked at only as long as the level below them changed. -/
def condSetTrueUpdate (s : SceneInfo) (l : Logic) (k : Kind) (iCondSetIndex : Nat)
    (iNewCondSetTrue : Bool) : SceneInfo :=
  let iOldCondSetTrue := Mask.test (s.list l k).uiCondSetTrue iCondSetIndex
  if iNewCondSetTrue ≠ iOldCondSetTrue then
    let s := s.writeCondSetTrue l k iCondSetIndex iNewCondSetTrue
    let iNewCondListTrue := s.newCondListTrue l k
    let iOldCondListTrue := Mask.test (s.logic l).ucCondListTrue k.listBit
    if iNewCondListTrue ≠ iOldCondListTrue then
      let s := s.setListTrue l k iNewCondListTrue
      let iNewSceneTrue := s.newSceneTrue
      if iNewSceneTrue ≠ s.ucSceneCondTrue then { s with ucSceneCondTrue := iNewSceneTrue }
      else s
    else s
  else s

/-- The common part of the two updates: the scene afterwards, and the truth the
condition had before. -/
def condTrueUpdate {k : Kind} (s : SceneInfo) (p : CondPtr k) (iNewCondTrue : Bool) :
    Option (SceneInfo × Bool) := do
  let n ← s.set? p
  let c ← n.node? p.pCondNode
  let iOldCondTrue := Mask.test n.uiCondTrue c.iCondIndex
  if iNewCondTrue ≠ iOldCondTrue then
    let uiCondTrue := Mask.write n.uiCondTrue c.iCondIndex iNewCondTrue
    let s := s.modifySet p (CondSetNode.setCondTrue uiCondTrue)
    let s := condSetTrueUpdate s p.acLogic k n.iCondSetIndex
      (p.acLogic.wordTrue uiCondTrue n.ucCondCount)
    return (s, iOldCondTrue)
  else
    return (s, iOldCondTrue)

/-- What an update sets off: `scene_exec` of the scene, or a timer of so many
seconds whose expiry looks at the scene again. -/
inductive Trigger where
  | exec
  | timer (ulTime : Int)
deriving DecidableEq, Repr

def triggerEvery : CText := ['E', 'v', 'e', 'r', 'y']
def triggerContinue : CText := ['C', 'o', 'n', 't', 'i', 'n', 'u', 'e']
def triggerInstant : CText := ['I', 'n', 's', 't', 'a', 'n', 't']

/-- What a rising event condition does when the whole scene is true. -/
def EventCond.trigger (c : EventCond) : List Trigger :=
  if strstr c.acTriggerType triggerContinue then
    if atoi c.acContinueTime > 0 then [.timer (atoi c.acContinueTime)] else [.exec]
  else if strstr c.acTriggerType triggerInstant then [.exec]
  else []

/-- `scene_event_cond_true_update` up to its last statement. -/
def sceneEventCondTrueUpdateOnce (s : SceneInfo) (iCondTrue : Bool)
    (pstCondPtr : CondPtr .event) : Option (SceneInfo × List Trigger) := do
  let c ← s.node? pstCondPtr
  let (s, iOldCondTrue) ← condTrueUpdate s pstCondPtr iCondTrue
  if iCondTrue && !iOldCondTrue && s.ucSceneCondTrue then return (s, c.stCond.trigger)
  else return (s, [])

/-- `scene_event_cond_true_update`.  The last statement calls the function
again, with `0`, for a condition that triggers every time; that call does not
call it a third time. -/
def sceneEventCondTrueUpdate (s : SceneInfo) (iCondTrue : Bool) (pstCondPtr : CondPtr .event) :
    Option (SceneInfo × List Trigger) := do
  let c ← s.node? pstCondPtr
  let (s, t) ← sceneEventCondTrueUpdateOnce s iCondTrue pstCondPtr
  if strstr c.stCond.acTriggerType triggerEvery && iCondTrue then
    let (s, t') ← sceneEventCondTrueUpdateOnce s false pstCondPtr
    return (s, t ++ t')
  else return (s, t)

/-- `iTriggerInterval` after the scene was put into the queue. -/
def TimeCond.resetInterval (c : TimeCond) : TimeCond :=
  { c with iTriggerInterval := atoi c.acTriggerInterval - 1 }

/-- `iTriggerInterval` after a check at which it had not run out. -/
def TimeCond.countInterval (c : TimeCond) : TimeCond :=
  { c with iTriggerInterval := c.iTriggerInterval - 1 }

/-- `scene_time_cond_true_update`. -/
def sceneTimeCondTrueUpdate (s : SceneInfo) (iCondTrue : Bool) (pstCondPtr : CondPtr .time) :
    Option (SceneInfo × List Trigger) := do
  let c ← s.node? pstCondPtr
  let iEveryTrigger := strstr c.stCond.acTriggerType triggerEvery
  let (s, iOldCondTrue) ← condTrueUpdate s pstCondPtr iCondTrue
  if iCondTrue ≠ iOldCondTrue then
    if iCondTrue && !iOldCondTrue && s.ucSceneCondTrue then
      return (s.modifyCond pstCondPtr TimeCond.resetInterval, [.exec])
    else return (s, [])
  else if iEveryTrigger && iCondTrue && s.ucSceneCondTrue then
    if c.stCond.iTriggerInterval ≤ 0 then
      return (s.modifyCond pstCondPtr TimeCond.resetInterval, [.exec])
    else return (s.modifyCond pstCondPtr TimeCond.countInterval, [])
  else return (s, [])

end Honyar.LocalScene
