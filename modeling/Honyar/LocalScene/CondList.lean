import Honyar.LocalScene.Truth

/-!
# Adding to and deleting from condition lists

The functions of `condition_list.c` that change a list: `cond_add`, `cond_del`
and `cond_set`, for time and event conditions at once.  The two additions differ
in where a new set goes, which is `Kind.instSet`; the deletions are copies of
each other.

Nothing here writes a truth word, except that a list that becomes empty or
stops being empty is given a default.

`none` of `condDel` is memory the source may not touch: a dangling pointer.  A
condition may be deleted through a list that is not its own; the source then
counts down the list it was called with, and so does the model.  The database
calls answer `NoErr`.
-/

namespace Honyar.LocalScene

open CText

variable {l : Logic} {k : Kind}

/-! ## Sets -/

namespace CondSetNode

/-- The set `new_node` allocates. -/
def new (addr : Nat) : CondSetNode k where
  addr := addr
  iCondSetIndex := 0
  uiCondTrue := 0
  ucCondCount := 0
  pstCond := []

/-- The index behind the last condition of a chain. -/
def nextIndex (n : CondSetNode k) : Nat :=
  match n.pstCond.getLast? with
  | none => 0
  | some p => p.iCondIndex + 1

/-- Links a new condition behind the last one. -/
def addNode (n : CondSetNode k) (addr : Nat) (c : Cond k) : CondSetNode k :=
  { n with
    ucCondCount := n.ucCondCount + 1
    pstCond := n.pstCond ++ [{ addr := addr, iCondIndex := n.nextIndex, stCond := c }] }

/-- Unlinks a condition; the ones behind it move down by one. -/
def delNode (n : CondSetNode k) (a : Nat) : CondSetNode k :=
  { n with
    ucCondCount := n.ucCondCount - 1
    pstCond :=
      n.pstCond.takeWhile (·.addr != a) ++
        ((n.pstCond.dropWhile (·.addr != a)).drop 1).map fun c =>
          { c with iCondIndex := c.iCondIndex - 1 } }

end CondSetNode

/-! ## Lists -/

/-- `inst_tail` for a set of time conditions, `inst_head` for one of event
conditions. -/
def Kind.instSet {α : Type} : Kind → List α → α → List α
  | .time, xs, x => xs ++ [x]
  | .event, xs, x => x :: xs

/-- The loop of `cond_list_update_index`, from its counter `i` on. -/
def updateIndexFrom : Nat → List (CondSetNode k) → List (CondSetNode k)
  | _, [] => []
  | i, n :: ns => { n with iCondSetIndex := i } :: updateIndexFrom (i + 1) ns

namespace CondList

/-- The sets a walk from `first` meets: `first` is `NULL` when the link list
counts no node. -/
def walk (x : CondList l k) : List (CondSetNode k) :=
  if x.iNodeNum = 0 then [] else x.stList

theorem walk_eq {x : CondList l k} (h : x.iNodeNum = x.stList.length) : x.walk = x.stList := by
  rw [walk]
  split
  · rename_i hzero
    rw [hzero] at h
    exact (List.length_eq_zero_iff.mp (Int.ofNat_eq_zero.mp h.symm)).symm
  · rfl

/-- `cond_list_update_index`. -/
def updateIndex (x : CondList l k) : CondList l k :=
  if x.iNodeNum = 0 then x else { x with stList := updateIndexFrom 0 x.stList }

/-- Puts a new set into the list and numbers the sets again. -/
def instSet (x : CondList l k) (n : CondSetNode k) : CondList l k :=
  updateIndex { x with stList := k.instSet x.stList n, iNodeNum := x.iNodeNum + 1 }

/-- Adds a condition to the set at `a`. -/
def addCond (x : CondList l k) (a addr : Nat) (c : Cond k) : CondList l k :=
  let x := x.modifySet a fun n => n.addNode addr c
  { x with
    iCount := x.iCount + 1
    uiCondSetTrue := if 1 = x.iCount + 1 then 0 else x.uiCondSetTrue }

/-- `time_cond_add`, `event_cond_add`: `none` when the list is full
(`SceneAddErr`); `heap` and the address behind it are what `calloc` returns. -/
def condAdd (x : CondList l k) (heap : Nat) (c : Cond k) : Option (CondList l k × CondPtr k) :=
  match x.walk.find? fun n => n.ucCondCount < 32 with
  | some n => some (x.addCond n.addr (heap + 1) c, ⟨l, n.addr, heap + 1⟩)
  | none =>
    if x.iNodeNum ≥ 32 then none
    else some ((x.instSet (.new heap)).addCond heap (heap + 1) c, ⟨l, heap, heap + 1⟩)

/-- One condition less; the list gets its default word when it was the last. -/
def countDown (x : CondList l k) : CondList l k :=
  { x with
    iCount := x.iCount - 1
    uiCondSetTrue :=
      if 0 = x.iCount - 1 then (match l with | .and => 1 | .or => 0) else x.uiCondSetTrue }

/-- Unlinks the set at `a`. -/
def unlink (x : CondList l k) (a : Nat) : CondList l k :=
  { x with stList := x.stList.filter (·.addr != a) }

/-- `stList.clear`: nodes are deleted from the head until the link list counts
none or has none. -/
def clear (x : CondList l k) : CondList l k :=
  let n := if 0 ≤ x.iNodeNum then min x.iNodeNum.toNat x.stList.length else x.stList.length
  { x with stList := x.stList.drop n, iNodeNum := x.iNodeNum - n }

end CondList

/-! ## Records -/

/-- `time_cond_set`; `acTimeKey` and the running counter stay. -/
def TimeCond.set (c i : TimeCond) : TimeCond :=
  { c with
    acTriggerType := strncpy triggerTypeMaxLen i.acTriggerType
    acTriggerInterval := strncpy triggerIntervalMaxLen i.acTriggerInterval
    acStartHour := strncpy hourMaxLen i.acStartHour
    acStartMinu := strncpy minuMaxLen i.acStartMinu
    acEndHour := strncpy hourMaxLen i.acEndHour
    acEndMinu := strncpy minuMaxLen i.acEndMinu
    acWeek := strncpy weekMaxLen i.acWeek
    acRepeat := strncpy stateMaxLen i.acRepeat
    acLose := ['0'] }

/-- `event_cond_set`; `acDevId` and `acKey` stay. -/
def EventCond.set (c i : EventCond) : EventCond :=
  { c with
    acTriggerType := strncpy triggerTypeMaxLen i.acTriggerType
    acContinueTime := strncpy continueTimeMaxLen i.acContinueTime
    acValue := strncpy valueMaxLen i.acValue
    acActive := strncpy activeMaxLen i.acActive
    acLastValue := strncpy valueMaxLen i.acLastValue }

/-- `cond_set`. -/
def Cond.set : {k : Kind} → Cond k → Cond k → Cond k
  | .time => TimeCond.set
  | .event => EventCond.set

/-! ## Deleting -/

namespace SceneInfo

/-- Writes to one of the four lists. -/
def modifyList (s : SceneInfo) (l : Logic) (k : Kind) (f : CondList l k → CondList l k) :
    SceneInfo :=
  s.setList l k (f (s.list l k))

/-- `time_cond_del`, `event_cond_del`, called with the list of logic `l`.  When
that is not the list the last set of which goes, the other list keeps a tail
pointer to the freed node. -/
def condDel (s : SceneInfo) (l : Logic) (p : CondPtr k) : Option SceneInfo := do
  let n ← s.set? p
  let c ← n.node? p.pCondNode
  if 1 = n.ucCondCount then
    if p.acLogic ≠ l ∧ (s.list p.acLogic k).stList.getLast? = some n then none
    else
      let s := s.modifyList l k CondList.countDown
      let s := s.modifyList p.acLogic k fun x => x.unlink n.addr
      return s.modifyList l k fun x => CondList.updateIndex { x with iNodeNum := x.iNodeNum - 1 }
  else
    let s := s.modifySet p fun n => n.delNode c.addr
    return s.modifyList l k fun x => { x with iCount := x.iCount - 1 }

end SceneInfo

end Honyar.LocalScene
