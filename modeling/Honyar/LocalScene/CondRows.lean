import Honyar.LocalScene.Entries

/-!
# The table of conditions

`cond_list`, where the conditions of all scenes are kept over a restart: the statements
condition_list.c queues, and the functions that read a list back.  A statement is executed in
its turn; the ones for time conditions and for events are written separately in the source, and
so are the two readers, which go by the position of a column in their `SELECT`.

A text stands between quotes in a statement: one that has a quote itself makes another statement
of it, which is `none` here.  A reader is `none` when it reads behind the array it has
allocated.
-/

namespace Honyar.LocalScene

open CText

variable {k : Kind}

/-! ## Rows -/

/-- `LOGIC_AND`, `LOGIC_OR`. -/
def Logic.text : Logic → CText
  | .and => "And".toList
  | .or => "Or".toList

/-- `COND_TIME`, `COND_EVENT`. -/
def Kind.text : Kind → CText
  | .time => "Time".toList
  | .event => "Event".toList

/-- A row of `cond_list`; a column that an insertion does not name is `NULL`. -/
structure CondRow where
  id : CText
  logic : CText
  condType : CText
  triggerType : Option CText := none
  continueTime : Option CText := none
  triggerInterval : Option CText := none
  timeKey : Option CText := none
  startHour : Option CText := none
  startMinu : Option CText := none
  endHour : Option CText := none
  endMinu : Option CText := none
  week : Option CText := none
  «repeat» : Option CText := none
  timeLose : Option CText := none
  devId : Option CText := none
  key : Option CText := none
  value : Option CText := none
  active : Option CText := none
  lastValue : Option CText := none
deriving DecidableEq

/-- The rows of a list: `id='%s' and logic='%s' and cond_type='%s'`. -/
def CondRow.isOf (id : CText) (l : Logic) (k : Kind) (row : CondRow) : Bool :=
  row.id = id ∧ row.logic = l.text ∧ row.condType = k.text

/-- The row of a condition: `time_key='%s'`, or `dev_id='%s' and key='%s'`. -/
def CondRow.isFor : {k : Kind} → Cond k → CondRow → Bool
  | .time => fun (c : TimeCond) row => row.timeKey = some c.acTimeKey
  | .event => fun (c : EventCond) row => row.devId = some c.acDevId ∧ row.key = some c.acKey

/-! ## Statements -/

/-- A statement with texts between quotes. -/
def statement (texts : List CText) (rows : List CondRow) : Option (List CondRow) :=
  if ∀ t ∈ texts, Char.ofNat 39 ∉ t then some rows else none

/-- The texts of a condition that stand in the statements. -/
def Cond.texts : {k : Kind} → Cond k → List CText
  | .time => fun c : TimeCond =>
    [c.acTimeKey, c.acTriggerType, c.acTriggerInterval, c.acStartHour, c.acStartMinu,
      c.acEndHour, c.acEndMinu, c.acWeek, c.acRepeat, c.acLose]
  | .event => fun c : EventCond =>
    [c.acTriggerType, c.acContinueTime, c.acDevId, c.acKey, c.acValue, c.acActive,
      c.acLastValue]

/-- The texts that say which condition is meant. -/
def Cond.keyTexts : {k : Kind} → Cond k → List CText
  | .time => fun c : TimeCond => [c.acTimeKey]
  | .event => fun c : EventCond => [c.acDevId, c.acKey]

/-- The row `time_cond_add_db` and `event_cond_add_db` insert. -/
def Cond.row (id : CText) (l : Logic) : {k : Kind} → Cond k → CondRow
  | .time => fun c : TimeCond =>
    { id := id
      logic := l.text
      condType := Kind.time.text
      timeKey := some c.acTimeKey
      triggerType := some c.acTriggerType
      triggerInterval := some c.acTriggerInterval
      startHour := some c.acStartHour
      startMinu := some c.acStartMinu
      endHour := some c.acEndHour
      endMinu := some c.acEndMinu
      week := some c.acWeek
      «repeat» := some c.acRepeat
      timeLose := some c.acLose }
  | .event => fun c : EventCond =>
    { id := id
      logic := l.text
      condType := Kind.event.text
      triggerType := some c.acTriggerType
      continueTime := some c.acContinueTime
      devId := some c.acDevId
      key := some c.acKey
      value := some c.acValue
      active := some c.acActive
      lastValue := some c.acLastValue }

/-- What `time_cond_set_db` and `event_cond_set_db` set. -/
def CondRow.set : {k : Kind} → Cond k → CondRow → CondRow
  | .time => fun (c : TimeCond) row =>
    { row with
      triggerType := some c.acTriggerType
      triggerInterval := some c.acTriggerInterval
      startHour := some c.acStartHour
      startMinu := some c.acStartMinu
      endHour := some c.acEndHour
      endMinu := some c.acEndMinu
      week := some c.acWeek
      «repeat» := some c.acRepeat
      timeLose := some c.acLose }
  | .event => fun (c : EventCond) row =>
    { row with
      triggerType := some c.acTriggerType
      continueTime := some c.acContinueTime
      value := some c.acValue
      active := some c.acActive
      lastValue := some c.acLastValue }

/-- `cond_add_db`. -/
def condAddDb (id : CText) (l : Logic) (c : Cond k) (rows : List CondRow) :
    Option (List CondRow) :=
  statement (id :: c.texts) (rows ++ [c.row id l])

/-- `cond_set_db`. -/
def condSetDb (id : CText) (l : Logic) (c : Cond k) (rows : List CondRow) :
    Option (List CondRow) :=
  statement (id :: c.texts)
    (rows.map fun row => if row.isOf id l k ∧ row.isFor c then row.set c else row)

/-- `cond_del_db`. -/
def condDelDb (id : CText) (l : Logic) (c : Cond k) (rows : List CondRow) :
    Option (List CondRow) :=
  statement (id :: c.keyTexts) (rows.filter fun row => ¬ (row.isOf id l k ∧ row.isFor c))

/-! ## Reading -/

/-- `DB_DATA_MAX_LEN`. -/
def dbDataMaxLen : Nat := 128

/-- The columns of the `SELECT`. -/
def CondRow.columns : Kind → CondRow → List (Option CText)
  | .time, row =>
    [row.timeKey, row.triggerType, row.triggerInterval, row.startHour, row.startMinu,
      row.endHour, row.endMinu, row.week, row.repeat, row.timeLose]
  | .event, row =>
    [row.triggerType, row.continueTime, row.devId, row.key, row.value, row.active,
      row.lastValue]

/-- `db_get`: the texts of the rows there is room for, `NULL` as an empty one, and the number
of all rows. -/
def dbGet (rows : List (List (Option CText))) (iMaxRow : Nat) : List (List CText) × Nat :=
  ((rows.take iMaxRow).map fun row => row.map fun t => strncpy dbDataMaxLen (t.getD []),
    rows.length)

/-- What is copied out of the columns of a row, by their positions. -/
def readColumns : (k : Kind) → List CText → Cond k
  | .time => fun t =>
    { acTimeKey := strncpy keyMaxLen (t.getD 0 [])
      acTriggerType := strncpy triggerTypeMaxLen (t.getD 1 [])
      acTriggerInterval := strncpy triggerIntervalMaxLen (t.getD 2 [])
      iTriggerInterval := 0
      acStartHour := strncpy hourMaxLen (t.getD 3 [])
      acStartMinu := strncpy minuMaxLen (t.getD 4 [])
      acEndHour := strncpy hourMaxLen (t.getD 5 [])
      acEndMinu := strncpy minuMaxLen (t.getD 6 [])
      acWeek := strncpy weekMaxLen (t.getD 7 [])
      acRepeat := strncpy stateMaxLen (t.getD 8 [])
      acLose := strncpy stateMaxLen (t.getD 9 []) : TimeCond }
  | .event => fun t =>
    { acTriggerType := strncpy triggerTypeMaxLen (t.getD 0 [])
      acContinueTime := strncpy continueTimeMaxLen (t.getD 1 [])
      acDevId := strncpy devIdMaxLen (t.getD 2 [])
      acKey := strncpy keyMaxLen (t.getD 3 [])
      acValue := strncpy valueMaxLen (t.getD 4 [])
      acActive := strncpy activeMaxLen (t.getD 5 [])
      acLastValue := strncpy activeMaxLen (t.getD 6 []) : EventCond }

/-- The loop over the rows: a row whose first column is empty is passed over. -/
def readLoop {α : Type} (read : List CText → α) :
    List (List CText) → (iRow iInfoMax : Nat) → Option (List α)
  | _, 0, _ => some []
  | _, _ + 1, 0 => some []
  | [], _ + 1, _ + 1 => none
  | t :: ts, iRow + 1, iInfoMax + 1 =>
    if t.getD 0 [] = [] then readLoop read ts iRow (iInfoMax + 1)
    else (readLoop read ts iRow iInfoMax).map (read t :: ·)

/-- `time_cond_get_list_db` and `event_cond_get_list_db`, with room for `iInfoMax`
conditions. -/
def condGetListDb (id : CText) (l : Logic) (k : Kind) (rows : List CondRow) (iInfoMax : Nat) :
    Option (List (Cond k)) :=
  let (astData, iRow) := dbGet ((rows.filter (CondRow.isOf id l k)).map (CondRow.columns k))
    condMaxNum
  readLoop (readColumns k) astData iRow iInfoMax

/-! ## The operations with the table -/

/-- The statement an addition queues.  The manual trigger goes into the table only; a condition
that is refused does not. -/
def sceneCondAddDb (x : SceneList) (a : Nat) (l : Logic) (c : Cond k) (rows : List CondRow) :
    Option (List CondRow) := do
  let s ← x.scene? a
  if c.isManual l then
    if s.cManualTriggerFlag then return rows else condAddDb s.acSceneId l c rows
  else
    match ptrHashFind x.pHashTable c.hashKey s.acSceneId with
    | some _ => condSetDb s.acSceneId l c rows
    | none =>
      if (s.list l k).condAdd x.heap c = none then return rows
      else condAddDb s.acSceneId l c rows

/-- The statement a deletion queues: for the condition that is found. -/
def sceneCondDelDb (x : SceneList) (a : Nat) (l : Logic) (c : Cond k) (rows : List CondRow) :
    Option (List CondRow) := do
  let s ← x.scene? a
  if c.isManual l then
    if s.cManualTriggerFlag then condDelDb s.acSceneId l c rows else return rows
  else
    match ptrHashFind x.pHashTable c.hashKey s.acSceneId with
    | some e => do
      let p ← e.condPtr? k
      let d ← s.node? p
      condDelDb s.acSceneId l d.stCond rows
    | none => return rows

/-- The condition that stands for the manual trigger when all are deleted. -/
def manualCond : EventCond where
  acDevId := List.replicate 16 '0'
  acKey := jsonValueKeyManual
  acTriggerType := []
  acContinueTime := []
  acValue := []
  acActive := []
  acLastValue := []

/-- The statements a clearing queues. -/
def sceneCondClearDb (x : SceneList) (a : Nat) (l : Logic) (k : Kind) (rows : List CondRow) :
    Option (List CondRow) := do
  let s ← x.scene? a
  let rows ← (s.list l k).conds.foldlM (fun rows c => condDelDb s.acSceneId l c rows) rows
  if l = .or ∧ k = .event ∧ s.cManualTriggerFlag then
    condDelDb (k := .event) s.acSceneId .or manualCond rows
  else return rows

/-- An operation on a condition list of the scene. -/
inductive CondOp where
  | add (l : Logic) (k : Kind) (c : Cond k)
  | del (l : Logic) (k : Kind) (c : Cond k)
  | clear (l : Logic) (k : Kind)

/-- The operation in memory and in the table. -/
def CondOp.step (a : Nat) (st : SceneList × List CondRow) :
    CondOp → Option ((SceneList × List CondRow) × List ErrNo)
  | .add l _ c => do
    let rows ← sceneCondAddDb st.1 a l c st.2
    let (x, r) ← sceneCondAdd st.1 a l c
    return ((x, rows), [r])
  | .del l _ c => do
    let rows ← sceneCondDelDb st.1 a l c st.2
    let (x, r) ← sceneCondDel st.1 a l c
    return ((x, rows), [r])
  | .clear l k => do
    let rows ← sceneCondClearDb st.1 a l k st.2
    let x ← sceneCondClear st.1 a l k
    return ((x, rows), [.noErr])

end Honyar.LocalScene
