import Honyar.LocalScene.ActionTable
import Honyar.LocalScene.CondRows
import Honyar.LocalScene.Request
import Honyar.Lib.Literals
import Mathlib.Algebra.Order.BigOperators.Group.List

/-!
# The texts of the statements

What condition_list.c and action_list.c print into `acSql` and queue: a format, with the texts of
the call between quotes.  The texts are pasted as they are.  Nothing is cut, since all texts of a
statement fit the buffer together; but a quote in one of them ends its literal.
-/

namespace Honyar.LocalScene

open CText Literals List

def sqlMaxLen : Nat := 4096
def condTypeMaxLen : Nat := 64

/-! ## Formats -/

/-- `%s='%s'`, with the name of a column. -/
def equals (column : CText) : CText := column ++ "='%s'".toList

def commas (ts : List CText) : CText := List.intercalate ", ".toList ts

def ands (ts : List CText) : CText := List.intercalate " and ".toList ts

/-- `INSERT INTO`. -/
def insertFormat (table : CText) (columns : List CText) : CText :=
  "\t\tINSERT INTO ".toList ++ table ++ " \t\t\t(".toList ++ commas columns ++
    ") \t\tVALUES \t\t\t(".toList ++ commas (columns.map fun _ => "'%s'".toList) ++ ");\t\t".toList

/-- `UPDATE`. -/
def updateFormat (table : CText) (sets wheres : List CText) : CText :=
  "\t\tUPDATE ".toList ++ table ++ " \t\tSET ".toList ++ commas (sets.map equals) ++
    "\t\tWHERE ".toList ++ ands (wheres.map equals) ++ ";\t\t".toList

/-- `DELETE FROM`. -/
def deleteFormat (table : CText) (wheres : List CText) : CText :=
  "\t\tDELETE FROM ".toList ++ table ++ " \t\tWHERE ".toList ++ ands (wheres.map equals) ++
    ";\t\t".toList

/-- `DB_TABLE_NAME_COND`. -/
def dbTableNameCond : CText := "cond_list".toList

/-- `DB_TABLE_NAME_ACTION`. -/
def dbTableNameAction : CText := "action_list".toList

def condColumns : List CText := ["id".toList, "logic".toList, "cond_type".toList]

def timeValueColumns : List CText :=
  ["trigger_type".toList, "trigger_interval".toList, "start_hour".toList, "start_minu".toList,
    "end_hour".toList, "end_minu".toList, "week".toList, "repeat".toList, "time_lose".toList]

/-- `time_cond_add_db`. -/
def timeCondAddFormat : CText :=
  insertFormat dbTableNameCond (condColumns ++ "time_key".toList :: timeValueColumns)

/-- `time_cond_set_db`. -/
def timeCondSetFormat : CText :=
  updateFormat dbTableNameCond timeValueColumns (condColumns ++ ["time_key".toList])

/-- `time_cond_del_db`. -/
def timeCondDelFormat : CText := deleteFormat dbTableNameCond (condColumns ++ ["time_key".toList])

/-- `event_cond_add_db`. -/
def eventCondAddFormat : CText :=
  insertFormat dbTableNameCond (condColumns ++
    ["trigger_type".toList, "continue_time".toList, "dev_id".toList, "key".toList, "value".toList,
      "active".toList, "last_value".toList])

/-- `event_cond_set_db`. -/
def eventCondSetFormat : CText :=
  updateFormat dbTableNameCond
    ["trigger_type".toList, "continue_time".toList, "value".toList, "active".toList,
      "last_value".toList]
    (condColumns ++ ["dev_id".toList, "key".toList])

/-- `event_cond_del_db`. -/
def eventCondDelFormat : CText :=
  deleteFormat dbTableNameCond (condColumns ++ ["dev_id".toList, "key".toList])

/-- `action_list_add_db`. -/
def actionListAddFormat : CText :=
  insertFormat dbTableNameAction
    ["id".toList, "action_id".toList, "dev_id".toList, "key".toList, "value_coding".toList,
      "value".toList]

/-- `action_list_set_db`. -/
def actionListSetFormat : CText :=
  updateFormat dbTableNameAction ["value_coding".toList, "value".toList]
    ["id".toList, "action_id".toList, "dev_id".toList, "key".toList]

/-- `action_list_del_db`, which has no space before its last `and`. -/
def actionListDelFormat : CText :=
  "\t\tDELETE FROM ".toList ++ dbTableNameAction ++ " \t\tWHERE ".toList ++
    ands (["id".toList, "action_id".toList, "dev_id".toList].map equals) ++ "and ".toList ++
    equals "key".toList ++ ";\t\t".toList

/-! ## Statements -/

/-- A text, and the width of the array it is in. -/
abbrev Field := CText × Nat

/-- A format with the fields that are printed into it. -/
structure Sql where
  format : CText
  fields : List Field

namespace Sql

/-- `snprintf(acSql, SQL_MAX_LEN, ...)`. -/
def acSql (q : Sql) : CText := snprintf sqlMaxLen [fill (pieces q.format) (q.fields.map Prod.fst)]

/-- What `db_add_asyn`, `db_set_asyn` and `db_del_asyn` queue. -/
def queued (q : Sql) : CText := strncpy sqlMaxLen q.acSql

/-- The texts fit their arrays. -/
def Fits (q : Sql) : Prop := ∀ f ∈ q.fields, f.1.length ≤ f.2

/-- The statement is whole, it is one, and its literals are the texts. -/
def Means (q : Sql) : Prop :=
  q.queued = fill (pieces q.format) (q.fields.map Prod.fst) ∧
    ∃ toks, lex .outside q.queued = some toks ∧ Single toks ∧ literals toks = q.fields.map Prod.fst

/-- The room the format and texts of these widths need. -/
def room (format : CText) (widths : List Nat) : Nat :=
  ((pieces format).map List.length).sum + (widths.map (· + 2)).sum

/-- The format takes as many texts as there are widths, and has room for them in the buffer. -/
def Holds (format : CText) (widths : List Nat) : Prop :=
  Apart (pieces format) ∧ ended (pieces format) = true ∧
    (pieces format).length = widths.length + 1 ∧ room format widths < sqlMaxLen

instance decidableHolds (format : CText) (widths : List Nat) : Decidable (Holds format widths) :=
  inferInstanceAs (Decidable (_ ∧ _))

end Sql

/-- `stCondInfo` of a list. -/
def condFields (id : CText) (l : Logic) (k : Kind) : List Field :=
  [(id, indexMaxLen), (l.text, logicMaxLen), (k.text, condTypeMaxLen)]

section

variable (id : CText) (l : Logic)

/-- The fields of a time condition but its key. -/
def TimeCond.fields (c : TimeCond) : List Field :=
  [(c.acTriggerType, triggerTypeMaxLen), (c.acTriggerInterval, triggerIntervalMaxLen),
    (c.acStartHour, hourMaxLen), (c.acStartMinu, minuMaxLen), (c.acEndHour, hourMaxLen),
    (c.acEndMinu, minuMaxLen), (c.acWeek, weekMaxLen), (c.acRepeat, stateMaxLen),
    (c.acLose, stateMaxLen)]

def timeCondAddSql (c : TimeCond) : Sql :=
  ⟨timeCondAddFormat, condFields id l .time ++ (c.acTimeKey, keyMaxLen) :: c.fields⟩

def timeCondSetSql (c : TimeCond) : Sql :=
  ⟨timeCondSetFormat, c.fields ++ condFields id l .time ++ [(c.acTimeKey, keyMaxLen)]⟩

def timeCondDelSql (c : TimeCond) : Sql :=
  ⟨timeCondDelFormat, condFields id l .time ++ [(c.acTimeKey, keyMaxLen)]⟩

/-- The fields that name an event. -/
def EventCond.keyFields (c : EventCond) : List Field :=
  [(c.acDevId, devIdMaxLen), (c.acKey, keyMaxLen)]

def eventCondAddSql (c : EventCond) : Sql :=
  ⟨eventCondAddFormat, condFields id l .event ++
    [(c.acTriggerType, triggerTypeMaxLen), (c.acContinueTime, continueTimeMaxLen)] ++ c.keyFields ++
    [(c.acValue, valueMaxLen), (c.acActive, activeMaxLen), (c.acLastValue, valueMaxLen)]⟩

def eventCondSetSql (c : EventCond) : Sql :=
  ⟨eventCondSetFormat,
    [(c.acTriggerType, triggerTypeMaxLen), (c.acContinueTime, continueTimeMaxLen),
      (c.acValue, valueMaxLen), (c.acActive, activeMaxLen), (c.acLastValue, valueMaxLen)] ++
    condFields id l .event ++ c.keyFields⟩

def eventCondDelSql (c : EventCond) : Sql :=
  ⟨eventCondDelFormat, condFields id l .event ++ c.keyFields⟩

/-- The fields that name an action. -/
def ActionInfo.keyFields (i : ActionInfo) : List Field :=
  [(id, indexMaxLen), (i.acActionId, actionIdMaxLen), (i.acDevId, devIdMaxLen),
    (i.acKey, keyMaxLen)]

def ActionInfo.valueFields (i : ActionInfo) : List Field :=
  [(i.acValueCoding, valueCodingMaxLen), (i.acValue, valueMaxLen)]

def actionListAddSql (i : ActionInfo) : Sql :=
  ⟨actionListAddFormat, i.keyFields id ++ i.valueFields⟩

def actionListSetSql (i : ActionInfo) : Sql :=
  ⟨actionListSetFormat, i.valueFields ++ i.keyFields id⟩

def actionListDelSql (i : ActionInfo) : Sql := ⟨actionListDelFormat, i.keyFields id⟩

end

/-- A call that queues a statement. -/
inductive SqlCall where
  | timeCondAdd (pstCondInfo : TimeCond)
  | timeCondSet (pstCondInfo : TimeCond)
  | timeCondDel (pstCondInfo : TimeCond)
  | eventCondAdd (pstCondInfo : EventCond)
  | eventCondSet (pstCondInfo : EventCond)
  | eventCondDel (pstCondInfo : EventCond)
  | actionAdd (pstActionInfo : ActionInfo)
  | actionSet (pstActionInfo : ActionInfo)
  | actionDel (pstActionInfo : ActionInfo)

/-- The statement of a call, for a list of the scene. -/
def SqlCall.sql (id : CText) (l : Logic) : SqlCall → Sql
  | .timeCondAdd c => timeCondAddSql id l c
  | .timeCondSet c => timeCondSetSql id l c
  | .timeCondDel c => timeCondDelSql id l c
  | .eventCondAdd c => eventCondAddSql id l c
  | .eventCondSet c => eventCondSetSql id l c
  | .eventCondDel c => eventCondDelSql id l c
  | .actionAdd i => actionListAddSql id i
  | .actionSet i => actionListSetSql id i
  | .actionDel i => actionListDelSql id i

/-! ## What is printed -/

theorem SqlCall.holds (id : CText) (l : Logic) (call : SqlCall) :
    Sql.Holds (call.sql id l).format ((call.sql id l).fields.map Prod.snd) := by
  cases call
  all_goals
    simp only [sql, timeCondAddSql, timeCondSetSql, timeCondDelSql, eventCondAddSql,
      eventCondSetSql, eventCondDelSql, actionListAddSql, actionListSetSql, actionListDelSql,
      condFields, TimeCond.fields, EventCond.keyFields, ActionInfo.keyFields,
      ActionInfo.valueFields, cons_append, nil_append, map_cons, map_nil]
    decide +kernel

namespace Sql

variable {q : Sql}

theorem length_fill {ps ts : List CText} (hlen : ps.length = ts.length + 1) :
    (fill ps ts).length = (ps.map List.length).sum + (ts.map (·.length + 2)).sum := by
  induction ts generalizing ps with
  | nil =>
    obtain ⟨p, rfl⟩ := length_eq_one_iff.mp hlen
    rfl
  | cons t ts ih =>
    obtain _ | ⟨p, ps⟩ := ps
    · cases hlen
    · rw [fill, length_append, length_append, length_cons, length_cons,
        ih (Nat.succ.inj hlen), map_cons, map_cons, sum_cons, sum_cons]
      omega

theorem queued_eq (hq : Holds q.format (q.fields.map Prod.snd)) (hfits : q.Fits) :
    q.queued = fill (pieces q.format) (q.fields.map Prod.fst) := by
  obtain ⟨-, -, hlen, hroom⟩ := hq
  rw [length_map] at hlen
  have hle : ((q.fields.map Prod.fst).map (·.length + 2)).sum ≤
      ((q.fields.map Prod.snd).map (· + 2)).sum := by
    rw [map_map, map_map]
    exact sum_le_sum fun f hf => Nat.add_le_add_right (hfits f hf) 2
  have hshort : (fill (pieces q.format) (q.fields.map Prod.fst)).length < sqlMaxLen := by
    rw [length_fill (by rw [length_map, hlen])]
    exact (Nat.add_le_add_left hle _).trans_lt hroom
  rw [queued, acSql, snprintf, strncpy, flatten_singleton,
    take_of_length_le (Nat.le_sub_one_of_lt hshort), take_of_length_le hshort.le]

theorem means_iff (hq : Holds q.format (q.fields.map Prod.snd)) (hfits : q.Fits) :
    q.Means ↔ ∀ f ∈ q.fields, quote ∉ f.1 := by
  have hlen : (pieces q.format).length = (q.fields.map Prod.fst).length + 1 := by
    rw [hq.2.2.1, length_map, length_map]
  have hqueued := queued_eq hq hfits
  rw [Means, and_iff_right hqueued, hqueued, lex_fill_iff hq.1 hq.2.1 hlen, forall_mem_map]

end Sql

/-- The texts of a call. -/
def SqlCall.texts : SqlCall → List CText
  | .timeCondAdd c | .timeCondSet c => Cond.texts (k := .time) c
  | .timeCondDel c => Cond.keyTexts (k := .time) c
  | .eventCondAdd c | .eventCondSet c => Cond.texts (k := .event) c
  | .eventCondDel c => Cond.keyTexts (k := .event) c
  | .actionAdd i | .actionSet i => i.texts
  | .actionDel i => i.keyTexts

theorem Logic.quote_notMem_text (l : Logic) : quote ∉ l.text := by cases l <;> decide

theorem Kind.quote_notMem_text (k : Kind) : quote ∉ k.text := by cases k <;> decide

theorem SqlCall.quotable_iff (id : CText) (l : Logic) (call : SqlCall) :
    (∀ f ∈ (call.sql id l).fields, quote ∉ f.1) ↔ Quotable (id :: call.texts) := by
  have hl := l.quote_notMem_text
  have htime := Kind.time.quote_notMem_text
  have hevent := Kind.event.quote_notMem_text
  rw [Quotable, show Char.ofNat 39 = quote from rfl]
  cases call
  all_goals
    simp only [sql, timeCondAddSql, timeCondSetSql, timeCondDelSql, eventCondAddSql,
      eventCondSetSql, eventCondDelSql, actionListAddSql, actionListSetSql, actionListDelSql,
      condFields, TimeCond.fields, EventCond.keyFields, ActionInfo.keyFields,
      ActionInfo.valueFields, texts, Cond.texts, Cond.keyTexts, ActionInfo.texts,
      ActionInfo.keyTexts, cons_append, nil_append, forall_mem_cons,
      not_mem_nil, false_implies, implies_true, and_true, hl, htime, hevent, not_false_eq_true,
      true_and]
  all_goals tauto

theorem SqlCall.means_iff_quotable (id : CText) (l : Logic) (call : SqlCall)
    (hfits : (call.sql id l).Fits) : (call.sql id l).Means ↔ Quotable (id :: call.texts) :=
  (Sql.means_iff (call.holds id l) hfits).trans (call.quotable_iff id l)

end Honyar.LocalScene
