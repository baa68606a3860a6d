import Honyar.LocalScene.ActionList
import Honyar.Lib.Run

/-!
# The table of actions

`action_list`, where the actions of all scenes are kept over a restart: the statements
action_list.c queues, in the order in which it queues them, and `scene_action_clear`, which
clears a list through the scenes.  A text that has a quote makes another statement of the one it
stands in, which is `none` here.

The list looks an action up without regard to the case of the device, the table with regard to
it.  And `action_list_clear` queues no statement at all.
-/

namespace Honyar.LocalScene

open CText Option List ActionList ActionInfo Function

/-- A row of `action_list`. -/
structure ActionRow where
  id : CText
  actionId : CText
  devId : CText
  key : CText
  valueCoding : CText
  value : CText
deriving DecidableEq

/-! ## Statements -/

/-- The row `action_list_add_db` inserts. -/
def ActionInfo.row (id : CText) (i : ActionInfo) : ActionRow where
  id := id
  actionId := i.acActionId
  devId := i.acDevId
  key := i.acKey
  valueCoding := i.acValueCoding
  value := i.acValue

/-- `id='%s' and action_id='%s' and dev_id='%s' and key='%s'`. -/
def ActionRow.isFor (id : CText) (i : ActionInfo) (row : ActionRow) : Bool :=
  row.id = id ∧ row.actionId = i.acActionId ∧ row.devId = i.acDevId ∧ row.key = i.acKey

/-- `value_coding='%s', value='%s'`. -/
def ActionRow.set (i : ActionInfo) (row : ActionRow) : ActionRow :=
  { row with valueCoding := i.acValueCoding, value := i.acValue }

/-- The texts stand between quotes. -/
def Quotable (texts : List CText) : Prop := ∀ t ∈ texts, Char.ofNat 39 ∉ t

instance decidableQuotable (texts : List CText) : Decidable (Quotable texts) :=
  inferInstanceAs (Decidable (∀ t ∈ texts, Char.ofNat 39 ∉ t))

/-- The texts of an action in the statements. -/
def ActionInfo.texts (i : ActionInfo) : List CText :=
  [i.acActionId, i.acDevId, i.acKey, i.acValueCoding, i.acValue]

/-- The texts that say which action is meant. -/
def ActionInfo.keyTexts (i : ActionInfo) : List CText := [i.acActionId, i.acDevId, i.acKey]

/-- `action_list_add_db`. -/
def actionListAddDb (id : CText) (i : ActionInfo) (rows : List ActionRow) :
    Option (List ActionRow) :=
  if Quotable (id :: i.texts) then some (rows ++ [i.row id]) else none

/-- `action_list_set_db`. -/
def actionListSetDb (id : CText) (i : ActionInfo) (rows : List ActionRow) :
    Option (List ActionRow) :=
  if Quotable (id :: i.texts) then
    some (rows.map fun row => if row.isFor id i then row.set i else row)
  else none

/-- `action_list_del_db`. -/
def actionListDelDb (id : CText) (i : ActionInfo) (rows : List ActionRow) :
    Option (List ActionRow) :=
  if Quotable (id :: i.keyTexts) then some (rows.filter fun row => !row.isFor id i) else none

/-! ## The list and its table -/

/-- A call for the action list of a scene. -/
inductive ActionCall where
  | add (pstActionInfo : ActionInfo)
  | set (pstActionInfo : ActionInfo)
  | del (pstActionInfo : ActionInfo)
  | clear
  /-- `scene_action_clear`. -/
  | sceneClear (iClearDbFlag : Int)

/-- A list, and the table. -/
structure Actions where
  list : ActionList
  rows : List ActionRow

namespace Actions

/-- `action_list_set` with its statement. -/
def set (id : CText) (z : Actions) (i : ActionInfo) : Option (Actions × ActionErrNo) :=
  match z.list.node? i with
  | some _ => (actionListSetDb id i z.rows).map fun rows =>
      (⟨(actionListSet z.list i).1, rows⟩, .noErr)
  | none => some (z, .notFoundErr)

/-- `action_list_add`: an action that is there is set, and set in the table once more. -/
def add (id : CText) (z : Actions) (i : ActionInfo) : Option (Actions × ActionErrNo) :=
  match z.list.node? i with
  | some _ => do
    let r ← z.set id i
    return ({ r.1 with rows := ← actionListSetDb id i r.1.rows }, .noErr)
  | none => (actionListAddDb id i z.rows).map fun rows => (⟨actionListAdd z.list i, rows⟩, .noErr)

/-- `action_list_del`. -/
def del (id : CText) (z : Actions) (i : ActionInfo) : Option (Actions × ActionErrNo) :=
  match z.list.node? i with
  | some _ => (actionListDelDb id i z.rows).map fun rows =>
      (⟨(actionListDel z.list i).1, rows⟩, .noErr)
  | none => some (z, .sceneDelErr)

/-- `action_list_clear`. -/
def clear (z : Actions) : Actions := { z with list := actionListClear z.list }

/-- `scene_action_clear`. -/
def sceneClear (id : CText) (z : Actions) (iClearDbFlag : Int) : Option Actions := do
  let rows ←
    if iClearDbFlag = 1 then
      (z.list.stList.map ActionNode.stActionInfo).foldlM (fun rows i => actionListDelDb id i rows)
        z.rows
    else some z.rows
  return ⟨actionListClear z.list, rows⟩

/-- One call, with its answer. -/
def step (id : CText) (z : Actions) : ActionCall → Option (Actions × List ActionErrNo)
  | .add i => (z.add id i).map fun r => (r.1, [r.2])
  | .set i => (z.set id i).map fun r => (r.1, [r.2])
  | .del i => (z.del id i).map fun r => (r.1, [r.2])
  | .clear => some (z.clear, [.noErr])
  | .sceneClear iClearDbFlag => (z.sceneClear id iClearDbFlag).map fun z => (z, [.noErr])

end Actions

/-- The texts fit the arrays they are compared in. -/
structure ActionInfo.Fits (i : ActionInfo) : Prop where
  acActionId : i.acActionId.length ≤ actionIdMaxLen
  acKey : i.acKey.length ≤ keyMaxLen

/-- The action a call is about. -/
def ActionCall.info? : ActionCall → Option ActionInfo
  | .add i | .set i | .del i => some i
  | .clear | .sceneClear _ => none

/-! ## Agreement -/

namespace Actions

/-- The rows of the scene are those of the list. -/
def Agrees (id : CText) (z : Actions) : Prop :=
  (z.rows.filter fun row => row.id = id).Perm (z.list.stList.map fun n => n.stActionInfo.row id)

/-- What a call is to do: no two actions of the list have one identity, an action that is added
takes the place of the one with its identity or is appended, and the table agrees with the
list. -/
structure Right (id : CText) (z : Actions) (call : ActionCall) (z' : Actions) : Prop where
  unique : (z'.list.stList.map fun n => n.stActionInfo.identity).Nodup
  added : ∀ i, call = .add i → z'.list.stList.map ActionNode.stActionInfo =
    if ∃ n ∈ z.list.stList, n.stActionInfo.identity = i.identity then
      z.list.stList.map fun n =>
        if n.stActionInfo.identity = i.identity then i else n.stActionInfo
    else z.list.stList.map ActionNode.stActionInfo ++ [i]
  agrees : z'.Agrees id

/-- The texts of the statement have no quote, an action that is there is named with the case its
device is stored with, and a list is cleared through the scene with the flag, or is empty. -/
def Faithful (id : CText) (z : Actions) : ActionCall → Prop
  | .add i => Quotable (id :: i.texts) ∧
      ∀ n ∈ z.list.stList, n.stActionInfo.identity = i.identity → n.stActionInfo.acDevId = i.acDevId
  | .set i => ∀ n ∈ z.list.stList, n.stActionInfo.identity = i.identity →
      Quotable (id :: i.texts) ∧ n.stActionInfo.acDevId = i.acDevId
  | .del i => ∀ n ∈ z.list.stList, n.stActionInfo.identity = i.identity →
      Quotable (id :: i.keyTexts) ∧ n.stActionInfo.acDevId = i.acDevId
  | .clear => z.list.stList = []
  | .sceneClear iClearDbFlag =>
    if iClearDbFlag = 1 then
      ∀ n ∈ z.list.stList, Quotable (id :: n.stActionInfo.keyTexts)
    else z.list.stList = []

end Actions

/-! ## One row -/

section

variable {id : CText} {t : ActionList} {i : ActionInfo} {rows : List ActionRow}
variable {d : ActionInfo} {m : ActionNode}

theorem ActionInfo.isFor_row : (d.row id).isFor id i = true ↔
    d.acActionId = i.acActionId ∧ d.acDevId = i.acDevId ∧ d.acKey = i.acKey := by
  simp [ActionRow.isFor, row]

theorem ActionInfo.identity_of_isFor (h : (d.row id).isFor id i = true) :
    d.identity = i.identity := by
  obtain ⟨hid, hdev, hkey⟩ := isFor_row.mp h
  rw [identity, identity, hid, hdev, hkey]

theorem ActionInfo.isFor_row_iff (hd : d.Fits) (hi : i.Fits) (hid : d.identity = i.identity) :
    (d.row id).isFor id i = true ↔ d.acDevId = i.acDevId := by
  rw [identity, identity, take_of_length_le hd.acActionId,
    take_of_length_le hi.acActionId, take_of_length_le hd.acKey,
    take_of_length_le hi.acKey, Prod.mk.injEq, Prod.mk.injEq] at hid
  rw [isFor_row, and_iff_right hid.1, and_iff_left hid.2.2]

theorem filter_set (i : ActionInfo) (rows : List ActionRow) :
    (rows.map fun row => if row.isFor id i then row.set i else row).filter
      (fun row => row.id = id) =
      (rows.filter fun row => row.id = id).map fun row =>
        if row.isFor id i then row.set i else row := by
  rw [List.filter_map]
  refine congrArg (List.map _) (filter_congr fun row _ => ?_)
  simp only [comp_apply]
  split <;> rfl

theorem set_set (i : ActionInfo) (rows : List ActionRow) :
    (rows.map fun row => if row.isFor id i then row.set i else row).map
        (fun row => if row.isFor id i then row.set i else row) =
      rows.map fun row => if row.isFor id i then row.set i else row := by
  rw [List.map_map]
  refine map_congr_left fun row _ => ?_
  simp only [comp_apply]
  by_cases h : row.isFor id i = true
  · have h' : (row.set i).isFor id i = true := h
    rw [if_pos h, if_pos h']
    rfl
  · rw [if_neg h, if_neg h]

/-! ## One call -/

variable {z : Actions} {n : ActionNode}

theorem ActionList.not_isFor (hn : n ∈ t.stList) (hid : n.stActionInfo.identity = i.identity)
    (hm : m ∈ t.stList) (hne : m ≠ n) :
    ¬ (m.stActionInfo.row id).isFor id i = true := fun h =>
  hne (Keyed.eq_of_key_eq t.unique hm hn ((identity_of_isFor h).trans hid.symm))

theorem Actions.agrees_set_iff (hz : z.Agrees id) (hn : n ∈ z.list.stList)
    (hid : n.stActionInfo.identity = i.identity) (hnf : n.stActionInfo.Fits) (hi : i.Fits) :
    Agrees id ⟨(actionListSet z.list i).1,
        z.rows.map fun row => if row.isFor id i then row.set i else row⟩ ↔
      n.stActionInfo.acDevId = i.acDevId := by
  have hfor : (n.stActionInfo.row id).isFor id i = true ↔ _ := isFor_row_iff hnf hi hid
  have hrows := hz.map fun row => if row.isFor id i then row.set i else row
  rw [← filter_set, List.map_map] at hrows
  have hlist : ((actionListSet z.list i).1.stList.map fun m => m.stActionInfo.row id) =
      z.list.stList.map fun m => if m = n then i.row id else m.stActionInfo.row id := by
    rw [stList_actionListSet hn hid, List.map_map]
    refine map_congr_left fun m hm => ?_
    simp only [comp_apply]
    by_cases hmn : m = n
    · rw [if_pos (congrArg ActionNode.addr hmn), if_pos hmn]
    · rw [if_neg fun ha => hmn (Keyed.eq_of_key_eq z.list.addrs hm hn ha), if_neg hmn]
  constructor
  · intro h
    have hperm := hrows.symm.trans h
    rw [hlist] at hperm
    by_contra hdev
    have hmem : i.row id ∈ z.list.stList.map ((fun row =>
        if row.isFor id i then row.set i else row) ∘ fun m => m.stActionInfo.row id) :=
      hperm.mem_iff.mpr (List.mem_map.mpr ⟨n, hn, if_pos rfl⟩)
    obtain ⟨m, hm, heq⟩ := List.mem_map.mp hmem
    -- no row is the statement's, so this one is as it was
    have hnot : ¬ (m.stActionInfo.row id).isFor id i = true := by
      by_cases hmn : m = n
      · rw [hmn, hfor]
        exact hdev
      · exact not_isFor hn hid hm hmn
    rw [comp_apply, if_neg hnot] at heq
    rw [heq, isFor_row] at hnot
    exact hnot ⟨rfl, rfl, rfl⟩
  · intro hdev
    refine hrows.trans (List.Perm.of_eq ?_)
    rw [hlist]
    refine map_congr_left fun m hm => ?_
    rw [comp_apply]
    by_cases hmn : m = n
    · have hset : (m.stActionInfo.row id).isFor id i = true := by rw [hmn, hfor, hdev]
      obtain ⟨hid', hdev', hkey'⟩ := isFor_row.mp hset
      rw [if_pos hset, if_pos hmn, ActionRow.set, row, row, hid',
        hdev', hkey']
    · rw [if_neg hmn, if_neg (not_isFor hn hid hm hmn)]

theorem Actions.agrees_del_iff (hz : z.Agrees id) (hn : n ∈ z.list.stList)
    (hid : n.stActionInfo.identity = i.identity) (hnf : n.stActionInfo.Fits) (hi : i.Fits) :
    Agrees id ⟨(actionListDel z.list i).1, z.rows.filter fun row => !row.isFor id i⟩ ↔
      n.stActionInfo.acDevId = i.acDevId := by
  have hfor : (n.stActionInfo.row id).isFor id i = true ↔ _ := isFor_row_iff hnf hi hid
  have hrows := hz.filter fun row => !row.isFor id i
  rw [filter_comm, List.filter_map] at hrows
  rw [Agrees, stList_actionListDel hn hid]
  constructor
  · intro h
    have hlen := (hrows.symm.trans h).length_eq
    by_contra hdev
    have hall : z.list.stList.filter ((fun row => !row.isFor id i) ∘
        fun m => m.stActionInfo.row id) = z.list.stList := by
      refine filter_eq_self.mpr fun m hm => ?_
      have hnot : ¬ (m.stActionInfo.row id).isFor id i = true := by
        by_cases hmn : m = n
        · rw [hmn, hfor]
          exact hdev
        · exact not_isFor hn hid hm hmn
      rw [comp_apply, Bool.eq_false_iff.mpr hnot, Bool.not_false]
    rw [hall, length_map, length_map] at hlen
    have hself := length_filter_eq_length_iff.mp hlen.symm n hn
    rw [bne_self_eq_false] at hself
    cases hself
  · intro hdev
    refine hrows.trans (List.Perm.of_eq (congrArg (List.map _) (filter_congr fun m hm => ?_)))
    rw [comp_apply]
    by_cases hmn : m = n
    · rw [hmn, hfor.mpr hdev, bne_self_eq_false, Bool.not_true]
    · rw [Bool.eq_false_iff.mpr (not_isFor hn hid hm hmn), Bool.not_false, eq_comm,
        bne_iff_ne]
      exact fun ha => hmn (Keyed.eq_of_key_eq z.list.addrs hm hn ha)

theorem Actions.agrees_append (hz : z.Agrees id)
    (hi : ∀ n ∈ z.list.stList, n.stActionInfo.identity ≠ i.identity) :
    Agrees id ⟨actionListAdd z.list i, z.rows ++ [i.row id]⟩ := by
  rw [Agrees, stList_actionListAdd hi, filter_append, map_append, map_singleton,
    filter_singleton, decide_eq_true (show (i.row id).id = id from rfl)]
  exact hz.append_right _

theorem Actions.agrees_clear_iff (hz : z.Agrees id) : z.clear.Agrees id ↔ z.list.stList = [] := by
  constructor
  · intro h
    have hnil : z.rows.filter (fun row => row.id = id) = [] := perm_nil.mp h
    rw [Agrees, hnil] at hz
    exact map_eq_nil_iff.mp (nil_perm.mp hz)
  · intro h
    rw [Agrees, h] at hz
    exact hz

theorem foldlM_actionListDelDb (is : List ActionInfo) (rows : List ActionRow) :
    is.foldlM (fun rows i => actionListDelDb id i rows) rows =
      if ∀ i ∈ is, Quotable (id :: i.keyTexts) then
        some (rows.filter fun row => is.all fun i => !row.isFor id i)
      else none := by
  induction is generalizing rows with
  | nil => simp
  | cons i is ih =>
    rw [foldlM_cons, actionListDelDb]
    by_cases hi : Quotable (id :: i.keyTexts)
    · rw [if_pos hi, bind_eq_bind, bind_some, ih, List.filter_filter]
      simp only [forall_mem_cons, hi, true_and, all_cons, Bool.and_comm]
    · rw [if_neg hi, if_neg fun h => hi (h i mem_cons_self)]
      rfl

/-! ## Calls -/

theorem ActionList.forall_iff_of_node? (hfind : t.node? i = some n) {P : ActionNode → Prop} :
    (∀ m ∈ t.stList, m.stActionInfo.identity = i.identity → P m) ↔ P n := by
  obtain ⟨hn, hid⟩ := mem_of_node? hfind
  constructor
  · exact fun h => h n hn hid
  · intro h m hm hmid
    rwa [Keyed.eq_of_key_eq t.unique hm hn (hmid.trans hid.symm)]

theorem ActionList.forall_of_node?_eq_none (hfind : t.node? i = none) {P : ActionNode → Prop} :
    ∀ m ∈ t.stList, m.stActionInfo.identity = i.identity → P m :=
  fun m hm hid => absurd hid (node?_eq_none hfind m hm)

theorem mem_actionListSet (hm : m ∈ (actionListSet t i).1.stList) :
    m ∈ t.stList ∨ m.stActionInfo = i := by
  cases hfind : t.node? i with
  | none =>
    have hsame : (actionListSet t i).1 = t := by
      rw [actionListSet]
      split
      · rename_i n hn
        rw [hfind] at hn
        cases hn
      · rfl
    rw [hsame] at hm
    exact .inl hm
  | some n =>
    obtain ⟨hn, hid⟩ := mem_of_node? hfind
    rw [stList_actionListSet hn hid, Keyed.mem_write_iff] at hm
    rcases hm with ⟨m', -, -, rfl⟩ | ⟨hm, -⟩
    · exact .inr rfl
    · exact .inl hm

theorem mem_actionListAdd (hm : m ∈ (actionListAdd t i).stList) :
    m ∈ t.stList ∨ m.stActionInfo = i := by
  rw [actionListAdd] at hm
  split at hm
  · exact mem_actionListSet hm
  · rcases mem_append.mp hm with hm | hm
    · exact .inl hm
    · exact .inr (congrArg ActionNode.stActionInfo (mem_singleton.mp hm))

theorem mem_actionListDel (hm : m ∈ (actionListDel t i).1.stList) : m ∈ t.stList := by
  rw [actionListDel] at hm
  cases hfind : t.node? i with
  | none =>
    rw [hfind] at hm
    exact hm
  | some n =>
    rw [hfind] at hm
    exact mem_of_mem_filter hm

namespace Actions

variable {call : ActionCall} {z' : Actions} {os : List ActionErrNo}

/-- The calls keep the widths, and those that are right the agreement. -/
structure Kept (id : CText) (z : Actions) : Prop where
  fits : ∀ n ∈ z.list.stList, n.stActionInfo.Fits
  agrees : z.Agrees id

/-- The call goes through, and is right. -/
def Goes (id : CText) (z : Actions) (call : ActionCall) : Prop :=
  ∃ z' os, z.step id call = some (z', os) ∧ Right id z call z'

theorem set_eq_of_node? (hfind : z.list.node? i = some n) : z.set id i =
    if Quotable (id :: i.texts) then
      some (⟨(actionListSet z.list i).1,
        z.rows.map fun row => if row.isFor id i then row.set i else row⟩, .noErr)
    else none := by
  rw [set, hfind, actionListSetDb, map_if]

theorem add_eq_of_node? (hfind : z.list.node? i = some n) : z.add id i = z.set id i := by
  rw [add, hfind]
  simp only
  rw [set_eq_of_node? hfind]
  by_cases hquot : Quotable (id :: i.texts)
  · simp only [if_pos hquot, bind_eq_bind, bind_some, actionListSetDb, set_set,
      Option.pure_def]
  · simp only [if_neg hquot, bind_eq_bind, bind_none]

theorem goes_iff_of_step {q : Prop} [Decidable q]
    (hstep : z.step id call = if q then some (z', os) else none)
    (hadded : ∀ i, call = .add i → z'.list.stList.map ActionNode.stActionInfo =
      if ∃ n ∈ z.list.stList, n.stActionInfo.identity = i.identity then
        z.list.stList.map fun n =>
          if n.stActionInfo.identity = i.identity then i else n.stActionInfo
      else z.list.stList.map ActionNode.stActionInfo ++ [i]) :
    Goes id z call ↔ q ∧ z'.Agrees id := by
  rw [Goes, hstep]
  by_cases hq : q
  · rw [if_pos hq, and_iff_right hq]
    constructor
    · rintro ⟨z'', os', heq, hright⟩
      obtain ⟨rfl, -⟩ := Prod.mk.inj (some.inj heq)
      exact hright.agrees
    · exact fun h => ⟨_, _, rfl, unique _, hadded, h⟩
  · rw [if_neg hq]
    refine iff_of_false ?_ fun h => hq h.1
    rintro ⟨z'', os', ⟨⟩, -⟩

theorem Kept.set_iff (hz : z.Kept id)
    (hi : i.Fits) : Goes id z (.set i) ↔ Faithful id z (.set i) := by
  cases hfind : z.list.node? i with
  | none =>
    have hstep : z.step id (.set i) = some (z, [.notFoundErr]) := by
      rw [step, set, hfind]
      rfl
    refine iff_of_true ⟨z, _, hstep, z.list.unique, ?_, hz.agrees⟩
      (forall_of_node?_eq_none hfind)
    rintro _ ⟨⟩
  | some n =>
    obtain ⟨hn, hid⟩ := mem_of_node? hfind
    have hstep : z.step id (.set i) = if Quotable (id :: i.texts) then
        some (⟨(actionListSet z.list i).1,
          z.rows.map fun row => if row.isFor id i then row.set i else row⟩, [.noErr])
        else none := by
      rw [step, set_eq_of_node? hfind, map_if]
    rw [goes_iff_of_step hstep nofun, Faithful, forall_iff_of_node? hfind,
      agrees_set_iff hz.agrees hn hid (hz.fits n hn) hi]

theorem Kept.del_iff (hz : z.Kept id)
    (hi : i.Fits) : Goes id z (.del i) ↔ Faithful id z (.del i) := by
  cases hfind : z.list.node? i with
  | none =>
    have hstep : z.step id (.del i) = some (z, [.sceneDelErr]) := by
      rw [step, del, hfind]
      rfl
    refine iff_of_true ⟨z, _, hstep, z.list.unique, ?_, hz.agrees⟩
      (forall_of_node?_eq_none hfind)
    rintro _ ⟨⟩
  | some n =>
    obtain ⟨hn, hid⟩ := mem_of_node? hfind
    have hstep : z.step id (.del i) = if Quotable (id :: i.keyTexts) then
        some (⟨(actionListDel z.list i).1, z.rows.filter fun row => !row.isFor id i⟩, [.noErr])
        else none := by
      rw [step, del, hfind]
      simp only [actionListDelDb, map_if]
    rw [goes_iff_of_step hstep nofun, Faithful, forall_iff_of_node? hfind,
      agrees_del_iff hz.agrees hn hid (hz.fits n hn) hi]

theorem set_replaces (hn : n ∈ t.stList) (hid : n.stActionInfo.identity = i.identity) :
    (actionListSet t i).1.stList.map ActionNode.stActionInfo =
      t.stList.map fun m => if m.stActionInfo.identity = i.identity then i else m.stActionInfo := by
  rw [stList_actionListSet hn hid, List.map_map]
  refine map_congr_left fun m hm => ?_
  rw [comp_apply]
  by_cases hmn : m = n
  · rw [if_pos (congrArg ActionNode.addr hmn), hmn, if_pos hid]
  · rw [if_neg fun ha => hmn (Keyed.eq_of_key_eq t.addrs hm hn ha),
      if_neg fun h => hmn (Keyed.eq_of_key_eq t.unique hm hn (h.trans hid.symm))]

theorem Kept.add_iff (hz : z.Kept id)
    (hi : i.Fits) : Goes id z (.add i) ↔ Faithful id z (.add i) := by
  cases hfind : z.list.node? i with
  | none =>
    have hnone := node?_eq_none hfind
    have hstep : z.step id (.add i) = if Quotable (id :: i.texts) then
        some (⟨actionListAdd z.list i, z.rows ++ [i.row id]⟩, [.noErr]) else none := by
      rw [step, add, hfind]
      simp only [actionListAddDb, map_if]
    rw [Faithful, and_iff_left (forall_of_node?_eq_none hfind),
      goes_iff_of_step hstep ?_, and_iff_left (agrees_append hz.agrees hnone)]
    rintro _ ⟨⟩
    rw [if_neg fun ⟨m, hm, hid⟩ => hnone m hm hid, stList_actionListAdd hnone, map_append,
      map_singleton]
  | some n =>
    obtain ⟨hn, hid⟩ := mem_of_node? hfind
    have hstep : z.step id (.add i) = if Quotable (id :: i.texts) then
        some (⟨(actionListSet z.list i).1,
          z.rows.map fun row => if row.isFor id i then row.set i else row⟩, [.noErr])
        else none := by
      rw [step, add_eq_of_node? hfind, set_eq_of_node? hfind, map_if]
    rw [goes_iff_of_step hstep ?_, Faithful, forall_iff_of_node? hfind,
      agrees_set_iff hz.agrees hn hid (hz.fits n hn) hi]
    rintro _ ⟨⟩
    rw [if_pos ⟨n, hn, hid⟩]
    exact set_replaces hn hid

theorem Kept.clear_iff (hz : z.Kept id) : Goes id z .clear ↔ Faithful id z .clear := by
  rw [Faithful, ← agrees_clear_iff hz.agrees]
  constructor
  · rintro ⟨z', os, hstep, hright⟩
    obtain ⟨rfl, -⟩ := Prod.mk.inj (some.inj hstep)
    exact hright.agrees
  · intro h
    refine ⟨_, _, rfl, unique _, ?_, h⟩
    rintro _ ⟨⟩

theorem filter_agrees (hz : z.Agrees id) :
    (z.rows.filter fun row => (z.list.stList.map ActionNode.stActionInfo).all
      fun i => !row.isFor id i).filter (fun row => row.id = id) = [] := by
  rw [filter_comm, filter_eq_nil_iff]
  intro row hrow hall
  obtain ⟨n, hn, rfl⟩ := List.mem_map.mp (hz.mem_iff.mp hrow)
  have hnot := List.all_eq_true.mp hall _ (List.mem_map_of_mem hn)
  rw [isFor_row.mpr ⟨rfl, rfl, rfl⟩] at hnot
  cases hnot

theorem Kept.sceneClear_iff (hz : z.Kept id) (iClearDbFlag : Int) :
    Goes id z (.sceneClear iClearDbFlag) ↔ Faithful id z (.sceneClear iClearDbFlag) := by
  rw [Goes, step, sceneClear, Faithful]
  by_cases hflag : iClearDbFlag = 1
  · have hall : (∀ n ∈ z.list.stList, Quotable (id :: n.stActionInfo.keyTexts)) ↔
        ∀ i ∈ z.list.stList.map ActionNode.stActionInfo, Quotable (id :: i.keyTexts) :=
      (List.forall_mem_map (P := fun i : ActionInfo => Quotable (id :: i.keyTexts))).symm
    rw [if_pos hflag, if_pos hflag, foldlM_actionListDelDb, hall]
    by_cases hquot : ∀ i ∈ z.list.stList.map ActionNode.stActionInfo, Quotable (id :: i.keyTexts)
    · rw [if_pos hquot]
      refine iff_of_true ⟨_, _, rfl, nodup_nil, ?_, ?_⟩ hquot
      · rintro _ ⟨⟩
      · rw [Agrees, filter_agrees hz.agrees]
        exact List.Perm.refl _
    · rw [if_neg hquot]
      refine iff_of_false ?_ hquot
      rintro ⟨z', os, ⟨⟩, -⟩
  · rw [if_neg hflag, if_neg hflag, ← agrees_clear_iff hz.agrees]
    constructor
    · rintro ⟨z', os, hstep, hright⟩
      obtain ⟨rfl, -⟩ := Prod.mk.inj (some.inj hstep)
      exact hright.agrees
    · intro h
      refine ⟨_, _, rfl, nodup_nil, ?_, h⟩
      rintro _ ⟨⟩

theorem Kept.goes_iff (hz : z.Kept id) (call : ActionCall) (hcall : ∀ i ∈ call.info?, i.Fits) :
    Goes id z call ↔ Faithful id z call := by
  cases call with
  | add i => exact hz.add_iff (hcall i rfl)
  | set i => exact hz.set_iff (hcall i rfl)
  | del i => exact hz.del_iff (hcall i rfl)
  | clear => exact hz.clear_iff
  | sceneClear iClearDbFlag => exact hz.sceneClear_iff iClearDbFlag

/-- An action of the list after a call was there, or is the one of the call. -/
theorem mem_step (h : z.step id call = some (z', os)) (hm : m ∈ z'.list.stList) :
    m ∈ z.list.stList ∨ call.info? = some m.stActionInfo := by
  have hset : ∀ {i o}, z.set id i = some (z', o) → m ∈ z.list.stList ∨
    some i = some m.stActionInfo := by
    intro i o h
    cases hfind : z.list.node? i with
    | none =>
      rw [set, hfind] at h
      obtain ⟨rfl, -⟩ := Prod.mk.inj (some.inj h)
      exact .inl hm
    | some n =>
      rw [set, hfind] at h
      obtain ⟨rows, -, heq⟩ := map_eq_some_iff.mp h
      obtain ⟨rfl, -⟩ := Prod.mk.inj heq
      exact (mem_actionListSet hm).imp_right fun h => congrArg some h.symm
  cases call with
  | add i =>
    obtain ⟨⟨z₁, o⟩, hadd, heq⟩ := map_eq_some_iff.mp h
    obtain ⟨rfl, -⟩ := Prod.mk.inj heq
    cases hfind : z.list.node? i with
    | none =>
      rw [add, hfind] at hadd
      obtain ⟨rows, -, heq⟩ := map_eq_some_iff.mp hadd
      obtain ⟨rfl, -⟩ := Prod.mk.inj heq
      exact (mem_actionListAdd hm).imp_right fun h => congrArg some h.symm
    | some n =>
      rw [add_eq_of_node? hfind] at hadd
      exact hset hadd
  | set i =>
    obtain ⟨⟨z₁, o⟩, hstep, heq⟩ := map_eq_some_iff.mp h
    obtain ⟨rfl, -⟩ := Prod.mk.inj heq
    exact hset hstep
  | del i =>
    obtain ⟨⟨z₁, o⟩, hdel, heq⟩ := map_eq_some_iff.mp h
    obtain ⟨rfl, -⟩ := Prod.mk.inj heq
    cases hfind : z.list.node? i with
    | none =>
      rw [del, hfind] at hdel
      obtain ⟨rfl, -⟩ := Prod.mk.inj (some.inj hdel)
      exact .inl hm
    | some n =>
      rw [del, hfind] at hdel
      obtain ⟨rows, -, heq⟩ := map_eq_some_iff.mp hdel
      obtain ⟨rfl, -⟩ := Prod.mk.inj heq
      exact .inl (mem_actionListDel hm)
  | clear =>
    obtain ⟨rfl, -⟩ := Prod.mk.inj (some.inj h)
    exact absurd hm not_mem_nil
  | sceneClear iClearDbFlag =>
    obtain ⟨z₁, hclear, heq⟩ := map_eq_some_iff.mp h
    obtain ⟨rfl, -⟩ := Prod.mk.inj heq
    rw [sceneClear] at hclear
    split at hclear
    all_goals
      obtain ⟨rows, -, heq⟩ := bind_eq_some_iff.mp hclear
      obtain rfl := some.inj heq
      exact absurd hm not_mem_nil

theorem Kept.step (hz : z.Kept id) (hcall : ∀ i ∈ call.info?, i.Fits)
    (hfaithful : Faithful id z call) (h : z.step id call = some (z', os)) : z'.Kept id where
  fits m hm := (mem_step h hm).elim (hz.fits m) (hcall _)
  agrees := by
    obtain ⟨z₁, os₁, h₁, hright⟩ := (hz.goes_iff call hcall).mpr hfaithful
    obtain ⟨rfl, -⟩ := Prod.mk.inj (some.inj (h₁.symm.trans h))
    exact hright.agrees

end Actions

end

/-! ## Runs -/

end Honyar.LocalScene
