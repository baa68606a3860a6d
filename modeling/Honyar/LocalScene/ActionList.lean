import Honyar.Lib.Reconcile
import Honyar.LocalScene.Value

/-!
# The action list of a scene

`action_list.c`: adding, setting, deleting and clearing actions, and bringing a
list to the actions of an array (`action_list_sync`).

An action is looked up by its id, its device and its attribute; the device is
compared without regard to case.  `action_list_add` looks before it inserts, so
no two actions of a list have one identity: the type of lists says so.  Requests
to the database succeed.
-/

namespace Honyar.LocalScene

open CText List

/-- `action_info_t`. -/
structure ActionInfo where
  acActionId : CText
  acDevId : CText
  acKey : CText
  acValueCoding : CText
  acValue : CText
  acResult : CText
deriving DecidableEq, Repr

variable {i : ActionInfo}

/-- `!action_compare`. -/
def actionCompareEq (p q : ActionInfo) : Bool :=
  strncmpEq actionIdMaxLen p.acActionId q.acActionId && strcasecmpEq p.acDevId q.acDevId &&
    strncmpEq keyMaxLen p.acKey q.acKey

/-- What `action_compare` looks at. -/
def ActionInfo.identity (i : ActionInfo) : CText × CText × CText :=
  (i.acActionId.take actionIdMaxLen, i.acDevId.map Char.toLower, i.acKey.take keyMaxLen)

theorem actionCompareEq_iff {p q : ActionInfo} :
    actionCompareEq p q = true ↔ p.identity = q.identity := by
  simp [actionCompareEq, strncmpEq, strcasecmpEq, ActionInfo.identity, and_assoc]

/-- `action_list_node_t`. -/
structure ActionNode where
  addr : Nat
  stActionInfo : ActionInfo
deriving DecidableEq, Repr

variable {n : ActionNode}

/-- `action_list_class_t`: a chain of nodes in memory below `heap`, no two with
one identity. -/
structure ActionList where
  stList : List ActionNode
  heap : Nat
  addrs : (stList.map ActionNode.addr).Nodup
  below : ∀ n ∈ stList, n.addr < heap
  unique : (stList.map fun n => n.stActionInfo.identity).Nodup

/-- The results of the operations on actions. -/
inductive ActionErrNo where
  | noErr
  | notFoundErr
  | sceneDelErr
deriving DecidableEq, Repr

/-! ## Operations -/

namespace ActionList

/-- The list as it is made. -/
def new : ActionList := ⟨[], 0, nodup_nil, by simp, nodup_nil⟩

/-- `stList.get` with `action_compare`. -/
def node? (t : ActionList) (i : ActionInfo) : Option ActionNode :=
  t.stList.find? fun n => actionCompareEq n.stActionInfo i

theorem node?_eq_none {t : ActionList} (h : t.node? i = none) :
    ∀ n ∈ t.stList, n.stActionInfo.identity ≠ i.identity :=
  fun n hn hid => find?_eq_none.mp h n hn (actionCompareEq_iff.mpr hid)

theorem mem_of_node? {t : ActionList} (h : t.node? i = some n) :
    n ∈ t.stList ∧ n.stActionInfo.identity = i.identity :=
  ⟨mem_of_find?_eq_some h, actionCompareEq_iff.mp (by simpa using find?_some h)⟩

/-- Copies a record into the node at an address. -/
def write (t : ActionList) (n : ActionNode) (hn : n ∈ t.stList) (i : ActionInfo)
    (hi : n.stActionInfo.identity = i.identity) : ActionList where
  stList := t.stList.map fun m => if m.addr = n.addr then { m with stActionInfo := i } else m
  heap := t.heap
  addrs := by
    have hkeys : (t.stList.map fun m =>
        if m.addr = n.addr then ({ m with stActionInfo := i } : ActionNode) else m).map
          ActionNode.addr = t.stList.map ActionNode.addr :=
      Keyed.map_write_key (f := fun m => { m with stActionInfo := i })
        (fun _ => rfl) t.stList n.addr
    rw [hkeys]
    exact t.addrs
  below m hm := by
    rcases Keyed.mem_write_iff.mp hm with ⟨m', hm', -, rfl⟩ | ⟨hm, -⟩
    · exact t.below m' hm'
    · exact t.below m hm
  unique := by
    have hsame : (t.stList.map fun m =>
        if m.addr = n.addr then ({ m with stActionInfo := i } : ActionNode) else m).map
          (fun m => m.stActionInfo.identity) = t.stList.map fun m => m.stActionInfo.identity := by
      rw [map_map]
      apply map_congr_left
      intro m hm
      rw [Function.comp_apply]
      split
      · rename_i hmn
        rw [Keyed.eq_of_key_eq t.addrs hm hn hmn, hi]
      · rfl
    rw [hsame]
    exact t.unique

/-- `inst_tail` of a new node. -/
def append (t : ActionList) (i : ActionInfo)
    (hi : ∀ n ∈ t.stList, n.stActionInfo.identity ≠ i.identity) : ActionList where
  stList := t.stList ++ [⟨t.heap, i⟩]
  heap := t.heap + 1
  addrs := by
    rw [map_append, map_singleton, nodup_append]
    refine ⟨t.addrs, nodup_singleton _, ?_⟩
    rintro a ha b hb rfl
    obtain ⟨n, hn, rfl⟩ := mem_map.mp ha
    exact absurd (mem_singleton.mp hb) (t.below n hn).ne
  below n hn := by
    rcases mem_append.mp hn with hn | hn
    · exact (t.below n hn).trans (Nat.lt_succ_self _)
    · rw [mem_singleton.mp hn]
      exact Nat.lt_succ_self _
  unique := by
    rw [map_append, map_singleton, nodup_append]
    refine ⟨t.unique, nodup_singleton _, ?_⟩
    rintro a ha b hb rfl
    obtain ⟨n, hn, rfl⟩ := mem_map.mp ha
    exact hi n hn (mem_singleton.mp hb)

/-- Unlinks the node at an address. -/
def unlink (t : ActionList) (a : Nat) : ActionList where
  stList := t.stList.filter (·.addr != a)
  heap := t.heap
  addrs := (filter_sublist.map _).nodup t.addrs
  below n hn := t.below n (mem_of_mem_filter hn)
  unique := (filter_sublist.map _).nodup t.unique

end ActionList

/-- `action_list_set`. -/
def actionListSet (t : ActionList) (i : ActionInfo) : ActionList × ActionErrNo :=
  match h : t.node? i with
  | some n => (t.write n (ActionList.mem_of_node? h).1 i (ActionList.mem_of_node? h).2, .noErr)
  | none => (t, .notFoundErr)

/-- `action_list_add`: an action that is there is set. -/
def actionListAdd (t : ActionList) (i : ActionInfo) : ActionList :=
  match h : t.node? i with
  | some _ => (actionListSet t i).1
  | none => t.append i (ActionList.node?_eq_none h)

/-- `action_list_del`. -/
def actionListDel (t : ActionList) (i : ActionInfo) : ActionList × ActionErrNo :=
  match t.node? i with
  | some n => (t.unlink n.addr, .noErr)
  | none => (t, .sceneDelErr)

/-- `action_list_clear`. -/
def actionListClear (t : ActionList) : ActionList :=
  ⟨[], t.heap, nodup_nil, by simp, nodup_nil⟩

/-! ## Reconciliation -/

/-- The value of an action differs from the one of the array. -/
def ActionInfo.changed (d c : ActionInfo) : Bool :=
  !strncmpEq valueCodingMaxLen d.acValueCoding c.acValueCoding ||
    !strncmpEq valueMaxLen d.acValue c.acValue

/-- The parts of `action_list_sync`. -/
def actionSyncOps : Reconcile.Ops ActionList Nat ActionInfo ActionInfo where
  read t a := (t.stList.find? fun n => n.addr == a).map ActionNode.stActionInfo
  same := actionCompareEq
  meet t _ d c := some (if d.changed c then (actionListSet t c).1 else t)
  del t c := some (actionListDel t c).1
  add t c := some (actionListAdd t c)
  met _ _ flag := flag

/-- `action_list_sync`. -/
def actionListSync (t : ActionList) (pastActionInfo : List ActionInfo) : Option ActionList :=
  Reconcile.sync actionSyncOps (fun t => some (actionListClear t)) t.stList.isEmpty
    (t.stList.map ActionNode.addr) pastActionInfo t

/-! ## When the list holds the array -/

/-- The record without the result of its last execution, which is the engine's
own. -/
def ActionInfo.passed (i : ActionInfo) : ActionInfo := { i with acResult := [] }

namespace ActionList

/-- The list holds exactly the actions of the array. -/
def Holds (t : ActionList) (target : List ActionInfo) : Prop :=
  (t.stList.map fun n => n.stActionInfo.passed).Perm (target.map ActionInfo.passed)

/-- The actions with their addresses. -/
def view (t : ActionList) : List (Nat × ActionInfo) :=
  t.stList.map fun n => (n.addr, n.stActionInfo)

theorem mem_view {t : ActionList} {q : Nat × ActionInfo} :
    q ∈ t.view ↔ ∃ n ∈ t.stList, q = (n.addr, n.stActionInfo) := by
  simp only [view, mem_map, eq_comm]

end ActionList

/-- The array names no action twice, every action of the list is in it unless it
is empty, and an action of the list that differs from the one of the array has
another value. -/
structure ActionSyncOk (t : ActionList) (target : List ActionInfo) : Prop where
  unique : (target.map ActionInfo.identity).Nodup
  known : target ≠ [] → ∀ n ∈ t.stList, ∃ c ∈ target, n.stActionInfo.identity = c.identity
  seen : ∀ n ∈ t.stList, ∀ c ∈ target, n.stActionInfo.identity = c.identity →
    n.stActionInfo.changed c = true ∨ n.stActionInfo.passed = c.passed

section

variable {t : ActionList} {target : List ActionInfo}
variable {d c : ActionInfo}

/-- What meeting an action leaves of a record. -/
def ActionInfo.met (d c : ActionInfo) : ActionInfo := if d.changed c then c else d

theorem ActionInfo.identity_met (h : d.identity = c.identity) :
    (d.met c).identity = d.identity := by
  rw [met]
  split
  · exact h.symm
  · rfl

theorem ActionInfo.passed_met_iff :
    (d.met c).passed = c.passed ↔ d.changed c = true ∨ d.passed = c.passed := by
  rw [met]
  split
  · rename_i h
    exact iff_of_true rfl (.inl h)
  · rename_i h
    exact (or_iff_right h).symm

theorem stList_actionListSet (hn : n ∈ t.stList) (hi : n.stActionInfo.identity = i.identity) :
    (actionListSet t i).1.stList =
      t.stList.map fun m => if m.addr = n.addr then { m with stActionInfo := i } else m := by
  rw [actionListSet]
  split
  · rename_i m hm
    obtain ⟨hm, hid⟩ := ActionList.mem_of_node? hm
    rw [Keyed.eq_of_key_eq t.unique hn hm (hi.trans hid.symm)]
    rfl
  · rename_i hnone
    exact absurd hi (ActionList.node?_eq_none hnone n hn)

theorem stList_actionListAdd (hi : ∀ n ∈ t.stList, n.stActionInfo.identity ≠ i.identity) :
    (actionListAdd t i).stList = t.stList ++ [⟨t.heap, i⟩] := by
  rw [actionListAdd]
  split
  · rename_i n hn
    obtain ⟨hn, hid⟩ := ActionList.mem_of_node? hn
    exact absurd hid (hi n hn)
  · rfl

theorem stList_actionListDel (hn : n ∈ t.stList) (hi : n.stActionInfo.identity = i.identity) :
    (actionListDel t i).1.stList = t.stList.filter (·.addr != n.addr) := by
  rw [actionListDel]
  cases hfind : t.node? i with
  | none => exact absurd hi (ActionList.node?_eq_none hfind n hn)
  | some m =>
    obtain ⟨hm, hid⟩ := ActionList.mem_of_node? hfind
    rw [Keyed.eq_of_key_eq t.unique hn hm (hi.trans hid.symm)]
    rfl

theorem actionSyncOps_same :
    actionSyncOps.same d c = true ↔ d.identity = c.identity := actionCompareEq_iff

theorem actionSyncOps_lawful (target : List ActionInfo) :
    actionSyncOps.Lawful target (fun _ => True) ActionList.view ActionInfo.met where
  keys t _ := by
    rw [ActionList.view, map_map]
    exact t.addrs
  read t _ q hq := by
    obtain ⟨n, hn, rfl⟩ := ActionList.mem_view.mp hq
    show (t.stList.find? fun m => m.addr == n.addr).map _ = _
    rw [(Keyed.find?_eq_some_iff t.addrs).mpr ⟨hn, rfl⟩]
    rfl
  meet t _ q hq c _ hsame := by
    obtain ⟨n, hn, rfl⟩ := ActionList.mem_view.mp hq
    refine ⟨_, rfl, trivial, ?_⟩
    rw [ActionList.view, ActionList.view, map_map]
    cases hch : n.stActionInfo.changed c with
    | true =>
      rw [if_pos rfl, stList_actionListSet hn (actionSyncOps_same.mp hsame), map_map]
      apply map_congr_left
      intro m hm
      simp only [Function.comp_apply]
      split
      · rename_i hmn
        rw [Keyed.eq_of_key_eq t.addrs hm hn hmn, ActionInfo.met, if_pos hch]
      · rfl
    | false =>
      apply map_congr_left
      intro m hm
      simp only [Function.comp_apply]
      split
      · rename_i hmn
        rw [Keyed.eq_of_key_eq t.addrs hm hn hmn, ActionInfo.met, if_neg (by rw [hch]; decide)]
      · rfl

theorem actionSyncOps_distinct (h : (target.map ActionInfo.identity).Nodup) :
    actionSyncOps.Distinct target := by
  rw [List.Nodup, pairwise_map] at h
  exact h.imp fun hne d hc hc' =>
    hne ((actionSyncOps_same.mp hc).symm.trans (actionSyncOps_same.mp hc'))

theorem addAll_actions (cs : List ActionInfo) (t : ActionList)
    (hcs : (cs.map ActionInfo.identity).Nodup)
    (hfresh : ∀ c ∈ cs, ∀ n ∈ t.stList, n.stActionInfo.identity ≠ c.identity) :
    ∃ t', Reconcile.addAll actionSyncOps cs t = some t' ∧
      (t'.stList.map fun n => n.stActionInfo.passed).Perm
        ((t.stList.map fun n => n.stActionInfo.passed) ++ cs.map ActionInfo.passed) := by
  refine Reconcile.addAll_perm (J := fun (t : ActionList) cs =>
    (cs.map ActionInfo.identity).Nodup ∧
      ∀ c ∈ cs, ∀ n ∈ t.stList, n.stActionInfo.identity ≠ c.identity) ?_ cs t ⟨hcs, hfresh⟩
  rintro t c cs ⟨hcs, hfresh⟩
  have hlist := stList_actionListAdd (hfresh c mem_cons_self)
  rw [map_cons, nodup_cons] at hcs
  refine ⟨_, rfl, ⟨hcs.2, fun c' hc' n hn => ?_⟩, ?_⟩
  · rw [hlist] at hn
    rcases mem_append.mp hn with hn | hn
    · exact hfresh c' (mem_cons_of_mem c hc') n hn
    · rw [mem_singleton.mp hn]
      exact fun heq => hcs.1 (heq ▸ mem_map_of_mem hc')
  · rw [hlist, map_append]
    exact perm_append_singleton _ _

theorem ActionList.map_addr (t : ActionList) :
    t.stList.map ActionNode.addr = t.view.map Prod.fst := by
  rw [view, map_map]
  rfl

theorem passes_actions_holds_iff (hunique : (target.map ActionInfo.identity).Nodup)
    (hknown : ∀ n ∈ t.stList, ∃ c ∈ target, n.stActionInfo.identity = c.identity) :
    (∃ t', Reconcile.passes actionSyncOps target (t.stList.map ActionNode.addr) t = some t' ∧
        t'.Holds target) ↔
      ∀ n ∈ t.stList, ∀ c ∈ target, n.stActionInfo.identity = c.identity →
        n.stActionInfo.changed c = true ∨ n.stActionInfo.passed = c.passed := by
  have hdistinct := actionSyncOps_distinct hunique
  obtain ⟨t₁, -, hmet, hpasses⟩ := (actionSyncOps_lawful target).passes_eq (x := t)
    (J := fun _ => True) (g := fun _ flag => flag) hdistinct (fun _ _ => trivial)
    (fun _ _ _ _ _ => rfl) (fun _ _ _ _ _ _ => trivial) trivial fun q hq => by
      obtain ⟨n, hn, rfl⟩ := ActionList.mem_view.mp hq
      obtain ⟨c, hc, hid⟩ := hknown n hn
      exact ⟨c, hc, actionSyncOps_same.mpr hid⟩
  have hids : ∀ n ∈ t₁.stList, ∃ m ∈ t.stList,
      n.stActionInfo.identity = m.stActionInfo.identity := by
    intro n hn
    obtain ⟨q, hq, c, -, hsame, hr⟩ :=
      Keyed.exists_of_forall₂ hmet (ActionList.mem_view.mpr ⟨n, hn, rfl⟩)
    obtain ⟨m, hm, rfl⟩ := ActionList.mem_view.mp hq
    refine ⟨m, hm, ?_⟩
    rw [(Prod.mk.inj hr).2, ActionInfo.identity_met (actionSyncOps_same.mp hsame)]
  obtain ⟨t', hall, hperm⟩ := addAll_actions
    (target.filter fun c => !t.view.any fun q => actionSyncOps.same q.2 c) t₁
    ((filter_sublist.map _).nodup hunique) (by
      intro c hc n hn hid
      obtain ⟨m, hm, hnm⟩ := hids n hn
      have hnot := (mem_filter.mp hc).2
      rw [Bool.not_eq_true', any_eq_false] at hnot
      exact hnot _ (ActionList.mem_view.mpr ⟨m, hm, rfl⟩)
        (actionSyncOps_same.mpr (hnm.symm.trans hid)))
  have hiff := hmet.perm_iff (f := ActionInfo.passed) (g := ActionInfo.passed)
    (k := ActionInfo.identity) hdistinct
    (fun q _ c _ hsame => ActionInfo.identity_met (actionSyncOps_same.mp hsame) ▸
      actionSyncOps_same.mp hsame) hunique ?_
  · have hlist : (t₁.stList.map fun n => n.stActionInfo.passed) =
        t₁.view.map fun r => r.2.passed := by
      rw [ActionList.view, map_map]
      rfl
    rw [hlist] at hperm
    have hseen : (∀ n ∈ t.stList, ∀ c ∈ target, n.stActionInfo.identity = c.identity →
        n.stActionInfo.changed c = true ∨ n.stActionInfo.passed = c.passed) ↔
        ∀ q ∈ t.view, ∀ c ∈ target, actionSyncOps.same q.2 c = true →
          (q.2.met c).passed = c.passed := by
      constructor
      · intro h q hq c hc hsame
        obtain ⟨n, hn, rfl⟩ := ActionList.mem_view.mp hq
        exact ActionInfo.passed_met_iff.mpr (h n hn c hc (actionSyncOps_same.mp hsame))
      · intro h n hn c hc hid
        exact ActionInfo.passed_met_iff.mp
          (h _ (ActionList.mem_view.mpr ⟨n, hn, rfl⟩) c hc (actionSyncOps_same.mpr hid))
    rw [t.map_addr, hpasses, hseen, ← hiff]
    constructor
    · rintro ⟨t'', hall', hholds⟩
      obtain rfl := Option.some.inj (hall.symm.trans hall')
      exact hperm.symm.trans hholds
    · intro hholds
      exact ⟨t', hall, hperm.trans hholds⟩
  · rw [ActionList.view, pairwise_map]
    refine (pairwise_map.mp t.unique).imp fun hne c _ hsame => ?_
    rw [← Bool.not_eq_true, actionSyncOps_same]
    exact fun hsame' => hne ((actionSyncOps_same.mp hsame).trans hsame'.symm)

theorem ActionList.Holds.unique (h : t.Holds target) : (target.map ActionInfo.identity).Nodup := by
  have hperm := h.map ActionInfo.identity
  rw [map_map, map_map] at hperm
  exact hperm.nodup_iff.mp t.unique

/-- `action_list_sync` leaves the actions of the array exactly when it deletes
none and misses no change. -/
theorem actionListSync_holds_iff (t : ActionList) (target : List ActionInfo) :
    (∃ t', actionListSync t target = some t' ∧ t'.Holds target) ↔ ActionSyncOk t target := by
  rw [actionListSync, Reconcile.sync]
  by_cases hempty : t.stList = []
  · rw [if_pos (List.isEmpty_iff.mpr hempty)]
    constructor
    · rintro ⟨t', -, hholds⟩
      exact ⟨hholds.unique, by simp [hempty], by simp [hempty]⟩
    · intro hok
      obtain ⟨t', hall, hperm⟩ := addAll_actions target t hok.unique (by simp [hempty])
      rw [hempty, map_nil, nil_append] at hperm
      exact ⟨t', hall, hperm⟩
  rw [if_neg (by simpa using hempty)]
  by_cases htarget : target = []
  · rw [if_pos htarget, htarget]
    exact iff_of_true ⟨_, rfl, List.Perm.refl _⟩
      ⟨nodup_nil, fun h => absurd rfl h, fun _ _ c hc => absurd hc not_mem_nil⟩
  rw [if_neg htarget]
  constructor
  · rintro ⟨t', hpasses, hholds⟩
    have hknown : ∀ n ∈ t.stList, ∃ c ∈ target, n.stActionInfo.identity = c.identity := by
      intro n hn
      rw [t.map_addr] at hpasses
      obtain ⟨c, hc, hsame⟩ := (actionSyncOps_lawful target).matched_of_passes trivial hpasses _
        (ActionList.mem_view.mpr ⟨n, hn, rfl⟩)
      exact ⟨c, hc, actionSyncOps_same.mp hsame⟩
    exact ⟨hholds.unique, fun _ => hknown,
      (passes_actions_holds_iff hholds.unique hknown).mp ⟨t', hpasses, hholds⟩⟩
  · intro hok
    exact (passes_actions_holds_iff hok.unique (hok.known htarget)).mpr hok.seen

end

end Honyar.LocalScene
