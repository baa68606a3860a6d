import Honyar.Lib.Keyed
import Honyar.Lib.Lists
import Honyar.Lib.Run
import Honyar.Alink.MoreControl

/-!
# Groups of switches and their scenes

The tables and the gateway agree when the groups that have a name are those that have a scene,
and the conditions of each scene are the members of its group.  The services keep this in some
cases only: a deletion leaves the scene, and much of what can go wrong in a request does so
when the group has been deleted already.
-/

namespace Honyar.Alink.MoreControl

open Option List Function Db

variable {T : Tables} {db db' : Db} {sent : List Sent}
variable {g g' groupName : CText} {item : Json} {items : List Json} {ms : List Member}
  {root : Option Json}

/-! ## The gateway -/

/-- The scenes of a gateway: the conditions last sent for each. -/
abbrev Gateway := CText → Option (List Json)

/-- The text of a member. -/
def text? (o : Json) (name : String) : Option CText :=
  (o.getObjectItem name.toList).bind Json.valuestring?

/-- What an object does to the scenes. -/
def Gateway.apply (gw : Gateway) (o : Json) : Gateway :=
  match text? o "Op", text? o "Id" with
  | some op, some id =>
    if op = "AddScene".toList then Function.update gw id (some [])
    else if op = "DelScene".toList then Function.update gw id none
    else if op = "AddCond".toList then Function.update gw id ((gw id).map (· ++ [o]))
    else gw
  | _, _ => gw

/-- What is sent, in its order. -/
def Gateway.receive (gw : Gateway) : List Sent → Gateway
  | [] => gw
  | .dispatch os :: rest => receive (os.foldl Gateway.apply gw) rest
  | _ :: rest => receive gw rest

variable {gw : Gateway}

theorem apply_deleteObject (gw : Gateway) (g : CText) :
    gw.apply (deleteObject g) = Function.update gw g none := rfl

theorem apply_sceneObject (gw : Gateway) (g enable delayed : CText) :
    gw.apply (sceneObject g enable delayed) = Function.update gw g (some []) := rfl

theorem apply_condObject (gw : Gateway) (g deviceName hyKey : CText) :
    gw.apply (condObject g deviceName hyKey) =
      Function.update gw g ((gw g).map (· ++ [condObject g deviceName hyKey])) := rfl

theorem foldl_apply_conds {cs : List Json} {os : List Json}
    (h : ∀ o ∈ os, ∃ deviceName hyKey, o = condObject g deviceName hyKey) (hg : gw g = some cs) :
    os.foldl Gateway.apply gw = Function.update gw g (some (cs ++ os)) := by
  induction os generalizing gw cs with
  | nil => rw [append_nil, ← hg, update_eq_self, foldl_nil]
  | cons o os ih =>
    obtain ⟨⟨deviceName, hyKey, rfl⟩, hos⟩ := forall_mem_cons.mp h
    rw [foldl_cons, apply_condObject, hg, map_some,
      ih hos (update_self ..), update_idem, append_assoc,
      singleton_append]

/-! ## Agreement -/

/-- The local name of a switch of a device. -/
def switchOf? (T : Tables) (deviceId switchLoop : CText) : Option CText := do
  let dev ← T.cloudLinkListGetById deviceId
  let a ← dev.attr.find? fun a => a.cloudKey == switchLoop
  return a.hyKey

/-- The condition of a member. -/
def condOf? (T : Tables) (m : Member) : Option Json :=
  (switchOf? T m.deviceId m.switchLoop).map (condObject m.groupId m.deviceId)

/-- The groups that have a name have a scene, and its conditions are their members. -/
structure Agree (T : Tables) (db : Db) (gw : Gateway) : Prop where
  groups : ∀ g, (gw g).isSome ↔ g ∈ db.names.map Prod.fst
  conds : ∀ g os, gw g = some os → (db.table1Select g).mapM (condOf? T) = some os

/-! ## What a request does -/

/-- The row of an item. -/
def rowOf? (groupId : CText) (arraySub : Json) : Option Member := do
  let productKey ← text? arraySub "productKey"
  let deviceName ← text? arraySub "deviceName"
  let switchLoop ← text? arraySub "SwitchLoop"
  return ⟨groupId, productKey, deviceName, switchLoop⟩

theorem insertItem_cases (h : db.insertItem g item = some db') :
    ∃ m, rowOf? g item = some m ∧ db' = { db with members := db.members ++ [m] } := by
  simp only [insertItem, table1Insert, bind_eq_bind, bind_eq_some_iff,
    Option.pure_def, some.injEq, CText.sprintf_singleton_eq_some] at h
  obtain ⟨pk, hpk, productKey, hp, dn, hdn, deviceName, hd, sl, hsl, switchLoop, hs, _, ⟨-, rfl⟩,
    _, ⟨-, rfl⟩, _, ⟨-, rfl⟩, _, ⟨-, rfl⟩, rfl⟩ := h
  refine ⟨⟨g, productKey, deviceName, switchLoop⟩, ?_, rfl⟩
  rw [rowOf?, text?, text?, text?, hpk, hdn, hsl]
  simp [hp, hd, hs]

theorem foldlM_insertItem (h : items.foldlM (Db.insertItem g) db = some db') :
    ∃ ms, items.mapM (rowOf? g) = some ms ∧ db' = { db with members := db.members ++ ms } := by
  induction items generalizing db with
  | nil =>
    cases h
    exact ⟨[], rfl, by rw [append_nil]⟩
  | cons item items ih =>
    rw [foldlM_cons] at h
    obtain ⟨db₁, hitem, hrest⟩ := bind_eq_some_iff.mp h
    obtain ⟨m, hm, rfl⟩ := insertItem_cases hitem
    obtain ⟨ms, hms, rfl⟩ := ih hrest
    refine ⟨m :: ms, ?_, by simp⟩
    rw [mapM_cons, hm, hms]
    rfl

theorem rowOf?_eq_some {m : Member} (h : rowOf? g item = some m) :
    m.groupId = g ∧ text? item "deviceName" = some m.deviceId ∧
      text? item "SwitchLoop" = some m.switchLoop := by
  simp only [rowOf?, bind_eq_bind, bind_eq_some_iff, Option.pure_def,
    some.injEq] at h
  obtain ⟨productKey, -, deviceName, hd, switchLoop, hs, rfl⟩ := h
  exact ⟨rfl, hd, hs⟩

theorem switchKey_eq {dev : CloudLinkDev} {j : Option Json} {t : CText} {k : Option CText}
    (hj : j.bind Json.valuestring? = some t) (h : switchKey dev j = some k) :
    k = (dev.attr.find? fun a => a.cloudKey == t).map CloudLinkDevAttr.hyKey := by
  obtain ⟨j, rfl, ht⟩ := bind_eq_some_iff.mp hj
  unfold switchKey at h
  split at h
  next hempty =>
    cases h
    rw [List.isEmpty_iff.mp hempty]
    rfl
  next =>
    simp only [bind_eq_bind, bind_some, ht, Option.pure_def, some.injEq] at h
    exact h.symm

/-- The conditions that are sent are those of the rows that are put in. -/
theorem triggersArray_eq {r : Option (List Json)} (hms : items.mapM (rowOf? g) = some ms)
    (h : triggersArray T g items = some r) : r = ms.mapM (condOf? T) := by
  induction items generalizing ms r with
  | nil =>
    cases hms
    cases h
    rfl
  | cons item items ih =>
    simp only [mapM_cons, bind_eq_bind, bind_eq_some_iff, Option.pure_def,
      some.injEq] at hms
    obtain ⟨m, hm, ms, hms, rfl⟩ := hms
    obtain ⟨rfl, hd, hs⟩ := rowOf?_eq_some hm
    obtain ⟨dj, hdj, hd⟩ := bind_eq_some_iff.mp hd
    simp only [triggersArray, hdj, hd, bind_eq_bind, bind_some] at h
    rw [mapM_cons, condOf?, switchOf?]
    cases hdev : T.cloudLinkListGetById m.deviceId with
    | none =>
      rw [hdev] at h
      cases h
      rfl
    | some dev =>
      rw [hdev] at h
      obtain ⟨k, hk, h⟩ := bind_eq_some_iff.mp h
      obtain rfl := switchKey_eq hs hk
      cases hfind : dev.attr.find? fun a => a.cloudKey == m.switchLoop with
      | none =>
        rw [hfind] at h
        cases h
        simp [hfind]
      | some a =>
        rw [hfind] at h
        obtain ⟨r, hr, h⟩ := bind_eq_some_iff.mp h
        cases h
        rw [ih hms hr]
        simp only [bind_eq_bind, bind_some, hfind, Option.pure_def,
          map_some]
        cases ms.mapM (condOf? T) <;> rfl

/-! ## What agreement becomes -/

/-- The tables without a group. -/
def Db.clear (db : Db) (g : CText) : Db := (db.table1Delete g).table2Delete g

/-- The tables with a group stored anew. -/
def Db.store (db : Db) (g groupName : CText) (ms : List Member) : Db where
  members := (db.clear g).members ++ ms
  names := Store.replace Prod.fst (g, groupName) (db.clear g).names

theorem table1Select_clear_of_ne (h : g' ≠ g) :
    (db.clear g).table1Select g' = db.table1Select g' := by
  simp only [table1Select, clear, table2Delete, table1Delete, Store.remove,
    List.filter_filter]
  refine filter_congr fun m _ => ?_
  by_cases hm : m.groupId = g'
  · simp [hm, h]
  · simp [hm]

theorem table1Select_clear_self (g : CText) : (db.clear g).table1Select g = [] := by
  simp [table1Select, clear, table2Delete, table1Delete, Store.remove,
    List.filter_filter]

theorem table1Select_store (hms : ∀ m ∈ ms, m.groupId = g) (g' : CText) :
    (db.store g groupName ms).table1Select g' = if g' = g then ms else db.table1Select g' := by
  have happ : (db.store g groupName ms).table1Select g' =
      (db.clear g).table1Select g' ++ ms.filter fun m => m.groupId = g' := filter_append ..
  rw [happ]
  split
  next heq =>
    subst heq
    rw [table1Select_clear_self, nil_append, filter_eq_self]
    simpa using hms
  next hne =>
    have hnil : ms.filter (fun m => decide (m.groupId = g')) = [] := by
      rw [filter_eq_nil_iff]
      intro m hm heq
      exact hne (by rw [← hms m hm]; exact (of_decide_eq_true heq).symm)
    rw [table1Select_clear_of_ne hne, hnil, append_nil]

theorem mem_names_clear :
    g' ∈ (db.clear g).names.map Prod.fst ↔ g' ≠ g ∧ g' ∈ db.names.map Prod.fst := by
  simp only [List.mem_map, clear, table2Delete, table1Delete, Store.mem_remove]
  constructor
  · rintro ⟨n, ⟨hn, hne⟩, rfl⟩
    exact ⟨hne, n, hn, rfl⟩
  · rintro ⟨hne, n, hn, rfl⟩
    exact ⟨n, ⟨hn, hne⟩, rfl⟩

theorem mem_names_store :
    g' ∈ (db.store g groupName ms).names.map Prod.fst ↔ g' = g ∨ g' ∈ db.names.map Prod.fst := by
  have h : g' ∈ (db.store g groupName ms).names.map Prod.fst ↔
      g' = g ∨ g' ≠ g ∧ g' ∈ (db.clear g).names.map Prod.fst := by
    simp only [List.mem_map, store, Store.mem_replace]
    constructor
    · rintro ⟨n, rfl | ⟨hn, hne⟩, rfl⟩
      · exact .inl rfl
      · exact .inr ⟨hne, n, hn, rfl⟩
    · rintro (rfl | ⟨hne, n, hn, rfl⟩)
      · exact ⟨(g', groupName), .inl rfl, rfl⟩
      · exact ⟨n, .inr ⟨hn, hne⟩, rfl⟩
  rw [h, mem_names_clear]
  tauto

/-- A group that is stored anew agrees with its scene if that has been added with the
conditions of all members. -/
theorem agree_store_iff (h : Agree T db gw) (hms : ∀ m ∈ ms, m.groupId = g)
    {c : Option (List Json)} :
    Agree T (db.store g groupName ms) (Function.update gw g c) ↔
      ∃ os, c = some os ∧ ms.mapM (condOf? T) = some os := by
  constructor
  · rintro ⟨hgroups, hconds⟩
    have hc := (hgroups g).mpr (mem_names_store.mpr (.inl rfl))
    rw [update_self] at hc
    obtain ⟨os, rfl⟩ := isSome_iff_exists.mp hc
    have hos := hconds g os (update_self ..)
    rw [table1Select_store hms, if_pos rfl] at hos
    exact ⟨os, rfl, hos⟩
  · rintro ⟨os, rfl, hos⟩
    constructor
    · intro g'
      rw [mem_names_store]
      by_cases hg : g' = g
      · subst hg
        rw [update_self]
        exact ⟨fun _ => .inl rfl, fun _ => rfl⟩
      · rw [update_of_ne hg, h.groups, or_iff_right hg]
    · intro g' os' hos'
      rw [table1Select_store hms]
      by_cases hg : g' = g
      · subst hg
        rw [update_self, some.injEq] at hos'
        rw [if_pos rfl, ← hos']
        exact hos
      · rw [update_of_ne hg] at hos'
        rw [if_neg hg]
        exact h.conds g' os' hos'

theorem agree_clear (h : Agree T db gw) (g : CText) :
    Agree T (db.clear g) (Function.update gw g none) := by
  constructor
  · intro g'
    rw [mem_names_clear]
    by_cases hg : g' = g
    · subst hg
      rw [update_self]
      exact ⟨fun hsome => absurd hsome Bool.false_ne_true, fun hne => absurd rfl hne.1⟩
    · rw [update_of_ne hg, h.groups, and_iff_right hg]
  · intro g' os hos
    by_cases hg : g' = g
    · subst hg
      rw [update_self] at hos
      cases hos
    · rw [update_of_ne hg] at hos
      rw [table1Select_clear_of_ne hg]
      exact h.conds g' os hos

theorem agree_clear_iff (h : Agree T db gw) (g : CText) :
    Agree T (db.clear g) gw ↔ g ∉ db.names.map Prod.fst := by
  rw [← h.groups, not_isSome_iff_eq_none]
  constructor
  · intro hclear
    rw [← not_isSome_iff_eq_none, hclear.groups, mem_names_clear]
    exact fun hne => hne.1 rfl
  · intro hnone
    have := agree_clear h g
    rwa [← hnone, update_eq_self] at this

/-! ## Steps -/

/-- The group a request is about. -/
def groupOf? (root : Option Json) : Option CText :=
  (member root "GroupId").bind Json.valuestring?

/-- A request that creates or modifies a group with everything it needs. -/
def full? (root : Option Json) : Option (List Json) :=
  match member root "GroupName", member root "ListData" with
  | some _, some listData => some listData.children
  | _, _ => none

theorem addMod_cases {b : CText} (h : addModMoreControl T b db root = some (db', sent)) :
    groupOf? root = none ∧ db' = db ∧ sent = [.returns (-1)] ∨
      ∃ g, groupOf? root = some g ∧
        (full? root = none ∧ db' = db.clear g ∧
            sent = [.dispatch [deleteObject g], .returns (-1)] ∨
          ∃ items groupName ms added, full? root = some items ∧
            items.mapM (rowOf? g) = some ms ∧ db' = db.store g groupName ms ∧
            moreControlAddTriggers T g items = some added ∧
            sent = .dispatch [deleteObject g] :: added ++
              [responseControl db' g b, .returns 0]) := by
  unfold addModMoreControl at h
  split at h
  next hg =>
    cases h
    exact .inl ⟨by rw [groupOf?, hg]; rfl, rfl, rfl⟩
  next gj hgj =>
    obtain ⟨g, hg, h⟩ := bind_eq_some_iff.mp h
    refine .inr ⟨g, by rw [groupOf?, hgj]; exact hg, ?_⟩
    split at h
    next groupName listData hname hlist =>
      simp only [bind_eq_bind, bind_eq_some_iff, Option.pure_def,
        some.injEq, Prod.mk.injEq] at h
      obtain ⟨db₁, hrows, name, hname', db₂, hinsert, added, hadded, rfl, rfl⟩ := h
      obtain ⟨ms, hms, rfl⟩ := foldlM_insertItem hrows
      simp only [table2Insert, bind_eq_bind, bind_eq_some_iff, Option.pure_def,
        some.injEq, CText.sprintf_singleton_eq_some] at hinsert
      obtain ⟨_, ⟨-, rfl⟩, _, ⟨-, rfl⟩, rfl⟩ := hinsert
      exact .inr ⟨listData.children, name, ms, added, by rw [full?, hname, hlist], hms, rfl,
        hadded, rfl⟩
    next hnone =>
      cases h
      refine .inl ⟨?_, rfl, rfl⟩
      unfold full?
      split
      · next groupName listData hname hlist => exact (hnone _ _ hname hlist).elim
      · rfl

theorem groupId_of_mem (hms : items.mapM (rowOf? g) = some ms) : ∀ m ∈ ms, m.groupId = g := by
  intro m hm
  obtain ⟨item, -, hitem⟩ := Keyed.exists_of_forall₂ (mapM_eq_some_iff.mp hms) hm
  exact (rowOf?_eq_some hitem).1

/-- The scene of a group that has been stored: it is there when the group has members, and has
conditions when all of them are known. -/
theorem receive_stored {added rest : List Sent} (hms : items.mapM (rowOf? g) = some ms)
    (h : moreControlAddTriggers T g items = some added)
    (hrest : ∀ gw : Gateway, gw.receive rest = gw) :
    gw.receive (.dispatch [deleteObject g] :: added ++ rest) =
      Function.update gw g
        (if items = [] then none else some ((ms.mapM (condOf? T)).getD [])) := by
  unfold moreControlAddTriggers at h
  split at h
  next hempty =>
    cases h
    rw [if_pos (List.isEmpty_iff.mp hempty)]
    exact hrest _
  next hne =>
    rw [if_neg fun hnil => hne (List.isEmpty_iff.mpr hnil)]
    obtain ⟨r, hr, h⟩ := bind_eq_some_iff.mp h
    cases h
    rw [triggersArray_eq hms hr]
    have hscene : (gw.apply (deleteObject g)).apply (sceneObject g ['1'] ['0']) =
        update gw g (some []) := by
      rw [apply_deleteObject, apply_sceneObject, update_idem]
    cases hos : ms.mapM (condOf? T) with
    | none =>
      show ((gw.apply (deleteObject g)).apply (sceneObject g ['1'] ['0'])).receive rest = _
      rw [hscene, hrest]
      rfl
    | some os =>
      have hconds : ∀ o ∈ os, ∃ deviceName hyKey, o = condObject g deviceName hyKey := by
        intro o ho
        obtain ⟨m, hm, hcond⟩ := Keyed.exists_of_forall₂ (mapM_eq_some_iff.mp hos) ho
        obtain ⟨hyKey, -, rfl⟩ := map_eq_some_iff.mp hcond
        exact ⟨m.deviceId, hyKey, by rw [groupId_of_mem hms m hm]⟩
      have hfold := foldl_apply_conds hconds
        (update_self g (some ([] : List Json)) gw)
      rw [update_idem, nil_append] at hfold
      cases os with
      | nil =>
        show ((gw.apply (deleteObject g)).apply (sceneObject g ['1'] ['0'])).receive rest = _
        rw [hscene, hrest]
        rfl
      | cons o os =>
        show (List.foldl Gateway.apply
          ((gw.apply (deleteObject g)).apply (sceneObject g ['1'] ['0'])) (o :: os)).receive
            rest = _
        rw [hscene, hfold, hrest]
        rfl

/-- Device and switch of an item are known. -/
def Known (T : Tables) (item : Json) : Prop :=
  ∃ d s, text? item "deviceName" = some d ∧ text? item "SwitchLoop" = some s ∧
    (switchOf? T d s).isSome

/-- A creation or modification that has all it needs names switches that are known, and at
least one; one that lacks something is about a group that is not stored. -/
def PutMeets (T : Tables) (db : Db) (root : Option Json) : Prop :=
  ∀ g, groupOf? root = some g →
    match full? root with
    | some items => items ≠ [] ∧ ∀ item ∈ items, Known T item
    | none => g ∉ db.names.map Prod.fst ∧ g ∉ db.members.map Member.groupId

/-- A deletion is about a group that has no name. -/
def Meets (T : Tables) (db : Db) : Service × Option Json → Prop
  | (.add, root) => PutMeets T db root
  | (.modify, root) => PutMeets T db root
  | (.query, _) => True
  | (.delete, root) => ∀ g, groupOf? root = some g → g ∉ db.names.map Prod.fst

/-- What is expected of a step: the tables and the gateway agree, and nothing has changed when
the request returns -1. -/
def Kept (T : Tables) (db : Db) (gw : Gateway) (db' : Db) (sent : List Sent) : Prop :=
  Agree T db' (gw.receive sent) ∧
    (sent.getLast? = some (.returns (-1)) → db' = db ∧ gw.receive sent = gw)

theorem known_iff {m : Member} (h : rowOf? g item = some m) :
    Known T item ↔ (condOf? T m).isSome := by
  obtain ⟨-, hd, hs⟩ := rowOf?_eq_some h
  rw [condOf?, isSome_map]
  constructor
  · rintro ⟨d, s, hd', hs', hsome⟩
    rw [hd, some.injEq] at hd'
    rw [hs, some.injEq] at hs'
    rwa [hd', hs']
  · intro hsome
    exact ⟨m.deviceId, m.switchLoop, hd, hs, hsome⟩

theorem known_all_iff (h : items.mapM (rowOf? g) = some ms) :
    (∀ item ∈ items, Known T item) ↔ (ms.mapM (condOf? T)).isSome := by
  rw [mapM_isSome_iff]
  have hrows := mapM_eq_some_iff.mp h
  clear h
  induction hrows with
  | nil => simp
  | cons hrow _ ih =>
    rw [forall_mem_cons, forall_mem_cons]
    exact and_congr (known_iff hrow) ih

theorem clear_eq_self_iff :
    db.clear g = db ↔ g ∉ db.names.map Prod.fst ∧ g ∉ db.members.map Member.groupId := by
  have hfilter : ∀ {ρ : Type} (key : ρ → CText) (rows : List ρ),
      Store.remove key g rows = rows ↔ g ∉ rows.map key := by
    intro ρ key rows
    rw [Store.remove, filter_eq_self]
    simp
  rw [and_comm, ← hfilter Prod.fst db.names, ← hfilter Member.groupId db.members]
  constructor
  · intro heq
    exact ⟨congrArg members heq, congrArg names heq⟩
  · rintro ⟨hmembers, hnames⟩
    exact congrArg₂ mk hmembers hnames

theorem addMod_kept_iff (h : Agree T db gw) {b : CText}
    (hs : addModMoreControl T b db root = some (db', sent)) :
    Kept T db gw db' sent ↔ PutMeets T db root := by
  rcases addMod_cases hs with ⟨hg, rfl, rfl⟩ | ⟨g, hg, ⟨hroot, rfl, rfl⟩ |
    ⟨items, groupName, ms, added, hroot, hms, rfl, hadded, rfl⟩⟩
  · refine ⟨fun _ g hg' => ?_, fun _ => ⟨h, fun _ => ⟨rfl, rfl⟩⟩⟩
    rw [hg] at hg'
    cases hg'
  · have hmeets : PutMeets T db root ↔
        g ∉ db.names.map Prod.fst ∧ g ∉ db.members.map Member.groupId := by
      simp [PutMeets, hg, hroot]
    rw [hmeets, ← clear_eq_self_iff]
    constructor
    · rintro ⟨-, hsame⟩
      exact (hsame rfl).1
    · intro hclear
      refine ⟨agree_clear h g, fun _ => ⟨hclear, ?_⟩⟩
      have hnone : gw g = none := by
        rw [← not_isSome_iff_eq_none, h.groups]
        exact (clear_eq_self_iff.mp hclear).1
      show update gw g none = gw
      rw [← hnone, update_eq_self]
  · have hmeets : PutMeets T db root ↔ items ≠ [] ∧ (ms.mapM (condOf? T)).isSome := by
      rw [← known_all_iff hms]
      simp [PutMeets, hg, hroot]
    rw [hmeets, Kept, receive_stored hms hadded (fun _ => rfl),
      agree_store_iff h (groupId_of_mem hms)]
    constructor
    · rintro ⟨⟨os, hif, hos⟩, -⟩
      refine ⟨fun hnil => ?_, by rw [hos]; rfl⟩
      rw [if_pos hnil] at hif
      cases hif
    · rintro ⟨hne, hsome⟩
      obtain ⟨os, hos⟩ := isSome_iff_exists.mp hsome
      refine ⟨⟨os, by rw [if_neg hne, hos]; rfl, hos⟩, fun hlast => ?_⟩
      rw [getLast?_append] at hlast
      cases hlast

theorem query_kept (h : Agree T db gw) (hs : queryMoreControl db root = some (db', sent)) :
    Kept T db gw db' sent := by
  unfold queryMoreControl at hs
  split at hs
  · cases hs
    exact ⟨h, fun _ => ⟨rfl, rfl⟩⟩
  · split at hs <;> cases hs
    · exact ⟨h, fun _ => ⟨rfl, rfl⟩⟩
    · exact ⟨h, fun _ => ⟨rfl, rfl⟩⟩

theorem delete_kept_iff (h : Agree T db gw) (hs : deleteMoreControl db root = some (db', sent)) :
    Kept T db gw db' sent ↔ ∀ g, groupOf? root = some g → g ∉ db.names.map Prod.fst := by
  unfold deleteMoreControl at hs
  split at hs
  next hg =>
    cases hs
    refine ⟨fun _ g hg' => ?_, fun _ => ⟨h, fun _ => ⟨rfl, rfl⟩⟩⟩
    rw [groupOf?, hg] at hg'
    cases hg'
  next gj hgj =>
    obtain ⟨g, hg, hs⟩ := bind_eq_some_iff.mp hs
    cases hs
    have hgroup : groupOf? root = some g := by
      rw [groupOf?, hgj]
      exact hg
    have hagree := agree_clear_iff h g
    constructor
    · rintro ⟨hclear, -⟩ g' hg'
      rw [hgroup, some.injEq] at hg'
      exact hg' ▸ hagree.mp hclear
    · intro hnot
      refine ⟨hagree.mpr (hnot g hgroup), fun hlast => ?_⟩
      simp at hlast

theorem kept_iff (h : Agree T db gw) {request : Service × Option Json}
    (hs : handle T db request = some (db', sent)) :
    Kept T db gw db' sent ↔ Meets T db request := by
  obtain ⟨service, root⟩ := request
  cases service with
  | add => exact addMod_kept_iff h hs
  | modify => exact addMod_kept_iff h hs
  | query => exact iff_of_true (query_kept h hs) trivial
  | delete => exact delete_kept_iff h hs

/-! ## Runs -/

/-- A request with the gateway that gets what is sent. -/
def step (T : Tables) (s : Db × Gateway) (request : Service × Option Json) :
    Option ((Db × Gateway) × List Sent) :=
  (handle T s.1 request).map fun x => ((x.1, Gateway.receive s.2 x.2), x.2)

/-- No group, no scene. -/
def start : Db × Gateway := (⟨[], []⟩, fun _ => none)

theorem agree_start : Agree T start.1 start.2 :=
  ⟨fun _ => by simp [start], fun _ _ h => by cases h⟩

/-- In a run of requests, every step keeps what is expected exactly when each request is one
that does. -/
theorem groups_agree_iff {requests : List (Service × Option Json)} {s : Db × Gateway}
    (h : Run.run (step T) start requests = some (s, sent)) :
    Run.Along (step T) (fun s request => ∀ x ∈ step T s request, Kept T s.1 s.2 x.1.1 x.2) start
        requests ↔
      Run.Along (step T) (fun s request => Meets T s.1 request) start requests := by
  refine Run.along_iff_along (R := fun s => Agree T s.1 s.2) ?_ ?_ agree_start h
  · intro s request s' o hr hs
    obtain ⟨⟨db', sent⟩, hx, heq⟩ := map_eq_some_iff.mp hs
    cases heq
    rw [← kept_iff hr hx]
    simp [hs]
  · intro s request s' o hr hkept hs
    have := (hkept _ hs).1
    obtain ⟨⟨db', sent⟩, hx, heq⟩ := map_eq_some_iff.mp hs
    cases heq
    exact this

namespace Sample

/-- A device with one switch. -/
def tables : Tables where
  cloudLinkListGetById name :=
    if name = "dev".toList then some ⟨[⟨"Power".toList, "PowerSwitch".toList⟩], []⟩ else none
  hylinkListGetById _ := none
  table0Select _ := []
  printUnformatted _ := []

def switch : Json :=
  .object [("productKey".toList, .string "p".toList), ("deviceName".toList, .string "dev".toList),
    ("SwitchLoop".toList, .string "PowerSwitch".toList)]

def add : Service × Option Json :=
  (.add, some (.object [("GroupId".toList, .string ['g']), ("GroupName".toList, .string ['n']),
    ("ListData".toList, .array [switch])]))

def delete : Service × Option Json :=
  (.delete, some (.object [("GroupId".toList, .string ['g'])]))

end Sample

theorem groups_agree_added :
    Run.Along (step Sample.tables) (fun s request =>
      ∀ x ∈ step Sample.tables s request, Kept Sample.tables s.1 s.2 x.1.1 x.2) start
        [Sample.add] := by
  refine (groups_agree_iff rfl).mpr ⟨?_, fun _ _ => trivial⟩
  rintro g ⟨⟩
  refine ⟨cons_ne_nil _ _, fun item hitem => ?_⟩
  rw [mem_singleton.mp hitem]
  exact ⟨"dev".toList, "PowerSwitch".toList, rfl, rfl, rfl⟩

/-- A group that is deleted leaves its scene. -/
theorem scene_outlives_group : ¬ ∀ (T : Tables) (requests : List (Service × Option Json))
    (s : Db × Gateway) (sent : List Sent), Run.run (step T) start requests = some (s, sent) →
      Run.Along (step T)
        (fun s request => ∀ x ∈ step T s request, Kept T s.1 s.2 x.1.1 x.2) start requests := by
  intro h
  obtain ⟨-, hrest⟩ := h Sample.tables [Sample.add, Sample.delete] _ _ rfl
  have hagree := ((hrest _ rfl).1 _ rfl).1
  have hname := (hagree.groups ['g']).mp rfl
  cases hname

end Honyar.Alink.MoreControl
