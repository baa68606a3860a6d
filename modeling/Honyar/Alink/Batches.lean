import Honyar.Alink.Operand

/-!
# Actions in batches

The loops of `addActions` (scene_add.c): one index goes through the actions, and an upper bound
moves ahead of it by ten.  What is sent at once for a scene and what is gathered for devices is
written down as it happens.  The same arrays come of cutting the actions into tens.
-/

namespace Honyar.Alink

open CText Option List

variable {dispatchNum : Nat} {a : Json} {batch : List Json}

/-! ## The code -/

/-- What `addActions` calls. -/
inductive ActionEvent where
  /-- `table0_select`, with the arrays its callback sends. -/
  | select (sceneId : CText) (sent : List (List Json))
  /-- `sceneHyDispatch`. -/
  | dispatch (actionsArray : List Json)

variable {es : List ActionEvent}

/-- The action refers to a scene. -/
def isReference (actionsSub : Json) : Bool :=
  (member (actionsSub.getObjectItem "params".toList) "sceneId").isSome

/-- The scene an action refers to. -/
def reference (actionsSub : Json) : Option CText := do
  (← member (actionsSub.getObjectItem "params".toList) "sceneId").valuestring?

/-- What is called for an action that refers to a scene. -/
def selectScene (T : Tables) (localSceneId : CText) (actionsSub : Json) : Option ActionEvent := do
  let sceneId ← reference actionsSub
  return .select sceneId
    ((T.table0Select sceneId).map fun ruleId => [addActionsForSceneId T localSceneId ruleId])

/-- The object of an action on a device. -/
def deviceObject (T : Tables) (localSceneId : CText) (actionsSub : Json) : Option Json := do
  let arrayItem : Members :=
    [("Op".toList, .string "AddAction".toList), ("Id".toList, .string localSceneId)]
  return .object
    (← getSceneDevStatus T (actionsSub.getObjectItem "params".toList) arrayItem)

/-- The inner loop with its remaining rounds: what it calls, and `actionsArray`. -/
def batchLoop (T : Tables) (localSceneId : CText) (actions : List Json) :
    Nat → Nat → Option (List ActionEvent × List Json)
  | 0, _ => some ([], [])
  | rounds + 1, i =>
    match actions[i]? with
    | none => batchLoop T localSceneId actions rounds (i + 1)
    | some actionsSub =>
      if isReference actionsSub then do
        let e ← selectScene T localSceneId actionsSub
        let (es, os) ← batchLoop T localSceneId actions rounds (i + 1)
        return (e :: es, os)
      else do
        let o ← deviceObject T localSceneId actionsSub
        let (es, os) ← batchLoop T localSceneId actions rounds (i + 1)
        return (es, o :: os)

/-- The upper bound of the next batch. -/
def nextBound (actionsSize dispatchNum : Nat) : Nat :=
  if actionsSize > dispatchNum + 10 then dispatchNum + 10 else actionsSize

/-- The outer loop. -/
def actionLoop (T : Tables) (localSceneId : CText) (actions : List Json) (dispatchNum i : Nat) :
    Option (List ActionEvent) := do
  let bound := nextBound actions.length dispatchNum
  let (es, actionsArray) ← batchLoop T localSceneId actions (bound - i) i
  if nextBound actions.length dispatchNum < actions.length then
    let rest ← actionLoop T localSceneId actions bound (max i bound)
    return es ++ .dispatch actionsArray :: rest
  else return es ++ [.dispatch actionsArray]
termination_by actions.length - dispatchNum
decreasing_by
  rename_i h
  unfold nextBound at h ⊢
  split at h <;> split <;> omega

/-- `addActions`: what it calls, in order. -/
def addActionsCalls (T : Tables) (localSceneId : CText) (actions : List Json) :
    Option (List ActionEvent) :=
  if actions.length = 0 then some [] else actionLoop T localSceneId actions 0 0

/-! ## One batch -/

/-- The two kinds of actions of a batch, each in their order. -/
def batchOf (T : Tables) (localSceneId : CText) (batch : List Json) :
    Option (List ActionEvent × List Json) := do
  let es ← (batch.filter isReference).mapM (selectScene T localSceneId)
  let os ← (batch.filter fun a => !isReference a).mapM (deviceObject T localSceneId)
  return (es, os)

variable {T : Tables} {localSceneId : CText} {actions : List Json}

theorem batchOf_cons (a : Json) (batch : List Json) :
    batchOf T localSceneId (a :: batch) =
      if isReference a then do
        let e ← selectScene T localSceneId a
        let (es, os) ← batchOf T localSceneId batch
        return (e :: es, os)
      else do
        let o ← deviceObject T localSceneId a
        let (es, os) ← batchOf T localSceneId batch
        return (es, o :: os) := by
  unfold batchOf
  by_cases ha : isReference a = true
  · rw [if_pos ha, filter_cons_of_pos ha, filter_cons_of_neg (by simp [ha]),
      mapM_cons]
    simp only [bind_eq_bind, bind_assoc, Option.pure_def, bind_some]
  · rw [if_neg ha, filter_cons_of_neg ha, filter_cons_of_pos (by simp [ha]),
      mapM_cons]
    cases deviceObject T localSceneId a with
    | none => cases (batch.filter isReference).mapM (selectScene T localSceneId) <;> rfl
    | some o =>
      simp only [bind_eq_bind, bind_assoc, Option.pure_def, bind_some]

theorem batchLoop_eq {rounds i : Nat} (h : i + rounds ≤ actions.length) :
    batchLoop T localSceneId actions rounds i =
      batchOf T localSceneId ((actions.drop i).take rounds) := by
  induction rounds generalizing i with
  | zero => rfl
  | succ rounds ih =>
    have hi : i < actions.length := by omega
    have hget : actions[i]? = some actions[i] := getElem?_eq_getElem hi
    rw [batchLoop, hget, drop_eq_getElem_cons hi, take_succ_cons, batchOf_cons,
      ih (by omega)]

theorem actionLoop_eq (h : dispatchNum < actions.length) :
    actionLoop T localSceneId actions dispatchNum dispatchNum = (do
      let (es, os) ← batchOf T localSceneId ((actions.drop dispatchNum).take 10)
      if dispatchNum + 10 < actions.length then
        let rest ← actionLoop T localSceneId actions (dispatchNum + 10) (dispatchNum + 10)
        return es ++ .dispatch os :: rest
      else return es ++ [.dispatch os]) := by
  rw [actionLoop]
  by_cases hmore : dispatchNum + 10 < actions.length
  · have hbound : nextBound actions.length dispatchNum = dispatchNum + 10 := if_pos hmore
    have hmax : max dispatchNum (dispatchNum + 10) = dispatchNum + 10 := by omega
    simp only [hbound, hmax, if_pos hmore, Nat.add_sub_cancel_left,
      batchLoop_eq (Nat.le_of_lt hmore)]
  · have hbound : nextBound actions.length dispatchNum = actions.length := if_neg hmore
    have hround : dispatchNum + (actions.length - dispatchNum) ≤ actions.length := by omega
    have htake : (actions.drop dispatchNum).take 10 =
        (actions.drop dispatchNum).take (actions.length - dispatchNum) := by
      rw [take_of_length_le (by rw [length_drop]; omega),
        take_of_length_le (by rw [length_drop])]
    simp only [hbound, if_neg hmore, htake, batchLoop_eq hround, Nat.lt_irrefl, if_false]

/-! ## Nothing is lost -/

/-- What is dispatched for devices. -/
def ActionEvent.batch? : ActionEvent → Option (List Json)
  | .select _ _ => none
  | .dispatch actionsArray => some actionsArray

/-- What is done for a scene. -/
def ActionEvent.selected? : ActionEvent → Option (CText × List (List Json))
  | .select sceneId sent => some (sceneId, sent)
  | .dispatch _ => none

/-- The arrays that are sent for a scene: one for each rule `table0` has for it. -/
def expansion (T : Tables) (localSceneId sceneId : CText) : List (List Json) :=
  (T.table0Select sceneId).map fun ruleId => [addActionsForSceneId T localSceneId ruleId]

/-- Each action on a device is in one batch, in order, and no batch has more than ten; each
reference is expanded once. -/
structure Batched (T : Tables) (localSceneId : CText) (actions : List Json)
    (events : List ActionEvent) : Prop where
  devices : List.Forall₂ (fun a o => deviceObject T localSceneId a = some o)
    (actions.filter fun a => !isReference a) (events.filterMap ActionEvent.batch?).flatten
  short : ∀ batch ∈ events.filterMap ActionEvent.batch?, batch.length ≤ 10
  references : List.Forall₂
    (fun a s => reference a = some s.1 ∧ s.2 = expansion T localSceneId s.1)
    (actions.filter isReference) (events.filterMap ActionEvent.selected?)

theorem selectScene_eq_some_iff {e : ActionEvent} :
    selectScene T localSceneId a = some e ↔
      ∃ sceneId, reference a = some sceneId ∧
        e = .select sceneId (expansion T localSceneId sceneId) := by
  rw [selectScene]
  cases reference a with
  | none => simp
  | some sceneId => simp [expansion, eq_comm]

theorem selectScene_isSome_iff : (selectScene T localSceneId a).isSome ↔ (reference a).isSome := by
  rw [selectScene]
  cases reference a <;> simp

theorem selects_of_forall₂ {refs : List Json}
    (h : List.Forall₂ (fun a e => selectScene T localSceneId a = some e) refs es) :
    es.filterMap ActionEvent.batch? = [] ∧
      List.Forall₂ (fun a s => reference a = some s.1 ∧ s.2 = expansion T localSceneId s.1) refs
        (es.filterMap ActionEvent.selected?) := by
  induction h with
  | nil => exact ⟨rfl, .nil⟩
  | cons he _ ih =>
    obtain ⟨sceneId, href, rfl⟩ := selectScene_eq_some_iff.mp he
    exact ⟨ih.1, .cons ⟨href, rfl⟩ ih.2⟩

theorem batchOf_eq_some_iff {os : List Json} :
    batchOf T localSceneId batch = some (es, os) ↔
      List.Forall₂ (fun a e => selectScene T localSceneId a = some e)
          (batch.filter isReference) es ∧
        List.Forall₂ (fun a o => deviceObject T localSceneId a = some o)
          (batch.filter fun a => !isReference a) os := by
  rw [← mapM_eq_some_iff, ← mapM_eq_some_iff, batchOf]
  cases (batch.filter isReference).mapM (selectScene T localSceneId) <;>
    cases (batch.filter fun a => !isReference a).mapM (deviceObject T localSceneId) <;> simp

theorem Batched.of_batchOf {os : List Json} (h : batchOf T localSceneId batch = some (es, os))
    (hlen : batch.length ≤ 10) : Batched T localSceneId batch (es ++ [.dispatch os]) := by
  obtain ⟨hes, hos⟩ := batchOf_eq_some_iff.mp h
  obtain ⟨hnone, hrefs⟩ := selects_of_forall₂ hes
  have hbatches : (es ++ [ActionEvent.dispatch os]).filterMap ActionEvent.batch? = [os] := by
    rw [filterMap_append, hnone]
    rfl
  refine ⟨?_, ?_, ?_⟩
  · rw [hbatches, flatten_singleton]
    exact hos
  · rw [hbatches]
    intro b hb
    rw [mem_singleton.mp hb, ← hos.length_eq]
    exact (length_filter_le _ _).trans hlen
  · rw [filterMap_append, filterMap_cons_none rfl, filterMap_nil, append_nil]
    exact hrefs

theorem Batched.append {actions' : List Json} {events events' : List ActionEvent}
    (h : Batched T localSceneId actions events) (h' : Batched T localSceneId actions' events') :
    Batched T localSceneId (actions ++ actions') (events ++ events') := by
  refine ⟨?_, ?_, ?_⟩
  · rw [filter_append, filterMap_append, flatten_append]
    exact rel_append h.devices h'.devices
  · rw [filterMap_append]
    intro b hb
    exact (mem_append.mp hb).elim (h.short b) (h'.short b)
  · rw [filter_append, filterMap_append]
    exact rel_append h.references h'.references

theorem actionLoop_batched {events : List ActionEvent} (h : dispatchNum < actions.length)
    (hsome : actionLoop T localSceneId actions dispatchNum dispatchNum = some events) :
    Batched T localSceneId (actions.drop dispatchNum) events := by
  induction hleft : actions.length - dispatchNum using Nat.strong_induction_on
    generalizing dispatchNum events with
  | _ left ih =>
    rw [actionLoop_eq h] at hsome
    simp only [bind_eq_bind, bind_eq_some_iff] at hsome
    obtain ⟨⟨es, os⟩, hbatch, hsome⟩ := hsome
    have hfirst := Batched.of_batchOf hbatch (length_take_le 10 _)
    by_cases hmore : dispatchNum + 10 < actions.length
    · rw [if_pos hmore] at hsome
      obtain ⟨rest, hrest, hevents⟩ := bind_eq_some_iff.mp hsome
      have hleft' := ih (actions.length - (dispatchNum + 10)) (by omega) hmore hrest rfl
      have hboth := hfirst.append hleft'
      rw [← drop_drop, take_append_drop] at hboth
      rw [← some.inj hevents]
      simpa using hboth
    · rw [if_neg hmore] at hsome
      rw [take_of_length_le (by rw [length_drop]; omega)] at hfirst
      exact some.inj hsome ▸ hfirst

/-! ## What can be sent -/

/-- The parameters of an action on a device have a known operator or none, and name a device; the
value of a property the device has fits its array. -/
structure DeviceFits (T : Tables) (params : Option Json) : Prop where
  compareType : ∃ c, member params "compareType" = some c ∧
    ∀ op, c.valuestring? = some op → op ∈ cloudActive
  device : ∃ deviceName, (member params "deviceName").bind Json.valuestring? = some deviceName ∧
    ∀ dev, T.cloudLinkListGetById deviceName = some dev → dev.attr ≠ [] ∨ dev.eventAttr ≠ [] →
      ∃ name, (member params "propertyName").bind Json.valuestring? = some name ∧
        (dev.Knows name → ∃ v, propertyValue? params = some v ∧ (operandText v).length < 8)

/-- A reference has the text of a scene, and an action on a device fits. -/
structure Sendable (T : Tables) (actionsSub : Json) : Prop where
  reference : isReference actionsSub → (reference actionsSub).isSome
  device : ¬ isReference actionsSub → DeviceFits T (actionsSub.getObjectItem "params".toList)

/-- A device item is written within its tables and its array exactly when it fits. -/
theorem getSceneDevStatus_isSome_iff {params : Option Json} (arrayItem : Members) :
    (getSceneDevStatus T params arrayItem).isSome ↔ DeviceFits T params := by
  constructor
  · intro h
    obtain ⟨m, hm⟩ := isSome_iff_exists.mp h
    simp only [getSceneDevStatus, bind_eq_bind, bind_eq_some_iff] at hm
    obtain ⟨c, hc, active, hactive, n, hn, deviceName, hname, hdev⟩ := hm
    refine ⟨⟨c, hc, findActive_isSome_iff.mp (by rw [hactive]; rfl)⟩, deviceName,
      bind_eq_some_iff.mpr ⟨n, hn, hname⟩, ?_⟩
    intro dev hget hne
    rw [hget] at hdev
    obtain ⟨key, hkey, hvalue⟩ := bind_eq_some_iff.mp hdev
    cases hp : (member params "propertyName").bind Json.valuestring? with
    | none => rw [CloudLinkDev.hyKey?_of_no_name hp hne] at hkey; cases hkey
    | some name =>
      refine ⟨name, rfl, fun hknows => ?_⟩
      obtain ⟨hyKey, hhyKey⟩ := hknows.hyKey_of_bind hp
      obtain rfl := some.inj (hhyKey.symm.trans hkey)
      obtain ⟨v, hv, hrest⟩ := bind_eq_some_iff.mp hvalue
      obtain ⟨text, htext, -⟩ := bind_eq_some_iff.mp hrest
      rw [sprintf_singleton] at htext
      refine ⟨v, hv, ?_⟩
      change (cjsonToStr v).length < 8
      by_contra hlong
      rw [if_neg hlong] at htext
      cases htext
  · rintro ⟨⟨c, hc, hop⟩, deviceName, hname, hdevice⟩
    obtain ⟨n, hn, hname⟩ := bind_eq_some_iff.mp hname
    obtain ⟨active, hactive⟩ := isSome_iff_exists.mp (findActive_isSome_iff.mpr hop)
    simp only [getSceneDevStatus, hc, hactive, hn, hname, bind_eq_bind, bind_some]
    cases hget : T.cloudLinkListGetById deviceName with
    | none => rfl
    | some dev =>
      by_cases hne : dev.attr ≠ [] ∨ dev.eventAttr ≠ []
      · obtain ⟨name, hp, hvalue⟩ := hdevice dev hget hne
        by_cases hknows : dev.Knows name
        · obtain ⟨hyKey, hkey⟩ := hknows.hyKey_of_bind hp
          obtain ⟨v, hv, hlen⟩ := hvalue hknows
          have hlen : (cjsonToStr v).length < 8 := hlen
          simp [hkey, hv, sprintf_singleton, hlen]
        · simp [CloudLinkDev.hyKey?_of_not_knows hp hknows]
      · simp only [not_or, not_not] at hne
        simp [CloudLinkDev.hyKey?_of_empty _ hne.1 hne.2]

theorem deviceObject_isSome_iff :
    (deviceObject T localSceneId a).isSome ↔
      DeviceFits T (a.getObjectItem "params".toList) := by
  rw [← getSceneDevStatus_isSome_iff [("Op".toList, .string "AddAction".toList),
    ("Id".toList, .string localSceneId)], deviceObject]
  cases getSceneDevStatus T (a.getObjectItem "params".toList) _ <;> simp

theorem batchOf_isSome_iff : (batchOf T localSceneId batch).isSome ↔ ∀ a ∈ batch, Sendable T a := by
  have hboth : (batchOf T localSceneId batch).isSome ↔
      ((batch.filter isReference).mapM (selectScene T localSceneId)).isSome ∧
        ((batch.filter fun a => !isReference a).mapM (deviceObject T localSceneId)).isSome := by
    rw [batchOf]
    cases (batch.filter isReference).mapM (selectScene T localSceneId) <;>
      cases (batch.filter fun a => !isReference a).mapM (deviceObject T localSceneId) <;> simp
  rw [hboth, mapM_isSome_iff, mapM_isSome_iff]
  simp only [selectScene_isSome_iff, deviceObject_isSome_iff, mem_filter,
    Bool.not_eq_true', ← Bool.not_eq_true]
  constructor
  · rintro ⟨hrefs, hdevices⟩ a ha
    exact ⟨fun h => hrefs a ⟨ha, h⟩, fun h => hdevices a ⟨ha, h⟩⟩
  · intro h
    exact ⟨fun a ha => (h a ha.1).reference ha.2, fun a ha => (h a ha.1).device ha.2⟩

theorem actionLoop_isSome_iff (h : dispatchNum < actions.length) :
    (actionLoop T localSceneId actions dispatchNum dispatchNum).isSome ↔
      ∀ a ∈ actions.drop dispatchNum, Sendable T a := by
  induction hleft : actions.length - dispatchNum using Nat.strong_induction_on
    generalizing dispatchNum with
  | _ left ih =>
    have hsplit : (∀ a ∈ actions.drop dispatchNum, Sendable T a) ↔
        (batchOf T localSceneId ((actions.drop dispatchNum).take 10)).isSome ∧
          ∀ a ∈ actions.drop (dispatchNum + 10), Sendable T a := by
      rw [batchOf_isSome_iff, ← drop_drop, ← forall_mem_append,
        take_append_drop]
    rw [actionLoop_eq h, hsplit]
    by_cases hmore : dispatchNum + 10 < actions.length
    · rw [← ih (actions.length - (dispatchNum + 10)) (by omega) hmore rfl]
      simp only [if_pos hmore]
      cases batchOf T localSceneId ((actions.drop dispatchNum).take 10) <;>
        cases actionLoop T localSceneId actions (dispatchNum + 10) (dispatchNum + 10) <;> simp
    · rw [drop_eq_nil_of_le (by omega : actions.length ≤ dispatchNum + 10)]
      simp only [if_neg hmore]
      cases batchOf T localSceneId ((actions.drop dispatchNum).take 10) <;> simp

/-- Whatever the number of actions, each is dispatched or expanded once, exactly when each can be
sent. -/
theorem addActions_batched_iff (T : Tables) (localSceneId : CText) (actions : List Json) :
    (∃ events, addActionsCalls T localSceneId actions = some events ∧
        Batched T localSceneId actions events) ↔
      ∀ a ∈ actions, Sendable T a := by
  cases actions with
  | nil => exact iff_of_true ⟨[], rfl, .nil, by simp, .nil⟩ (by simp)
  | cons a rest =>
    have hlen : 0 < (a :: rest).length := Nat.succ_pos _
    have hcalls : addActionsCalls T localSceneId (a :: rest) =
        actionLoop T localSceneId (a :: rest) 0 0 := if_neg (Nat.succ_ne_zero _)
    have hsome : (actionLoop T localSceneId (a :: rest) 0 0).isSome ↔ _ :=
      actionLoop_isSome_iff hlen
    rw [drop_zero, isSome_iff_exists] at hsome
    rw [hcalls, ← hsome]
    exact exists_congr fun events => and_iff_left_of_imp fun h => actionLoop_batched hlen h

/-! ## Tens -/

/-- The arrays that are sent: those of a scene, and those for devices that are not empty. -/
def ActionEvent.arrays : ActionEvent → List (List Json)
  | .select _ sent => sent
  | .dispatch actionsArray => sendArray actionsArray

theorem isReference_iff :
    isReference a = true ↔
      ∃ j, member (a.getObjectItem "params".toList) "sceneId" = some j := by
  rw [isReference, isSome_iff_exists]

theorem addaction_of_isReference (h : isReference a = true) :
    addaction T localSceneId a =
      (selectScene T localSceneId a).map fun e => (e.arrays, []) := by
  obtain ⟨j, hj⟩ := isReference_iff.mp h
  rw [addaction, selectScene, reference]
  simp only [hj]
  cases ht : j.valuestring? <;> simp [ht, ActionEvent.arrays]

theorem addaction_of_not_isReference (h : ¬ isReference a = true) :
    addaction T localSceneId a =
      (deviceObject T localSceneId a).map fun o => ([], [o]) := by
  have hnone : member (a.getObjectItem "params".toList) "sceneId" = none := by
    cases hj : member (a.getObjectItem "params".toList) "sceneId" with
    | none => rfl
    | some j => exact absurd (isReference_iff.mpr ⟨j, hj⟩) h
  rw [addaction, deviceObject]
  simp only [hnone]
  cases getSceneDevStatus T (a.getObjectItem "params".toList) _ <;> rfl

/-- The arrays and the objects of the actions of a batch. -/
def gather (rs : List (List (List Json) × List Json)) : List (List Json) × List Json :=
  (rs.flatMap Prod.fst, rs.flatMap Prod.snd)

theorem mapM_addaction_cons (a : Json) (batch : List Json) :
    ((a :: batch).mapM (addaction T localSceneId)).map gather =
      (addaction T localSceneId a).bind fun r =>
        ((batch.mapM (addaction T localSceneId)).map gather).map fun g =>
          (r.1 ++ g.1, r.2 ++ g.2) := by
  rw [mapM_cons]
  cases addaction T localSceneId a with
  | none => rfl
  | some r => cases batch.mapM (addaction T localSceneId) <;> rfl

theorem mapM_addaction (batch : List Json) :
    (batch.mapM (addaction T localSceneId)).map gather =
      (batchOf T localSceneId batch).map fun r => (r.1.flatMap ActionEvent.arrays, r.2) := by
  induction batch with
  | nil => rfl
  | cons a batch ih =>
    rw [mapM_addaction_cons, ih, batchOf_cons]
    by_cases ha : isReference a = true
    · rw [if_pos ha, addaction_of_isReference ha]
      cases selectScene T localSceneId a with
      | none => rfl
      | some e => cases batchOf T localSceneId batch <;> rfl
    · rw [if_neg ha, addaction_of_not_isReference ha]
      cases deviceObject T localSceneId a with
      | none => rfl
      | some o => cases batchOf T localSceneId batch <;> rfl

theorem actionBatch_eq (batch : List Json) :
    actionBatch T localSceneId batch =
      (batchOf T localSceneId batch).map fun r =>
        (r.1 ++ [ActionEvent.dispatch r.2]).flatMap ActionEvent.arrays := by
  have hgather : actionBatch T localSceneId batch =
      ((batch.mapM (addaction T localSceneId)).map gather).map fun g => g.1 ++ sendArray g.2 := by
    rw [actionBatch]
    cases batch.mapM (addaction T localSceneId) <;> rfl
  rw [hgather, mapM_addaction]
  cases batchOf T localSceneId batch with
  | none => rfl
  | some r => simp [ActionEvent.arrays]

theorem addActions_eq (hne : actions ≠ []) :
    addActions T localSceneId actions =
      (actionBatch T localSceneId (actions.take 10)).bind fun b =>
        (addActions T localSceneId (actions.drop 10)).map (b ++ ·) := by
  rw [addActions, addActions, toChunks_succ 9 hne, mapM_cons]
  cases actionBatch T localSceneId (actions.take 10) with
  | none => rfl
  | some b =>
    cases ((actions.drop 10).toChunks 10).mapM (actionBatch T localSceneId) <;> rfl

/-- The arrays the loop sends from a bound on are those of what is left, cut into tens. -/
theorem actionLoop_arrays (h : dispatchNum < actions.length) :
    (actionLoop T localSceneId actions dispatchNum dispatchNum).map
        (fun events => events.flatMap ActionEvent.arrays) =
      addActions T localSceneId (actions.drop dispatchNum) := by
  induction hleft : actions.length - dispatchNum using Nat.strong_induction_on
    generalizing dispatchNum with
  | _ left ih =>
    have hne : actions.drop dispatchNum ≠ [] := by
      rw [ne_eq, drop_eq_nil_iff]
      omega
    rw [actionLoop_eq h, addActions_eq hne, actionBatch_eq, drop_drop]
    by_cases hmore : dispatchNum + 10 < actions.length
    · rw [← ih (actions.length - (dispatchNum + 10)) (by omega) hmore rfl]
      simp only [if_pos hmore]
      cases batchOf T localSceneId ((actions.drop dispatchNum).take 10) with
      | none => rfl
      | some r =>
        cases actionLoop T localSceneId actions (dispatchNum + 10) (dispatchNum + 10) with
        | none => rfl
        | some rest => simp
    · rw [drop_eq_nil_of_le (by omega : actions.length ≤ dispatchNum + 10)]
      simp only [if_neg hmore]
      cases batchOf T localSceneId ((actions.drop dispatchNum).take 10) with
      | none => rfl
      | some r => simp [addActions, List.toChunks]

/-- What the loops send are the arrays of the actions cut into tens. -/
theorem addActionsCalls_arrays (actions : List Json) :
    (addActionsCalls T localSceneId actions).map
        (fun events => events.flatMap ActionEvent.arrays) =
      addActions T localSceneId actions := by
  cases actions with
  | nil => simp [addActionsCalls, addActions, List.toChunks]
  | cons a rest =>
    have hcalls : addActionsCalls T localSceneId (a :: rest) =
        actionLoop T localSceneId (a :: rest) 0 0 := if_neg (Nat.succ_ne_zero _)
    rw [hcalls, actionLoop_arrays (Nat.succ_pos _), drop_zero]

/-! ### A value of eight characters -/

namespace Sample

/-- An action that sets the lamp. -/
def setLamp (v : Json) : Json := .object [("params".toList, lampParams "==".toList v)]

end Sample

/-- The batch of this action cannot be put together. -/
theorem addActions_not_batched :
    ¬ ∀ (T : Tables) (localSceneId : CText) (actions : List Json), actions ≠ [] →
      ∃ events, addActionsCalls T localSceneId actions = some events ∧
        Batched T localSceneId actions events := by
  intro h
  obtain ⟨events, hsome, -⟩ := h Sample.lampTables ['1']
    [Sample.setLamp (.string "12345678".toList)] (cons_ne_nil _ _)
  have hbatch : batchOf Sample.lampTables ['1']
      (([Sample.setLamp (.string "12345678".toList)].drop 0).take 10) = none := rfl
  rw [addActionsCalls, if_neg (by decide), actionLoop_eq (by decide), hbatch] at hsome
  cases hsome

end Honyar.Alink
