import Honyar.Alink.Emit

/-!
# The translation and the gateway agree

On a gateway that does not have the scene yet, every operation a rule is
translated to is accepted exactly when the rule has no window of time, stays inside
the buffers of the translation, and its conditions find their texts free and room
in their lists.
-/

namespace Honyar.Alink

open CText LocalScene Trigger
open Option (bind_eq_bind bind_eq_some_iff bind_none bind_some isSome_iff_exists some.inj
  some.injEq)
open List

variable {T : Tables} {ts : List Trigger} {cs : List Condition}

/-! ## Texts -/

/-- The text the `n`-th trigger at a time is filed under. -/
def cronText (n : Nat) : CText := timeHashKey (cronKey n)

/-- The device of a trigger of a device. -/
def Trigger.device? : Trigger → Option DevItem
  | .cron _ => none
  | .device d => some d

/-- The texts the triggers of devices are filed under; the manual trigger is not
filed. -/
def Rule.orTexts (r : Rule) : List CText :=
  ((r.triggers.filterMap Trigger.device?).filter fun d => !d.manual).map DevItem.text

/-- The texts the conditions on devices are filed under. -/
def Rule.andTexts (r : Rule) : List CText :=
  (r.conditions.filterMap Condition.device?).map DevItem.text

theorem reqKeys_time_triggerReqs (n : Nat) (ts : List Trigger) :
    reqKeys .time (triggerReqs n ts) = (List.range (crons ts)).map fun i => cronText (n + i) := by
  induction ts generalizing n with
  | nil => rfl
  | cons t ts ih =>
    cases t with
    | cron text =>
      rw [triggerReqs, reqKeys_cons, if_pos ⟨rfl, rfl⟩, ih, crons, range_succ_eq_map,
        map_cons, map_map]
      refine congrArg _ (map_congr_left fun i _ => ?_)
      rw [Function.comp_apply, Nat.succ_eq_add_one, Nat.add_assoc, Nat.add_comm 1]
    | device d =>
      rw [triggerReqs, reqKeys_cons, if_neg (by simp), ih, crons]

theorem reqKeys_event_triggerReqs (n : Nat) (ts : List Trigger) :
    reqKeys .event (triggerReqs n ts) =
      ((ts.filterMap Trigger.device?).filter fun d => !d.manual).map DevItem.text := by
  induction ts generalizing n with
  | nil => rfl
  | cons t ts ih =>
    cases t with
    | cron text =>
      rw [triggerReqs, reqKeys_cons, if_neg (by simp), ih]
      rfl
    | device d =>
      have hcons : (device d :: ts).filterMap device? =
          d :: ts.filterMap device? := rfl
      rw [triggerReqs, reqKeys_cons, ih, hcons, filter_cons]
      cases d.manual <;> simp

theorem reqKeys_time_conditionReqs (cs : List Condition) :
    reqKeys .time (conditionReqs cs) = [] := by
  simp [reqKeys, conditionReqs, filter_map, Function.comp_def]

theorem reqKeys_event_conditionReqs (cs : List Condition) :
    reqKeys .event (conditionReqs cs) =
      (cs.filterMap Condition.device?).map DevItem.text := by
  simp [reqKeys, conditionReqs, filter_map, Function.comp_def]

theorem mem_triggerReqs {n : Nat} {r : CondReq} : r ∈ triggerReqs n ts ↔
    (∃ i < crons ts, r = ⟨.or, .time, cronText (n + i), false⟩) ∨
      ∃ d ∈ ts.filterMap Trigger.device?, r = ⟨.or, .event, d.text, d.manual⟩ := by
  induction ts generalizing n with
  | nil => simp [triggerReqs, crons]
  | cons t ts ih =>
    cases t with
    | cron text =>
      have hdevices : (cron text :: ts).filterMap device? =
          ts.filterMap device? := rfl
      rw [triggerReqs, mem_cons, ih, hdevices, ← or_assoc]
      refine or_congr_left ?_
      simp only [crons, Nat.exists_lt_succ_left, Nat.add_zero, Nat.add_assoc, Nat.add_comm 1]
      rfl
    | device d =>
      have hdevices : (device d :: ts).filterMap device? =
          d :: ts.filterMap device? := rfl
      rw [triggerReqs, mem_cons, ih, hdevices, exists_mem_cons_iff, or_left_comm]
      rfl

theorem mem_conditionReqs {r : CondReq} : r ∈ conditionReqs cs ↔
    ∃ d ∈ cs.filterMap Condition.device?, r = ⟨.and, .event, d.text, false⟩ := by
  rw [conditionReqs, mem_map]
  exact exists_congr fun d => and_congr_right fun _ => eq_comm

/-! ## Names of triggers at a time -/

theorem ofInt_natCast (n : Nat) : ofInt n = Nat.toDigits 10 n := by
  rw [ofInt, if_neg (by omega), Int.natAbs_natCast]

theorem cronKey_injective : Function.Injective cronKey := by
  intro m n h
  have hdigits : Nat.toDigits 10 m = Nat.toDigits 10 n := by
    rw [← ofInt_natCast, ← ofInt_natCast]
    exact append_cancel_left h
  rw [← Nat.ofDigitChars_ten_toDigits (n := m), hdigits, Nat.ofDigitChars_ten_toDigits]

theorem cronText_eq {n : Nat} (h : (cronKey n).length < 8) :
    cronText n = cronKey n ++ ptrHashTypeCond := by
  have hflat : [cronKey n, ptrHashTypeCond].flatten = cronKey n ++ ptrHashTypeCond := by simp
  rw [cronText, timeHashKey, snprintf, hflat]
  refine take_of_length_le ?_
  rw [length_append]
  show _ + 4 ≤ 127
  omega

/-- The text of the manual trigger has a letter that no name has. -/
theorem text_ne_cronText {d : DevItem} (hd : d.manual = true) {n : Nat}
    (h : (cronKey n).length < 8) : d.text ≠ cronText n := by
  have hkey : strncpy keyMaxLen d.hyKey = jsonValueKeyManual := by
    have := strncmpEq_iff.mp hd
    rw [strncpy, take_take, min_self] at this
    exact this
  have hflat : [strncpy devIdMaxLen d.deviceName, jsonValueKeyManual, ptrHashTypeCond].flatten =
      strncpy devIdMaxLen d.deviceName ++ jsonValueKeyManual ++ ptrHashTypeCond := by simp
  have htext : d.text =
      strncpy devIdMaxLen d.deviceName ++ jsonValueKeyManual ++ ptrHashTypeCond := by
    rw [DevItem.text, hkey, eventHashKey, snprintf, hflat]
    refine take_of_length_le ?_
    have hlen : (strncpy devIdMaxLen d.deviceName).length ≤ 64 := length_take_le _ _
    rw [length_append, length_append]
    show _ + 6 + 4 ≤ 127
    omega
  intro heq
  rw [htext, cronText_eq h] at heq
  have heq := append_cancel_right heq
  have hmem : 'a' ∈ cronKey n := by
    rw [← heq]
    exact mem_append_right _ (by decide)
  rw [cronKey, ofInt_natCast, mem_append] at hmem
  rcases hmem with hmem | hmem
  · exact absurd hmem (by decide)
  · exact absurd (Nat.isDigit_of_mem_toDigits (by decide) (by decide) hmem) (by decide)

theorem length_cronKey_lt {n : Nat} (h : n < 1024) : (cronKey n).length < 8 := by
  have hlen : (Nat.toDigits 10 n).length ≤ 4 := by
    rw [Nat.length_toDigits_le_iff (by decide) (by decide)]
    omega
  rw [cronKey, ofInt_natCast, length_append]
  show 3 + _ < 8
  omega

/-! ## Agreement -/

/-- The object is an addition; the other operation of a rule deletes its scene. -/
def isAddition (o : Json) : Bool :=
  readField "Op" operationMaxLen o != some Operation.delScene.text

/-- Every field that the operation of the object requires is there. -/
structure Complete (o : Json) : Prop where
  id : (readField "Id" indexMaxLen o).isSome
  cond : readField "Op" operationMaxLen o = some Operation.addCond.text →
    (readField "Logic" logicMaxLen o).isSome ∧
      (readField "CondType" typeMaxLen o = some "Time".toList ∧ (readTimeCond o).isSome ∨
        readField "CondType" typeMaxLen o = some "Event".toList ∧ (readEventId o).isSome ∧
          ∀ c, (readEventCond c o).isSome)
  action : readField "Op" operationMaxLen o = some Operation.addAction.text →
    (readAction o).isSome

/-- The additions a rule is translated to are complete, and the gateway accepts one
after another. -/
def Agrees (T : Tables) (rules : Json) (isUpdate : Bool) (g : Gateway) : Prop :=
  ∃ arrays, addScene T rules isUpdate = some arrays ∧
    (∀ o ∈ arrays.flatten.filter isAddition, Complete o) ∧
      (g.acceptAll (arrays.flatten.filter isAddition)).isSome

/-- When a rule and a gateway without its scene agree. -/
structure Rule.Ok (r : Rule) (g : Gateway) : Prop where
  enable : (ofInt r.enable).length < 8
  delay : (ofInt r.delay).length < 8
  triggers : ∀ t ∈ r.triggers, t.Fits
  conditions : ∀ c ∈ r.conditions, ∃ d, c = .device d ∧ d.Fits
  actions : ∀ d ∈ r.actions, d.Fits
  crons : crons r.triggers ≤ 1024
  orRoom : r.orTexts.toFinset.card ≤ 1024
  andRoom : (r.andTexts.toFinset \ r.orTexts.toFinset).card ≤ 1024
  apart : ∀ i < Alink.crons r.triggers, cronText i ∉ r.orTexts ∧ cronText i ∉ r.andTexts
  unfiled : ∀ q ∈ triggerReqs 0 r.triggers ++ conditionReqs r.conditions,
    ptrHashFind g.list.pHashTable q.key (r.ruleId.take indexMaxLen) = none

section Complete

variable {o : Json} {id : CText}

theorem complete_of_asks {q : CondReq} (h : Asks o id q) : Complete o := by
  obtain ⟨hop, hid, ⟨t, ht, -⟩, hfields⟩ := h
  refine ⟨by rw [hid]; rfl, fun _ => ⟨by rw [ht]; rfl, ?_⟩, fun hop' => ?_⟩
  · obtain ⟨l, k, key, manual⟩ := q
    cases k with
    | time =>
      obtain ⟨htype, ⟨c, hc, -⟩, -⟩ := hfields
      exact .inl ⟨htype, by rw [hc]; rfl⟩
    | event =>
      obtain ⟨htype, c, hc, hread, -⟩ := hfields
      exact .inr ⟨htype, by rw [hc]; rfl, hread⟩
  · rw [hop] at hop'
    exact absurd (some.inj hop') (by decide)

theorem complete_of_asksScene (h : AsksScene o id) : Complete o := by
  refine ⟨by rw [h.id]; rfl, fun hop => ?_, fun hop => ?_⟩
  · rw [h.op] at hop
    exact absurd (some.inj hop) (by decide)
  · rw [h.op] at hop
    exact absurd (some.inj hop) (by decide)

theorem complete_of_asksAction (h : AsksAction o id) : Complete o := by
  refine ⟨by rw [h.id]; rfl, fun hop => ?_, fun _ => h.fields⟩
  rw [h.op] at hop
  exact absurd (some.inj hop) (by decide)

end Complete

theorem Rule.Of.addScene_eq_some_iff {rules : Json} {r : Rule} (hr : r.Of T rules)
    {isUpdate : Bool} {arrays : List (List Json)} : addScene T rules isUpdate = some arrays ↔
      (ofInt r.enable).length < 8 ∧ (ofInt r.delay).length < 8 ∧
        ∃ os os' acts, addtriggers T r.ruleId 0 (ruleItems rules "triggers") = some os ∧
          addconditions T r.ruleId 0 (ruleItems rules "conditions") = some os' ∧
          addActions T r.ruleId (items (rules.getObjectItem "actions".toList)) = some acts ∧
          arrays = (if isUpdate then [[deleteObject r.ruleId]] else []) ++
            [[sceneObject r.ruleId (ofInt r.enable) (ofInt r.delay)]] ++ sendArray os ++
              sendArray os' ++ acts := by
  obtain ⟨e, he, henable⟩ := hr.enable
  simp only [addScene, hr.ruleId, he, hr.delay, henable, Json.valuestring?_string,
    bind_eq_bind, bind_some]
  rw [sprintf_singleton, sprintf_singleton]
  by_cases hlen : (ofInt r.enable).length < 8
  · by_cases hlen' : (ofInt r.delay).length < 8
    · simp only [hlen, hlen', if_true, bind_some, bind_eq_some_iff, Option.pure_def,
        some.injEq, true_and]
      constructor
      · rintro ⟨os, hos, os', hos', acts, hacts, rfl⟩
        exact ⟨os, os', acts, hos, hos', hacts, rfl⟩
      · rintro ⟨os, os', acts, hos, hos', hacts, rfl⟩
        exact ⟨os, hos, os', hos', acts, hacts, rfl⟩
    · rw [if_pos hlen, if_neg hlen', bind_some, bind_none]
      exact iff_of_false (by simp) fun h => hlen' h.2.1
  · rw [if_neg hlen, bind_none]
    exact iff_of_false (by simp) fun h => hlen h.1

theorem flatten_sendArray (os : List Json) : (sendArray os).flatten = os := by
  rw [sendArray]
  split
  · rename_i h
    rw [List.isEmpty_iff.mp h]
    rfl
  · exact flatten_singleton

theorem Rule.Of.additions_eq {rules : Json} {r : Rule} (hr : r.Of T rules) {isUpdate : Bool}
    {os os' : List Json} {acts : List (List Json)}
    (hos : addtriggers T r.ruleId 0 (ruleItems rules "triggers") = some os)
    (hos' : addconditions T r.ruleId 0 (ruleItems rules "conditions") = some os')
    (hacts : addActions T r.ruleId (items (rules.getObjectItem "actions".toList)) = some acts) :
    ((if isUpdate then [[deleteObject r.ruleId]] else []) ++
      [[sceneObject r.ruleId (ofInt r.enable) (ofInt r.delay)]] ++ sendArray os ++ sendArray os' ++
        acts).flatten.filter isAddition =
      sceneObject r.ruleId (ofInt r.enable) (ofInt r.delay) :: ((os ++ os') ++ acts.flatten) := by
  have hadd : ∀ {o : Json} {op : CText}, readField "Op" operationMaxLen o = some op →
      op ≠ Operation.delScene.text → isAddition o = true := by
    intro o op h hne
    rw [isAddition, h]
    simpa using hne
  have hcond : Operation.addCond.text ≠ Operation.delScene.text := by decide
  have haction : Operation.addAction.text ≠ Operation.delScene.text := by decide
  have hdelete : ((if isUpdate then [[deleteObject r.ruleId]] else []).flatten).filter isAddition =
      [] := by
    cases isUpdate <;> rfl
  have hscene : isAddition (sceneObject r.ruleId (ofInt r.enable) (ofInt r.delay)) = true :=
    hadd (asksScene_sceneObject _ _ _).op (by decide)
  have htriggers : ∀ o ∈ os, isAddition o = true := by
    intro o ho
    obtain ⟨q, -, hq⟩ := Keyed.exists_of_forall₂ (asks_addtriggers hr.triggers hos).flip ho
    exact hadd hq.op hcond
  have hconditions : ∀ o ∈ os', isAddition o = true := fun o ho =>
    hadd ((addconditions_cases hr.conditions hos').1 o ho) hcond
  have hactions : ∀ o ∈ acts.flatten, isAddition o = true := fun o ho =>
    hadd (asks_addActions hr.actions hacts o ho).op haction
  rw [flatten_append, flatten_append, flatten_append, flatten_append,
    flatten_sendArray, flatten_sendArray, flatten_singleton, filter_append,
    filter_append, filter_append, filter_append, hdelete,
    filter_eq_self.mpr htriggers, filter_eq_self.mpr hconditions,
    filter_eq_self.mpr hactions, filter_singleton, hscene]
  simp

theorem Rule.addAll_isSome_iff (r : Rule)
    (hnames : ∀ i < Alink.crons r.triggers, (cronKey i).length < 8) :
    (Shelf.empty.addAll (triggerReqs 0 r.triggers ++ conditionReqs r.conditions)).isSome ↔
      (∀ i < Alink.crons r.triggers, cronText i ∉ r.orTexts ∧ cronText i ∉ r.andTexts) ∧
        Alink.crons r.triggers ≤ 1024 ∧ r.orTexts.toFinset.card ≤ 1024 ∧
          (r.andTexts.toFinset \ r.orTexts.toFinset).card ≤ 1024 := by
  have htime : reqKeys .time (triggerReqs 0 r.triggers) =
      (List.range (Alink.crons r.triggers)).map cronText := by
    rw [reqKeys_time_triggerReqs]
    simp only [Nat.zero_add]
  have hmem : ∀ key, key ∈ reqKeys .time (triggerReqs 0 r.triggers) ↔
      ∃ i < Alink.crons r.triggers, cronText i = key := by
    intro key
    simp [htime]
  have hor : reqKeys .event (triggerReqs 0 r.triggers) = r.orTexts := reqKeys_event_triggerReqs 0 _
  have hand : reqKeys .event (conditionReqs r.conditions) = r.andTexts :=
    reqKeys_event_conditionReqs _
  have hnone : reqKeys .time (conditionReqs r.conditions) = [] := reqKeys_time_conditionReqs _
  have hcard : (reqKeys .time (triggerReqs 0 r.triggers)).toFinset.card =
      Alink.crons r.triggers := by
    have hnodup : (reqKeys .time (triggerReqs 0 r.triggers)).Nodup := by
      rw [htime]
      refine List.Nodup.map_on ?_ nodup_range
      intro i hi j hj h
      rw [cronText_eq (hnames i (mem_range.mp hi)),
        cronText_eq (hnames j (mem_range.mp hj))] at h
      exact cronKey_injective (append_cancel_right h)
    rw [toFinset_card_of_nodup hnodup, htime, length_map, length_range]
  have hmanual : ∀ d ∈ r.triggers.filterMap device?, d.manual = true →
      d.text ∉ reqKeys .time (triggerReqs 0 r.triggers) := by
    intro d _ hd hd'
    obtain ⟨i, hi, heq⟩ := (hmem _).mp hd'
    exact text_ne_cronText hd (hnames i hi) heq.symm
  have hlogic : ∀ q ∈ triggerReqs 0 r.triggers, q.logic = .or := by
    intro q hq
    rcases mem_triggerReqs.mp hq with ⟨i, -, rfl⟩ | ⟨d, -, rfl⟩ <;> rfl
  rw [Shelf.addAll_empty_isSome_iff hlogic]
  rotate_left
  · intro q hq
    obtain ⟨d, -, rfl⟩ := mem_conditionReqs.mp hq
    rfl
  · intro q hq hm
    rcases mem_triggerReqs.mp hq with ⟨i, -, rfl⟩ | ⟨d, hd, rfl⟩
    · cases hm
    · exact hmanual d hd hm
  · intro q hq
    obtain ⟨d, -, rfl⟩ := mem_conditionReqs.mp hq
    rfl
  have hfirst : (∀ q ∈ triggerReqs 0 r.triggers,
      q.key ∉ reqKeys q.kind.other (triggerReqs 0 r.triggers)) ↔
        ∀ i < Alink.crons r.triggers, cronText i ∉ r.orTexts := by
    constructor
    · intro h i hi hmemOr
      refine h ⟨.or, .time, cronText i, false⟩ (mem_triggerReqs.mpr (.inl ⟨i, hi, ?_⟩)) ?_
      · rw [Nat.zero_add]
      · exact hor ▸ hmemOr
    · intro h q hq
      rcases mem_triggerReqs.mp hq with ⟨i, hi, rfl⟩ | ⟨d, hd, rfl⟩
      · rw [Nat.zero_add]
        exact fun hmemOr => h i hi (hor ▸ hmemOr)
      · intro hd'
        cases hm : d.manual with
        | true => exact hmanual d hd hm hd'
        | false =>
          obtain ⟨i, hi, heq⟩ := (hmem _).mp hd'
          refine h i hi (heq ▸ mem_map_of_mem (mem_filter.mpr ⟨hd, ?_⟩))
          rw [hm]
          rfl
  have hsecond : (∀ q ∈ conditionReqs r.conditions,
      q.key ∉ reqKeys q.kind.other (triggerReqs 0 r.triggers) ∧
        q.key ∉ reqKeys q.kind.other (conditionReqs r.conditions)) ↔
          ∀ i < Alink.crons r.triggers, cronText i ∉ r.andTexts := by
    constructor
    · intro h i hi hmemAnd
      obtain ⟨d, hd, heq⟩ := mem_map.mp hmemAnd
      exact (h _ (mem_conditionReqs.mpr ⟨d, hd, rfl⟩)).1 ((hmem _).mpr ⟨i, hi, heq.symm⟩)
    · intro h q hq
      obtain ⟨d, hd, rfl⟩ := mem_conditionReqs.mp hq
      refine ⟨fun hd' => ?_, fun hd' => ?_⟩
      · obtain ⟨i, hi, heq⟩ := (hmem _).mp hd'
        exact h i hi (heq ▸ mem_map_of_mem hd)
      · have hd' : d.text ∈ reqKeys .time (conditionReqs r.conditions) := hd'
        rw [hnone] at hd'
        cases hd'
  have hkinds : ∀ P : Kind → Prop, (∀ k, P k) ↔ P .time ∧ P .event := by
    intro P
    refine ⟨fun h => ⟨h _, h _⟩, ?_⟩
    rintro ⟨htime, hevent⟩ (_ | _)
    · exact htime
    · exact hevent
  rw [hfirst, hsecond, hkinds, hkinds, hcard, hor, hand, hnone]
  constructor
  · rintro ⟨h, ⟨hcrons, horRoom⟩, h', -, handRoom⟩
    exact ⟨fun i hi => ⟨h i hi, h' i hi⟩, hcrons, horRoom, handRoom⟩
  · rintro ⟨h, hcrons, horRoom, handRoom⟩
    exact ⟨fun i hi => (h i hi).1, ⟨hcrons, horRoom⟩, fun i hi => (h i hi).2, by simp, handRoom⟩

theorem Rule.Of.agrees_iff_ok {rules : Json} {r : Rule} (hr : r.Of T rules) (isUpdate : Bool)
    {g : Gateway} (hx : Indexed g.list) (hget : sceneListGet g.list r.ruleId = none) :
    Agrees T rules isUpdate g ↔ r.Ok g := by
  have hget' : sceneListGet g.list (strncpy indexMaxLen r.ruleId) = none := by
    rw [sceneListGet, strncpy, strncpy, take_take, min_self]
    exact hget
  have htake : (strncpy indexMaxLen r.ruleId).take indexMaxLen = r.ruleId.take indexMaxLen := by
    rw [strncpy, take_take, min_self]
  have hscene := asksScene_sceneObject r.ruleId (ofInt r.enable) (ofInt r.delay)
  constructor
  · rintro ⟨arrays, harrays, -, haccept⟩
    obtain ⟨henable, hdelay, os, os', acts, hos, hos', hacts, rfl⟩ :=
      hr.addScene_eq_some_iff.mp harrays
    rw [hr.additions_eq hos hos' hacts] at haccept
    obtain ⟨hfits, hnames⟩ := (addtriggers_isSome_iff hr.triggers r.ruleId 0).mp (by rw [hos]; rfl)
    simp only [Nat.zero_add] at hnames
    obtain ⟨-, ⟨o, ho, hrefused⟩ | hconditions⟩ := addconditions_cases hr.conditions hos'
    · -- a window is accepted nowhere
      obtain ⟨g', hg'⟩ := isSome_iff_exists.mp haccept
      obtain ⟨g₁, g₂, hbad⟩ := Gateway.accept_of_mem hg' (o := o) (by simp [ho])
      rw [hrefused] at hbad
      cases hbad
    have hall := rel_append (asks_addtriggers hr.triggers hos)
      (asks_addconditions hr.conditions hconditions hos')
    rw [acceptAll_isSome_iff hscene hall (asks_addActions hr.actions hacts) hx hget',
      r.addAll_isSome_iff hnames] at haccept
    obtain ⟨hunfiled, hapart, hcrons, horRoom, handRoom⟩ := haccept
    refine ⟨henable, hdelay, hfits, hconditions, ?_, hcrons, horRoom, handRoom, hapart, ?_⟩
    · exact (addActions_isSome_iff hr.actions r.ruleId).mp (by rw [hacts]; rfl)
    · intro q hq
      have := hunfiled q hq
      rwa [htake] at this
  · rintro ⟨henable, hdelay, hfits, hconditions, hactions, hcrons, horRoom, handRoom, hapart,
      hunfiled⟩
    have hnames : ∀ i < Alink.crons r.triggers, (cronKey i).length < 8 :=
      fun i hi => length_cronKey_lt (lt_of_lt_of_le hi hcrons)
    obtain ⟨os, hos⟩ := isSome_iff_exists.mp
      ((addtriggers_isSome_iff hr.triggers r.ruleId 0).mpr
        ⟨hfits, by simpa only [Nat.zero_add] using hnames⟩)
    obtain ⟨os', hos'⟩ := isSome_iff_exists.mp
      (addconditions_isSome hr.conditions hconditions r.ruleId 0)
    obtain ⟨acts, hacts⟩ := isSome_iff_exists.mp
      ((addActions_isSome_iff hr.actions r.ruleId).mpr hactions)
    have hasks := rel_append (asks_addtriggers hr.triggers hos)
      (asks_addconditions hr.conditions hconditions hos')
    refine ⟨_, hr.addScene_eq_some_iff.mpr ⟨henable, hdelay, os, os', acts, hos, hos', hacts, rfl⟩,
      ?_, ?_⟩
    · rw [hr.additions_eq hos hos' hacts]
      intro o ho
      rw [mem_cons, mem_append] at ho
      rcases ho with rfl | ho | ho
      · exact complete_of_asksScene hscene
      · obtain ⟨q, -, hq⟩ := Keyed.exists_of_forall₂ hasks.flip ho
        exact complete_of_asks hq
      · exact complete_of_asksAction (asks_addActions hr.actions hacts o ho)
    · rw [hr.additions_eq hos hos' hacts,
        acceptAll_isSome_iff hscene hasks (asks_addActions hr.actions hacts) hx hget',
        r.addAll_isSome_iff hnames]
      refine ⟨fun q hq => ?_, hapart, hcrons, horRoom, handRoom⟩
      rw [htake]
      exact hunfiled q hq

namespace Sample

/-- A device with a switch. -/
def tables : Tables where
  cloudLinkListGetById name :=
    if name = "dev".toList then some ⟨[⟨"Power".toList, "PowerSwitch".toList⟩], []⟩ else none
  hylinkListGetById name :=
    if name = "dev".toList then some ⟨[⟨"Power".toList, true⟩]⟩ else none
  table0Select _ := []
  printUnformatted _ := []

def item (params : List (CText × Json)) : Json := .object [("params".toList, .object params)]

/-- The switch, compared with a value. -/
def switch (op value : CText) : Json :=
  item [("deviceName".toList, .string "dev".toList),
    ("propertyName".toList, .string "PowerSwitch".toList),
    ("compareType".toList, .string op), ("compareValue".toList, .string value)]

def switchItem (op value : CText) : DevItem :=
  ⟨"dev".toList, "Power".toList, some (.string op), .string value⟩

/-- Half past eight, on two days. -/
def cron : Json := item [("cron".toList, .string "30 8 * * 1,2".toList)]

/-- From eight to nine. -/
def window : Json :=
  item [("startTime".toList, .string "08:00".toList), ("endTime".toList, .string "09:00".toList)]

def rules (conditions : List Json) : Json :=
  .object [("ruleId".toList, .string "r1".toList), ("enable".toList, .number ['1'] 1),
    ("triggers".toList, .object [("items".toList, .array [cron, switch "==".toList ['1']])]),
    ("conditions".toList, .object [("items".toList, .array conditions)]),
    ("actions".toList, .array [switch "==".toList ['0']])]

def rule (conditions : List Condition) : Rule where
  ruleId := "r1".toList
  enable := 1
  delay := 0
  triggers := [.cron "30 8 * * 1,2".toList, .device (switchItem "==".toList ['1'])]
  conditions := conditions
  actions := [switchItem "==".toList ['0']]

theorem switch_of (op value : CText) :
    (switchItem op value).Of tables (itemParams (switch op value)) :=
  ⟨rfl, ⟨_, _, rfl, rfl, rfl⟩, rfl, rfl⟩

theorem rule_of {items : List Json} {cs : List Condition}
    (h : List.Forall₂ (Condition.Of tables) items cs) : (rule cs).Of tables (rules items) where
  ruleId := rfl
  enable := ⟨_, rfl, rfl⟩
  delay := rfl
  triggers := .cons rfl (.cons ⟨rfl, switch_of _ _⟩ .nil)
  conditions := h
  actions := .cons ⟨rfl, switch_of _ _⟩ .nil

theorem switchItem_fits {op value : CText} (hop : op ∈ cloudActive) (hvalue : value.length < 8) :
    (switchItem op value).Fits where
  compare := by
    refine ⟨_, rfl, fun op' h => ?_⟩
    obtain rfl := some.inj h
    exact hop
  value := hvalue

end Sample

/-- A rule of triggers at a time and of devices, windows and conditions on devices,
and actions on devices agrees with a gateway that does not have its scene, in
whatever state, exactly when the rule has no window, fits, and finds its texts free
and room for them. -/
theorem agrees_iff {rules : Json} {r : Rule} (hr : r.Of T rules) (isUpdate : Bool) {y : Engine}
    {as : List Act} {fx : List Effect} (hrun : Run.run Engine.step .init as = some (y, fx))
    (hget : sceneListGet y.list r.ruleId = none) (pstAction : Nat → ActionList) :
    Agrees T rules isUpdate ⟨y.list, pstAction⟩ ↔ r.Ok ⟨y.list, pstAction⟩ :=
  hr.agrees_iff_ok isUpdate (run_indexed hrun) hget

/-- A rule with a trigger at a time, and a trigger, a condition and an action of a
device. -/
theorem agrees_without_window : Agrees Sample.tables
    (Sample.rules [Sample.switch ">".toList ['5']]) false ⟨Engine.init.list, fun _ => .new⟩ := by
  refine (agrees_iff (r := Sample.rule [.device (Sample.switchItem ">".toList ['5'])])
    (Sample.rule_of (.cons ⟨rfl, Sample.switch_of _ _⟩ .nil)) false
    (show Run.run Engine.step .init [] = some (.init, []) from rfl) rfl _).mpr ?_
  exact {
    enable := by decide
    delay := by decide
    triggers := by
      rintro t ht
      rcases mem_cons.mp ht with rfl | ht
      · exact ⟨by decide, by decide, by decide⟩
      · rw [mem_singleton.mp ht]
        exact Sample.switchItem_fits (by decide) (by decide)
    conditions := by
      rintro c hc
      rw [mem_singleton.mp hc]
      exact ⟨_, rfl, Sample.switchItem_fits (by decide) (by decide)⟩
    actions := by
      rintro d hd
      rw [mem_singleton.mp hd]
      exact Sample.switchItem_fits (by decide) (by decide)
    crons := by decide
    orRoom := by decide
    andRoom := by decide
    apart := by decide
    unfiled := fun _ _ => rfl }

/-- The same rule with a window: the gateway refuses it. -/
theorem not_agrees_with_window : ¬ ∀ (T : Tables) (rules : Json) (r : Rule) (isUpdate : Bool)
    (y : Engine) (as : List Act) (fx : List Effect) (pstAction : Nat → ActionList), r.Of T rules →
      Run.run Engine.step .init as = some (y, fx) → sceneListGet y.list r.ruleId = none →
        Agrees T rules isUpdate ⟨y.list, pstAction⟩ := by
  intro h
  obtain ⟨arrays, harrays, -, haccept⟩ := h Sample.tables (Sample.rules [Sample.window])
    (Sample.rule [.window "08:00".toList "09:00".toList]) false .init [] [] (fun _ => .new)
    (Sample.rule_of (.cons ⟨rfl, rfl⟩ .nil)) rfl rfl
  cases harrays
  exact absurd haccept (by decide)

end Honyar.Alink
