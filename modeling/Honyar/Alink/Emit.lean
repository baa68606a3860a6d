import Honyar.Alink.Rule

/-!
# What a rule is translated to

Where the translation of a rule stays inside its buffers, its objects ask the
gateway for what the rule says, but for the windows: their objects lack two of the
fields of a time condition.
-/

namespace Honyar.Alink

open CText LocalScene Option List

variable {T : Tables} {id : CText} {d : DevItem}
variable {n : Nat} {item : Json} {items os actions : List Json} {cs : List Condition}
  {ds : List DevItem}

/-! ## Texts -/

theorem length_intercalate_names {names : List CText} (h : ∀ n ∈ names, n.length = 3) :
    ([','].intercalate names).length = 4 * names.length - 1 := by
  induction names with
  | nil => rfl
  | cons n names ih =>
    have hn := h n mem_cons_self
    have ih := ih fun n' hn' => h n' (mem_cons_of_mem _ hn')
    by_cases hnil : names = []
    · subst hnil
      rw [intercalate_singleton, hn]
      rfl
    · have hpos := length_pos_iff.mpr hnil
      rw [intercalate_cons_of_ne_nil hnil, length_append, length_append, hn, ih]
      simp only [length_cons, length_nil]
      omega

/-- The days are written out exactly when there are at most eight, each of them a
number from 0 to 6. -/
theorem weekText_isSome_iff {days : List CText} :
    (weekText days).isSome ↔ days.length ≤ 8 ∧ ∀ w ∈ days, 0 ≤ atoi w ∧ atoi w ≤ 6 := by
  have hday : ∀ w : CText, ((if 0 ≤ atoi w then weekDay[(atoi w).toNat]? else none).isSome ↔
      0 ≤ atoi w ∧ atoi w ≤ 6) := by
    intro w
    by_cases hw : 0 ≤ atoi w
    · rw [if_pos hw, isSome_getElem?]
      show (atoi w).toNat < 7 ↔ _
      omega
    · rw [if_neg hw]
      simp [hw]
  have hall : (days.mapM fun w => if 0 ≤ atoi w then weekDay[(atoi w).toNat]? else none).isSome ↔
      ∀ w ∈ days, 0 ≤ atoi w ∧ atoi w ≤ 6 := by
    simp only [mapM_isSome_iff, hday]
  rw [← hall, weekText, bind_eq_bind]
  cases hnames : days.mapM fun w => if 0 ≤ atoi w then weekDay[(atoi w).toNat]? else none with
  | none => simp
  | some names =>
    have hnames := mapM_eq_some_iff.mp hnames
    have hlen : ∀ n ∈ names, n.length = 3 := by
      intro n hn
      obtain ⟨w, -, hw⟩ := Keyed.exists_of_forall₂ hnames hn
      split at hw
      · exact (by decide : ∀ n ∈ weekDay, n.length = 3) n (mem_of_getElem? hw)
      · cases hw
    rw [bind_some, sprintf_singleton, length_intercalate_names hlen,
      hnames.length_eq]
    split
    · refine iff_of_true rfl ⟨?_, rfl⟩
      omega
    · refine iff_of_false (by simp) fun h => ?_
      have := h.1
      omega

/-! ## Objects -/

/-- The logic, as the translation writes it. -/
def logicText : Logic → CText
  | .or => "Or".toList
  | .and => "And".toList

/-- The members of a condition of a device. -/
def eventMembers (T : Tables) (id : CText) (l : Logic) (d : DevItem) : Members :=
  devMembers T (((condMembers id (logicText l)).addString "CondType" "Event".toList).addString
    "Active" d.active) d.deviceName d.hyKey (cjsonToStr d.value)

theorem asks_eventMembers (T : Tables) (id : CText) (l : Logic) (d : DevItem) :
    Asks (.object (eventMembers T id l d)) (strncpy indexMaxLen id)
      ⟨l, .event, d.text, l = .or && d.manual⟩ := by
  rw [eventMembers, devMembers]
  cases triggerType? T d.deviceName d.hyKey with
  | none =>
    cases l with
    | or => exact ⟨rfl, rfl, ⟨_, rfl, rfl⟩, rfl, _, rfl, fun _ => rfl, rfl, rfl⟩
    | and => exact ⟨rfl, rfl, ⟨_, rfl, rfl⟩, rfl, _, rfl, fun _ => rfl, rfl, rfl⟩
  | some t =>
    cases l with
    | or => exact ⟨rfl, rfl, ⟨_, rfl, rfl⟩, rfl, _, rfl, fun _ => rfl, rfl, rfl⟩
    | and => exact ⟨rfl, rfl, ⟨_, rfl, rfl⟩, rfl, _, rfl, fun _ => rfl, rfl, rfl⟩

/-- The members of an action on a device. -/
def actionMembers (T : Tables) (id : CText) (d : DevItem) : Members :=
  devMembers T (Members.addString [("Op".toList, .string "AddAction".toList),
    ("Id".toList, .string id)] "Active" d.active) d.deviceName d.hyKey (cjsonToStr d.value)

theorem asksAction_actionMembers (T : Tables) (id : CText) (d : DevItem) :
    AsksAction (.object (actionMembers T id d)) (strncpy indexMaxLen id) := by
  rw [actionMembers, devMembers]
  cases triggerType? T d.deviceName d.hyKey with
  | none => exact ⟨rfl, rfl, rfl⟩
  | some t => exact ⟨rfl, rfl, rfl⟩

theorem asksScene_sceneObject (id enable delayed : CText) :
    AsksScene (sceneObject id enable delayed) (strncpy indexMaxLen id) := ⟨rfl, rfl⟩

theorem sprintf_cronKey (n : Nat) : sprintf 8 ["Or_".toList, ofInt n] =
    if (cronKey n).length < 8 then some (cronKey n) else none := by
  have hflat : ["Or_".toList, ofInt n].flatten = cronKey n := by simp [cronKey]
  rw [sprintf, hflat]

theorem cronMembers_isSome_iff (o : Members) (n : Nat) (text : CText) :
    (cronMembers o n (.string text)).isSome ↔ CronFits text ∧ (cronKey n).length < 8 := by
  have hfits : CronFits text ↔ 4 ≤ (strsep [' ', ','] text).length ∧
      (weekText ((strsep [' ', ','] text).drop 4)).isSome := by
    rw [weekText_isSome_iff]
    exact ⟨fun h => ⟨h.fields, h.short, h.days⟩, fun h => ⟨h.1, h.2.1, h.2.2⟩⟩
  rw [hfits, cronMembers, sprintf_cronKey]
  by_cases hlen : (cronKey n).length < 8
  · simp only [hlen, if_true, and_true, bind_eq_bind, bind_some,
      Json.valuestring?_string]
    rcases strsep [' ', ','] text with - | ⟨minu, - | ⟨hour, - | ⟨day, - | ⟨month, days⟩⟩⟩⟩
    · simp
    · simp
    · simp
    · simp
    · cases hweek : weekText days <;> simp [hweek]
  · simp [hlen]

theorem asks_cronMembers {cron : Json} {m : Members}
    (h : cronMembers (condMembers id "Or".toList) n cron = some m) :
    Asks (.object m) (strncpy indexMaxLen id) ⟨.or, .time, timeHashKey (cronKey n), false⟩ := by
  simp only [cronMembers, bind_eq_bind, bind_eq_some_iff] at h
  obtain ⟨key, hkey, text, -, h⟩ := h
  rw [sprintf_cronKey] at hkey
  split at hkey
  · rename_i hlen
    obtain rfl := some.inj hkey
    have hshort : strncpy keyMaxLen (cronKey n) = cronKey n :=
      take_of_length_le (Nat.le_of_lt (hlen.trans (by decide)))
    split at h
    · simp only [bind_eq_some_iff, Option.pure_def, some.injEq] at h
      obtain ⟨week, -, rfl⟩ := h
      have htrigger : "InstantOnce".toList.length ≤ triggerTypeMaxLen := by decide
      have hinterval : ['1'].length ≤ triggerIntervalMaxLen := by decide
      exact ⟨rfl, rfl, ⟨_, rfl, rfl⟩, rfl, ⟨_, rfl, htrigger, hinterval, congrArg _ hshort⟩, rfl⟩
    · cases h
  · cases hkey

/-- The object of a window has neither days nor a repetition: no gateway accepts
it. -/
theorem accept_windowMembers {startTime : Json} {endTime : Option Json} {m : Members}
    (h : windowMembers (condMembers id "And".toList) n startTime endTime = some m) :
    readField "Op" operationMaxLen (.object m) = some Operation.addCond.text ∧
      ∀ g : Gateway, g.accept (.object m) = none := by
  simp only [windowMembers, bind_eq_bind, bind_eq_some_iff, Option.pure_def,
    some.injEq] at h
  obtain ⟨key, -, start, -, endTime, -, stop, -, rfl⟩ := h
  generalize (strsep [':'] start)[0]? = startHour
  generalize (strsep [':'] start)[1]? = startMinu
  generalize (strsep [':'] stop)[0]? = endHour
  generalize (strsep [':'] stop)[1]? = endMinu
  have hrest : ∀ m : Members, m = ((((((condMembers id "And".toList).addString "CondType"
      "Time".toList).addString "TimeKey" key).addString? "StartHour" startHour).addString?
        "StartMinu" startMinu).addString? "EndHour" endHour).addString? "EndMinu" endMinu →
      readField "Op" operationMaxLen (.object m) = some Operation.addCond.text ∧
      readField "CondType" typeMaxLen (.object m) = some "Time".toList ∧
      readField "Week" weekMaxLen (.object m) = none := by
    rintro m rfl
    cases startHour <;> cases startMinu <;> cases endHour <;> cases endMinu <;>
      exact ⟨rfl, rfl, rfl⟩
  obtain ⟨hop, htype, hweek⟩ := hrest _ rfl
  exact ⟨hop, Gateway.accept_noWeek hop htype hweek⟩

/-! ## Triggers -/

theorem addtrigger_cron {text : CText} (h : (Trigger.cron text).Of T item) :
    addtrigger T id n item =
      (cronMembers (condMembers id "Or".toList) n (.string text)).map
        fun m => (.object m, n + 1) := by
  have hcron : member (item.getObjectItem "params".toList) "cron" = some (.string text) := h
  simp only [addtrigger, hcron, bind_eq_bind, Option.pure_def, map_eq_bind]
  rfl

theorem addtrigger_device (h : (Trigger.device d).Of T item) :
    addtrigger T id n item =
      if d.Fits then some (.object (eventMembers T id .or d), n) else none := by
  obtain ⟨hcron, hd⟩ := h
  have hparams : item.getObjectItem "params".toList = itemParams item := rfl
  simp only [addtrigger, hparams, hcron, hd.deviceName, isSome_some, if_true]
  split
  · rename_i hfits
    rw [(getSceneDevStatus_eq_some_iff hd).mpr ⟨hfits, rfl⟩]
    rfl
  · rename_i hfits
    rw [hd.getSceneDevStatus_eq_none hfits]
    rfl

/-- The triggers are written out exactly when each fits, and so does the name of
each that is at a time. -/
theorem addtriggers_isSome_iff {ts : List Trigger} (h : List.Forall₂ (Trigger.Of T) items ts)
    (id : CText) (n : Nat) :
    (addtriggers T id n items).isSome ↔
      (∀ t ∈ ts, t.Fits) ∧ ∀ i < crons ts, (cronKey (n + i)).length < 8 := by
  induction h generalizing n with
  | nil => simp [addtriggers, crons]
  | @cons item t items ts ht _ ih =>
    rw [forall_mem_cons]
    cases t with
    | cron text =>
      have hnames : (∀ i < crons (.cron text :: ts), (cronKey (n + i)).length < 8) ↔
          (cronKey n).length < 8 ∧ ∀ i < crons ts, (cronKey (n + 1 + i)).length < 8 := by
        simp only [crons, Nat.forall_lt_succ_left', Nat.add_zero, Nat.add_assoc,
          Nat.add_comm 1]
      have hfits : (Trigger.cron text).Fits ↔ CronFits text := Iff.rfl
      have hsome := cronMembers_isSome_iff (condMembers id "Or".toList) n text
      rw [hnames, hfits, addtriggers, addtrigger_cron ht]
      cases hm : cronMembers (condMembers id "Or".toList) n (.string text) with
      | none =>
        rw [hm] at hsome
        have hbad := hsome.not.mp (by simp)
        refine iff_of_false (by simp) fun h => hbad ⟨h.1.1, h.2.1⟩
      | some m =>
        rw [hm] at hsome
        obtain ⟨hcron, hname⟩ := hsome.mp rfl
        have hrest := ih (n + 1)
        simp only [map_some, bind_eq_bind, bind_some, hcron, hname,
          true_and]
        rw [← hrest]
        cases addtriggers T id (n + 1) items <;> simp
    | device d =>
      have hnames : crons (.device d :: ts) = crons ts := rfl
      have hfits : (Trigger.device d).Fits ↔ d.Fits := Iff.rfl
      rw [hnames, hfits, addtriggers, addtrigger_device ht]
      by_cases hd : d.Fits
      · have hrest := ih n
        simp only [hd, if_true, bind_eq_bind, bind_some, true_and]
        rw [← hrest]
        cases addtriggers T id n items <;> simp
      · simp [hd]

theorem asks_addtriggers {ts : List Trigger} (h : List.Forall₂ (Trigger.Of T) items ts)
    (hos : addtriggers T id n items = some os) :
    List.Forall₂ (fun o r => Asks o (strncpy indexMaxLen id) r) os (triggerReqs n ts) := by
  induction h generalizing n os with
  | nil =>
    obtain rfl := some.inj hos
    exact .nil
  | @cons item t items ts ht _ ih =>
    simp only [addtriggers, bind_eq_bind, bind_eq_some_iff, Prod.exists,
      Option.pure_def, some.injEq] at hos
    obtain ⟨o, n', ho, os, hos, rfl⟩ := hos
    cases t with
    | cron text =>
      rw [addtrigger_cron ht, map_eq_some_iff] at ho
      obtain ⟨m, hm, heq⟩ := ho
      obtain ⟨rfl, rfl⟩ := Prod.mk.inj heq
      exact .cons (asks_cronMembers hm) (ih hos)
    | device d =>
      rw [addtrigger_device ht] at ho
      split at ho
      · obtain ⟨rfl, rfl⟩ := Prod.mk.inj (some.inj ho)
        exact .cons (asks_eventMembers T id .or d) (ih hos)
      · cases ho

/-! ## Conditions -/

theorem addcondition_window {startTime endTime : CText}
    (h : (Condition.window startTime endTime).Of T item) : addcondition T id n item =
      (windowMembers (condMembers id "And".toList) n (.string startTime)
        (some (.string endTime))).map fun m => (.object m, n + 1) := by
  obtain ⟨hstart, hend⟩ := h
  have hparams : item.getObjectItem "params".toList = itemParams item := rfl
  simp only [addcondition, hparams, hstart, hend, bind_eq_bind, Option.pure_def,
    map_eq_bind]
  rfl

theorem addcondition_device (h : (Condition.device d).Of T item) :
    addcondition T id n item =
      if d.Fits then some (.object (eventMembers T id .and d), n) else none := by
  obtain ⟨hstart, hd⟩ := h
  have hparams : item.getObjectItem "params".toList = itemParams item := rfl
  simp only [addcondition, hparams, hstart, hd.deviceName, isSome_some, if_true]
  split
  · rename_i hfits
    rw [(getSceneDevStatus_eq_some_iff hd).mpr ⟨hfits, rfl⟩]
    rfl
  · rename_i hfits
    rw [hd.getSceneDevStatus_eq_none hfits]
    rfl

theorem addconditions_isSome (h : List.Forall₂ (Condition.Of T) items cs)
    (hcs : ∀ c ∈ cs, ∃ d, c = .device d ∧ d.Fits) (id : CText) (n : Nat) :
    (addconditions T id n items).isSome := by
  induction h generalizing n with
  | nil => rfl
  | @cons item c items cs hc _ ih =>
    obtain ⟨⟨d, rfl, hd⟩, hrest⟩ := forall_mem_cons.mp hcs
    obtain ⟨os, hos⟩ := isSome_iff_exists.mp (ih hrest n)
    rw [addconditions, addcondition_device hc, if_pos hd]
    simp [hos]

theorem asks_addconditions (h : List.Forall₂ (Condition.Of T) items cs)
    (hcs : ∀ c ∈ cs, ∃ d, c = .device d ∧ d.Fits) (hos : addconditions T id n items = some os) :
    List.Forall₂ (fun o r => Asks o (strncpy indexMaxLen id) r) os (conditionReqs cs) := by
  induction h generalizing n os with
  | nil =>
    obtain rfl := some.inj hos
    exact .nil
  | @cons item c items cs hc _ ih =>
    obtain ⟨⟨d, rfl, hd⟩, hrest⟩ := forall_mem_cons.mp hcs
    simp only [addconditions, addcondition_device hc, hd, if_true, bind_eq_bind,
      bind_some, bind_eq_some_iff, Option.pure_def, some.injEq] at hos
    obtain ⟨os, hos, rfl⟩ := hos
    exact .cons (asks_eventMembers T id .and d) (ih hrest hos)

/-- The objects of conditions ask for additions; when one is a window, its object is
accepted by no gateway. -/
theorem addconditions_cases (h : List.Forall₂ (Condition.Of T) items cs)
    (hos : addconditions T id n items = some os) :
    (∀ o ∈ os, readField "Op" operationMaxLen o = some Operation.addCond.text) ∧
      ((∃ o ∈ os, ∀ g : Gateway, g.accept o = none) ∨
        ∀ c ∈ cs, ∃ d, c = .device d ∧ d.Fits) := by
  induction h generalizing n os with
  | nil =>
    obtain rfl := some.inj hos
    exact ⟨by simp, .inr (by simp)⟩
  | @cons item c items cs hc _ ih =>
    simp only [addconditions, bind_eq_bind, bind_eq_some_iff, Prod.exists,
      Option.pure_def, some.injEq] at hos
    obtain ⟨o, n', ho, os, hos, rfl⟩ := hos
    obtain ⟨hops, hrest⟩ := ih hos
    cases c with
    | window startTime endTime =>
      rw [addcondition_window hc, map_eq_some_iff] at ho
      obtain ⟨m, hm, heq⟩ := ho
      obtain ⟨rfl, rfl⟩ := Prod.mk.inj heq
      obtain ⟨hop, hrefused⟩ := accept_windowMembers hm
      exact ⟨forall_mem_cons.mpr ⟨hop, hops⟩, .inl ⟨_, mem_cons_self, hrefused⟩⟩
    | device d =>
      rw [addcondition_device hc] at ho
      split at ho
      · rename_i hd
        obtain ⟨rfl, rfl⟩ := Prod.mk.inj (some.inj ho)
        have hop := (asks_eventMembers T id .and d).op
        refine ⟨forall_mem_cons.mpr ⟨hop, hops⟩, ?_⟩
        rcases hrest with ⟨o', ho', hrefused⟩ | hcs
        · exact .inl ⟨o', mem_cons_of_mem _ ho', hrefused⟩
        · exact .inr (forall_mem_cons.mpr ⟨⟨d, rfl, hd⟩, hcs⟩)
      · cases ho

/-! ## Actions -/

theorem addaction_eq (h : d.IsAction T item) : addaction T id item =
    if d.Fits then some ([], [.object (actionMembers T id d)]) else none := by
  obtain ⟨hscene, hd⟩ := h
  have hparams : item.getObjectItem "params".toList = itemParams item := rfl
  simp only [addaction, hparams, hscene]
  split
  · rename_i hfits
    rw [(getSceneDevStatus_eq_some_iff hd).mpr ⟨hfits, rfl⟩]
    rfl
  · rename_i hfits
    rw [hd.getSceneDevStatus_eq_none hfits]
    rfl

theorem actionBatch_isSome_iff {batch : List Json} : (actionBatch T id batch).isSome ↔
    ∀ item ∈ batch, (addaction T id item).isSome := by
  rw [← mapM_isSome_iff, actionBatch]
  cases batch.mapM (addaction T id) <;> simp

theorem mem_actionBatch {batch : List Json} {arrays : List (List Json)}
    (h : actionBatch T id batch = some arrays) {o : Json} (ho : o ∈ arrays.flatten) :
    ∃ item ∈ batch, ∃ r, addaction T id item = some r ∧ (o ∈ r.1.flatten ∨ o ∈ r.2) := by
  simp only [actionBatch, bind_eq_bind, bind_eq_some_iff, Option.pure_def,
    some.injEq] at h
  obtain ⟨rs, hrs, rfl⟩ := h
  have hrs := mapM_eq_some_iff.mp hrs
  rw [flatten_append, mem_append] at ho
  have hr : ∃ r ∈ rs, o ∈ r.1.flatten ∨ o ∈ r.2 := by
    rcases ho with ho | ho
    · obtain ⟨os, hos, ho⟩ := mem_flatten.mp ho
      obtain ⟨r, hr, hos⟩ := mem_flatMap.mp hos
      exact ⟨r, hr, .inl (mem_flatten.mpr ⟨os, hos, ho⟩)⟩
    · split at ho
      · cases ho
      · rw [flatten_singleton] at ho
        obtain ⟨r, hr, ho⟩ := mem_flatMap.mp ho
        exact ⟨r, hr, .inr ho⟩
  obtain ⟨r, hr, ho⟩ := hr
  obtain ⟨item, hitem, heq⟩ := Keyed.exists_of_forall₂ hrs hr
  exact ⟨item, hitem, r, heq, ho⟩

theorem addaction_isSome_iff (h : List.Forall₂ (DevItem.IsAction T) actions ds) :
    (∀ item ∈ actions, (addaction T id item).isSome) ↔ ∀ d ∈ ds, d.Fits := by
  induction h with
  | nil => simp
  | @cons item d items ds hd _ ih =>
    have hone : (addaction T id item).isSome ↔ d.Fits := by
      rw [addaction_eq hd]
      by_cases hfits : d.Fits <;> simp [hfits]
    rw [forall_mem_cons, forall_mem_cons]
    exact and_congr hone ih

theorem addActions_isSome_iff (h : List.Forall₂ (DevItem.IsAction T) actions ds) (id : CText) :
    (addActions T id actions).isSome ↔ ∀ d ∈ ds, d.Fits := by
  have hbatches : (addActions T id actions).isSome ↔
      ((actions.toChunks 10).mapM (actionBatch T id)).isSome := by
    rw [addActions]
    cases (actions.toChunks 10).mapM (actionBatch T id) <;> simp
  have hitems : (∀ batch ∈ actions.toChunks 10, ∀ item ∈ batch, (addaction T id item).isSome) ↔
      ∀ item ∈ actions, (addaction T id item).isSome := by
    conv_rhs => rw [← flatten_toChunks 10 actions]
    simp only [mem_flatten, forall_exists_index, and_imp]
    exact ⟨fun h item batch hb hi => h batch hb item hi,
      fun h batch hb item hi => h item batch hb hi⟩
  rw [hbatches, mapM_isSome_iff]
  simp only [actionBatch_isSome_iff]
  rw [hitems, addaction_isSome_iff h]

theorem asks_addActions (h : List.Forall₂ (DevItem.IsAction T) actions ds)
    {arrays : List (List Json)} (harrays : addActions T id actions = some arrays) :
    ∀ o ∈ arrays.flatten, AsksAction o (strncpy indexMaxLen id) := by
  intro o ho
  simp only [addActions, bind_eq_bind, bind_eq_some_iff, Option.pure_def,
    some.injEq] at harrays
  obtain ⟨bs, hbs, rfl⟩ := harrays
  obtain ⟨os, hos, ho⟩ := mem_flatten.mp ho
  obtain ⟨b, hb, hos⟩ := mem_flatten.mp hos
  obtain ⟨batch, hbatch, heq⟩ := Keyed.exists_of_forall₂ (mapM_eq_some_iff.mp hbs) hb
  obtain ⟨item, hitem, r, hr, ho⟩ := mem_actionBatch heq (mem_flatten.mpr ⟨os, hos, ho⟩)
  have hmem : item ∈ actions := by
    rw [← flatten_toChunks 10 actions]
    exact mem_flatten.mpr ⟨batch, hbatch, hitem⟩
  obtain ⟨d, -, hd⟩ := Keyed.exists_of_forall₂ h.flip hmem
  rw [addaction_eq hd] at hr
  split at hr
  · obtain rfl := some.inj hr
    rcases ho with ho | ho
    · cases ho
    · rw [mem_singleton.mp ho]
      exact asksAction_actionMembers T id d
  · cases hr

end Honyar.Alink
