import Honyar.Alink.SceneAdd
import Honyar.Lib.Lists
import Honyar.LocalScene.Accept

/-!
# Rules of the cloud, and what they are translated to

The rules the translation is meant for, as data: triggers at a time and triggers
of devices, conditions that are windows of time or devices, and actions on
devices.  Where the translation of such a rule stays inside its buffers, its
objects ask the gateway for what the rule says, but for the windows: their objects
lack two of the fields of a time condition.
-/

namespace Honyar.Alink

open CText LocalScene Option

/-! ## Rules -/

/-- An attribute of a device, as an item of a rule speaks of it. -/
structure DevItem where
  deviceName : CText
  hyKey : CText
  compareType : Option Json
  value : Json

/-- A trigger. -/
inductive Trigger where
  | cron (text : CText)
  | device (d : DevItem)

/-- A condition. -/
inductive Condition where
  | window (startTime endTime : CText)
  | device (d : DevItem)

/-- A rule. -/
structure Rule where
  ruleId : CText
  enable : Int
  delay : Int
  triggers : List Trigger
  conditions : List Condition
  actions : List DevItem

/-- The parameters are about an attribute that is known. -/
structure DevItem.Of (T : Tables) (params : Option Json) (d : DevItem) : Prop where
  deviceName : member params "deviceName" = some (.string d.deviceName)
  known : ∃ dev name, T.cloudLinkListGetById d.deviceName = some dev ∧
    member params "propertyName" = some (.string name) ∧
    dev.hyKey? (some (.string name)) = some (some d.hyKey)
  compareType : member params "compareType" = d.compareType
  value : propertyValue? params = some d.value

/-- The parameters of an item. -/
def itemParams (item : Json) : Option Json := item.getObjectItem "params".toList

/-- The item is the trigger. -/
def Trigger.Of (T : Tables) (item : Json) : Trigger → Prop
  | .cron text => member (itemParams item) "cron" = some (.string text)
  | .device d => member (itemParams item) "cron" = none ∧ d.Of T (itemParams item)

/-- The item is the condition. -/
def Condition.Of (T : Tables) (item : Json) : Condition → Prop
  | .window startTime endTime =>
    member (itemParams item) "startTime" = some (.string startTime) ∧
      member (itemParams item) "endTime" = some (.string endTime)
  | .device d => member (itemParams item) "startTime" = none ∧ d.Of T (itemParams item)

/-- The item is an action on a device. -/
def DevItem.IsAction (T : Tables) (item : Json) (d : DevItem) : Prop :=
  member (itemParams item) "sceneId" = none ∧ d.Of T (itemParams item)

/-- The value is the rule. -/
structure Rule.Of (T : Tables) (rules : Json) (r : Rule) : Prop where
  ruleId : rules.getObjectItem "ruleId".toList = some (.string r.ruleId)
  enable : ∃ e, rules.getObjectItem "enable".toList = some e ∧ e.valueint = r.enable
  delay : delayTime rules = some r.delay
  triggers : List.Forall₂ (Trigger.Of T) (ruleItems rules "triggers") r.triggers
  conditions : List.Forall₂ (Condition.Of T) (ruleItems rules "conditions") r.conditions
  actions : List.Forall₂ (DevItem.IsAction T) (items (rules.getObjectItem "actions".toList))
    r.actions

/-! ## What fits -/

theorem findActive_isSome_iff {op? : Option CText} :
    (findActive op?).isSome ↔ ∀ op, op? = some op → op ∈ cloudActive := by
  cases op? with
  | none => simp [findActive]
  | some op =>
    rw [findActive]
    split <;> simp [*]

/-- The comparison is one the translation knows, or is no text at all; and the
value is at most seven characters long. -/
structure DevItem.Fits (d : DevItem) : Prop where
  compare : ∃ c, d.compareType = some c ∧ ∀ op, c.valuestring? = some op → op ∈ cloudActive
  value : (cjsonToStr d.value).length < 8

/-- Cut at blanks and commas, the text has four fields in front of its days, and at
most eight days, each of them a number from 0 to 6. -/
structure CronFits (text : CText) : Prop where
  fields : 4 ≤ (strsep [' ', ','] text).length
  short : ((strsep [' ', ','] text).drop 4).length ≤ 8
  days : ∀ w ∈ (strsep [' ', ','] text).drop 4, 0 ≤ atoi w ∧ atoi w ≤ 6

theorem DevItem.fits_iff {d : DevItem} : d.Fits ↔
    (∃ c, d.compareType = some c ∧ (findActive c.valuestring?).isSome) ∧
      (cjsonToStr d.value).length < 8 := by
  simp only [findActive_isSome_iff]
  exact ⟨fun h => ⟨h.compare, h.value⟩, fun h => ⟨h.1, h.2⟩⟩

instance (d : DevItem) : Decidable d.Fits :=
  decidable_of_iff
    ((d.compareType.any fun c => (findActive c.valuestring?).isSome) = true ∧
      (cjsonToStr d.value).length < 8) <| by
    rw [DevItem.fits_iff, any_eq_true]

def Trigger.Fits : Trigger → Prop
  | .cron text => CronFits text
  | .device d => d.Fits

/-! ## What is asked -/

/-- The name of the `n`-th trigger at a time. -/
def cronKey (n : Nat) : CText := "Or_".toList ++ ofInt n

/-- The text the condition of an item is filed under. -/
def DevItem.text (d : DevItem) : CText :=
  eventHashKey (strncpy devIdMaxLen d.deviceName) (strncpy keyMaxLen d.hyKey)

/-- The item stands for the manual trigger. -/
def DevItem.manual (d : DevItem) : Bool :=
  strncmpEq keyMaxLen (strncpy keyMaxLen d.hyKey) jsonValueKeyManual

/-- The requests of triggers, from the counter on. -/
def triggerReqs : Nat → List Trigger → List CondReq
  | _, [] => []
  | n, .cron _ :: ts => ⟨.or, .time, timeHashKey (cronKey n), false⟩ :: triggerReqs (n + 1) ts
  | n, .device d :: ts => ⟨.or, .event, d.text, d.manual⟩ :: triggerReqs n ts

/-- The device of a condition on a device. -/
def Condition.device? : Condition → Option DevItem
  | .window _ _ => none
  | .device d => some d

/-- The requests of conditions on devices. -/
def conditionReqs (cs : List Condition) : List CondReq :=
  (cs.filterMap Condition.device?).map fun d => ⟨.and, .event, d.text, false⟩

/-- The number of triggers at a time. -/
def crons : List Trigger → Nat
  | [] => 0
  | .cron _ :: ts => crons ts + 1
  | .device _ :: ts => crons ts

/-! ## Objects of devices -/

section Device

variable {T : Tables} {params : Option Json} {d : DevItem} {o m : Members} {id : CText}

/-- The comparison, as the gateway knows it. -/
def DevItem.active (d : DevItem) : CText :=
  match d.compareType.bind Json.valuestring? with
  | some op => (localActive[cloudActive.findIdx (· == op)]?).getD "Equ".toList
  | none => "Equ".toList

/-- What the translation makes of an item whose attribute is known. -/
theorem getSceneDevStatus_eq_some_iff (hd : d.Of T params) :
    getSceneDevStatus T params o = some m ↔ d.Fits ∧
      m = devMembers T (o.addString "Active" d.active) d.deviceName d.hyKey
        (cjsonToStr d.value) := by
  obtain ⟨hname, ⟨dev, name, hdev, hproperty, hkey⟩, hcompare, hvalue⟩ := hd
  rw [d.fits_iff]
  cases hc : d.compareType with
  | none => simp [getSceneDevStatus, hcompare, hc]
  | some c =>
    cases hactive : findActive c.valuestring? with
    | none => simp [getSceneDevStatus, hcompare, hc, hactive]
    | some active =>
      have hequ : (active.bind fun i => localActive[i]?).getD "Equ".toList = d.active := by
        rw [DevItem.active, hc, bind_some]
        cases hop : c.valuestring? with
        | none =>
          rw [hop, findActive] at hactive
          rw [← some.inj hactive]
          rfl
        | some op =>
          rw [hop, findActive] at hactive
          split at hactive
          · rw [← some.inj hactive]
            rfl
          · cases hactive
      simp only [getSceneDevStatus, hcompare, hc, hactive, hname, hdev, hproperty, hkey, hvalue,
        hequ, Json.valuestring?_string, sprintf_singleton, bind_eq_bind,
        bind_some]
      by_cases hlen : (cjsonToStr d.value).length < 8
      · rw [if_pos hlen, bind_some, pure_def, some.injEq]
        refine ⟨fun h => ⟨⟨⟨c, rfl, by rw [hactive]; rfl⟩, hlen⟩, h.symm⟩, fun h => h.2.symm⟩
      · rw [if_neg hlen, bind_none]
        exact iff_of_false (by simp) fun h => hlen h.1.2

theorem DevItem.Of.getSceneDevStatus_eq_none (hd : d.Of T params) (h : ¬ d.Fits) :
    getSceneDevStatus T params o = none := by
  cases hm : getSceneDevStatus T params o with
  | none => rfl
  | some m => exact absurd ((getSceneDevStatus_eq_some_iff hd).mp hm).1 h

end Device

end Honyar.Alink
