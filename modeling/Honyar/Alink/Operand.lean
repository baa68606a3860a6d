import Honyar.Alink.Rule

/-!
# Device items of scenes

What `getSceneDevStatus` (scene_add.c) is asked to write for a known property of a known device:
the operator of the gateway for that of the cloud, the local name the profile has for the
property, and the text of the value.  It looks the operator up with the size of its table in
bytes, and puts the value together in an array of eight.
-/

namespace Honyar.Alink

open CText Option List CloudLinkDev

variable {dev : CloudLinkDev} {p : Option Json}

/-- The operator of the gateway, equality where the cloud has none of the four. -/
def operator (compareType : CText) : CText :=
  if compareType = "==".toList then "Equ".toList
  else if compareType = ">".toList then "Gtr".toList
  else if compareType = "<".toList then "Lss".toList
  else if compareType = "!=".toList then "Not".toList
  else "Equ".toList

/-- The text of a value: a text itself, a number in decimal. -/
def operandText (v : Json) : CText :=
  match v.valuestring? with
  | some t => t
  | none => ofInt v.valueint

/-- The profile has the property. -/
def CloudLinkDev.Knows (dev : CloudLinkDev) (propertyName : CText) : Prop :=
  (∃ a ∈ dev.attr, a.cloudKey = propertyName) ∨ ∃ a ∈ dev.eventAttr, a.key = propertyName

/-- The profile pairs the property with a local name: as an attribute, and as an event where no
attribute has it. -/
def CloudLinkDev.Pairs (dev : CloudLinkDev) (propertyName hyKey : CText) : Prop :=
  (∃ a ∈ dev.attr, a.cloudKey = propertyName ∧ a.hyKey = hyKey) ∨
    (∀ a ∈ dev.attr, a.cloudKey ≠ propertyName) ∧
      ∃ a ∈ dev.eventAttr, a.key = propertyName ∧ a.hyKey = hyKey

/-- The values of the members with a name. -/
def Members.values (o : Members) (name : String) : List Json :=
  (o.filter (·.1 = name.toList)).map Prod.snd

/-- What is added for a device item. -/
structure Translates (rest : Members) (compareType deviceName hyKey : CText) (v : Json) :
    Prop where
  active : rest.values "Active" = [.string (operator compareType)]
  devId : rest.values "DevId" = [.string deviceName]
  key : rest.values "Key" = [.string hyKey]
  value : rest.values "Value" = [.string (operandText v)]

/-- The parameters name a known property of a known device, and have an operator and a value. -/
structure DeviceParams (T : Tables) (params : Option Json) where
  compareType : CText
  deviceName : CText
  propertyName : CText
  dev : CloudLinkDev
  value : Json
  compareType_eq : member params "compareType" = some (.string compareType)
  deviceName_eq : member params "deviceName" = some (.string deviceName)
  propertyName_eq : member params "propertyName" = some (.string propertyName)
  value_eq : propertyValue? params = some value
  dev_eq : T.cloudLinkListGetById deviceName = some dev
  knows : dev.Knows propertyName

variable {T : Tables} {params : Option Json}

theorem CloudLinkDev.Knows.hyKey {propertyName : CText} (h : dev.Knows propertyName) :
    ∃ hyKey, dev.hyKey? (some (.string propertyName)) = some (some hyKey) ∧
      dev.Pairs propertyName hyKey := by
  have hsome : ¬ (dev.attr.isEmpty && dev.eventAttr.isEmpty) = true := by
    rcases h with ⟨a, ha, -⟩ | ⟨a, ha, -⟩
    · simp [ne_nil_of_mem ha]
    · simp [ne_nil_of_mem ha]
  rw [hyKey?, if_neg hsome]
  simp only [bind_eq_bind, bind_some, Json.valuestring?_string]
  cases hattr : dev.attr.find? fun a => a.cloudKey == propertyName with
  | some a =>
    have hname : a.cloudKey = propertyName := by simpa using find?_some hattr
    exact ⟨a.hyKey, rfl, .inl ⟨a, mem_of_find?_eq_some hattr, hname, rfl⟩⟩
  | none =>
    have hnone : ∀ a ∈ dev.attr, a.cloudKey ≠ propertyName := by
      simpa using find?_eq_none.mp hattr
    obtain ⟨e, he, hkey⟩ := h.resolve_left fun ⟨a, ha, hname⟩ => hnone a ha hname
    cases hevent : dev.eventAttr.find? fun a => a.key == propertyName with
    | none => exact absurd hkey (by simpa using find?_eq_none.mp hevent e he)
    | some a =>
      have hname : a.key = propertyName := by simpa using find?_some hevent
      exact ⟨a.hyKey, rfl, .inr ⟨hnone, a, mem_of_find?_eq_some hevent, hname, rfl⟩⟩

theorem CloudLinkDev.hyKey?_of_not_knows {name : CText} (hp : p.bind Json.valuestring? = some name)
    (h : ¬ dev.Knows name) : dev.hyKey? p = some none := by
  rw [hyKey?]
  split
  · rfl
  · have hattr : dev.attr.find? (fun a => a.cloudKey == name) = none := by
      rw [find?_eq_none]
      rintro a ha hname
      exact h (.inl ⟨a, ha, by simpa using hname⟩)
    have hevent : dev.eventAttr.find? (fun a => a.key == name) = none := by
      rw [find?_eq_none]
      rintro a ha hname
      exact h (.inr ⟨a, ha, by simpa using hname⟩)
    obtain ⟨j, rfl, hj⟩ := bind_eq_some_iff.mp hp
    simp [hj, hattr, hevent]

theorem CloudLinkDev.Knows.hyKey_of_bind {name : CText} (hp : p.bind Json.valuestring? = some name)
    (h : dev.Knows name) : ∃ hyKey, dev.hyKey? p = some (some hyKey) := by
  obtain ⟨hyKey, hkey, -⟩ := h.hyKey
  obtain ⟨j, rfl, hj⟩ := bind_eq_some_iff.mp hp
  refine ⟨hyKey, ?_⟩
  rw [← hkey, hyKey?, hyKey?]
  simp [hj]

theorem CloudLinkDev.hyKey?_of_empty (p : Option Json) (hattr : dev.attr = [])
    (hevent : dev.eventAttr = []) : dev.hyKey? p = some none := by
  simp [hyKey?, hattr, hevent]

theorem CloudLinkDev.hyKey?_of_no_name (hp : p.bind Json.valuestring? = none)
    (h : dev.attr ≠ [] ∨ dev.eventAttr ≠ []) : dev.hyKey? p = none := by
  rw [hyKey?, if_neg (by simpa [or_iff_not_imp_left] using h)]
  cases p with
  | none => rfl
  | some j =>
    have hj : j.valuestring? = none := hp
    simp [hj]

theorem DeviceParams.of (P : DeviceParams T params) :
    ∃ d : DevItem, d.Of T params ∧ d.deviceName = P.deviceName ∧
      d.compareType = some (.string P.compareType) ∧ d.value = P.value ∧
      P.dev.Pairs P.propertyName d.hyKey := by
  obtain ⟨hyKey, hkey, hpairs⟩ := P.knows.hyKey
  refine ⟨⟨P.deviceName, hyKey, some (.string P.compareType), P.value⟩, ⟨P.deviceName_eq, ?_,
    P.compareType_eq, P.value_eq⟩, rfl, rfl, rfl, hpairs⟩
  exact ⟨P.dev, P.propertyName, P.dev_eq, P.propertyName_eq, hkey⟩

theorem DevItem.active_eq {d : DevItem} {compareType : CText}
    (h : d.compareType = some (.string compareType)) (hmem : compareType ∈ cloudActive) :
    d.active = operator compareType := by
  rw [DevItem.active, h]
  simp only [cloudActive, mem_cons, not_mem_nil, or_false] at hmem
  rcases hmem with rfl | rfl | rfl | rfl <;> rfl

theorem devMembers_append (T : Tables) (o o' : Members) (deviceName hyKey value : CText) :
    devMembers T (o ++ o') deviceName hyKey value =
      o ++ devMembers T o' deviceName hyKey value := by
  unfold devMembers
  cases triggerType? T deviceName hyKey <;>
    simp only [Members.addString, Members.addString?, append_assoc]

theorem translates_devMembers (T : Tables) (compareType deviceName hyKey : CText) (v : Json) :
    Translates (devMembers T (Members.addString [] "Active" (operator compareType)) deviceName
      hyKey (operandText v)) compareType deviceName hyKey v := by
  unfold devMembers
  cases triggerType? T deviceName hyKey <;> exact ⟨rfl, rfl, rfl, rfl⟩

/-- A device item is written out as it should be, within its tables and its array, exactly when
its operator is one of the four and its value has at most seven characters. -/
theorem getSceneDevStatus_translates_iff (P : DeviceParams T params) (arrayItem : Members) :
    (∃ rest hyKey, getSceneDevStatus T params arrayItem = some (arrayItem ++ rest) ∧
        P.dev.Pairs P.propertyName hyKey ∧
        Translates rest P.compareType P.deviceName hyKey P.value) ↔
      P.compareType ∈ cloudActive ∧ (operandText P.value).length < 8 := by
  obtain ⟨d, hd, hname, hcompare, hvalue, hpairs⟩ := P.of
  have hfits : d.Fits ↔ P.compareType ∈ cloudActive ∧ (operandText P.value).length < 8 := by
    constructor
    · rintro ⟨⟨c, hc, hmem⟩, hlen⟩
      obtain rfl := some.inj (hcompare.symm.trans hc)
      exact ⟨hmem _ rfl, hvalue ▸ hlen⟩
    · rintro ⟨hmem, hlen⟩
      refine ⟨⟨_, hcompare, ?_⟩, hvalue ▸ hlen⟩
      rintro op hop
      exact some.inj hop ▸ hmem
  rw [← hfits]
  constructor
  · rintro ⟨rest, hyKey, hsome, -⟩
    exact ((getSceneDevStatus_eq_some_iff hd).mp hsome).1
  · intro h
    refine ⟨_, d.hyKey, (getSceneDevStatus_eq_some_iff hd).mpr ⟨h, ?_⟩, hpairs,
      translates_devMembers T P.compareType P.deviceName d.hyKey P.value⟩
    rw [DevItem.active_eq hcompare (hfits.mp h).1, hname, hvalue, ← devMembers_append]
    rfl

/-! ### A lamp -/

namespace Sample

/-- A device with one switch. -/
def lamp : CloudLinkDev := ⟨[⟨"Switch".toList, "PowerSwitch".toList⟩], []⟩

def lampTables : Tables where
  cloudLinkListGetById id := if id = "lamp".toList then some lamp else none
  hylinkListGetById _ := none
  table0Select _ := []
  printUnformatted _ := []

/-- Parameters for it. -/
def lampParams (compareType : CText) (v : Json) : Json :=
  .object
    [("deviceName".toList, .string "lamp".toList),
      ("propertyName".toList, .string "PowerSwitch".toList),
      ("compareType".toList, .string compareType), ("propertyValue".toList, v)]

def lampDeviceParams (compareType : CText) (v : Json) :
    DeviceParams lampTables (some (lampParams compareType v)) where
  compareType := compareType
  deviceName := "lamp".toList
  propertyName := "PowerSwitch".toList
  dev := lamp
  value := v
  compareType_eq := rfl
  deviceName_eq := rfl
  propertyName_eq := rfl
  value_eq := rfl
  dev_eq := rfl
  knows := .inl ⟨_, mem_cons_self, rfl⟩

end Sample

theorem getSceneDevStatus_translates_lamp :
    (∃ rest hyKey, getSceneDevStatus Sample.lampTables
        (some (Sample.lampParams ">".toList (.number ['3'] 3))) [] = some ([] ++ rest) ∧
        Sample.lamp.Pairs "PowerSwitch".toList hyKey ∧
        Translates rest ">".toList "lamp".toList hyKey (.number ['3'] 3)) ↔
      ">".toList ∈ cloudActive ∧ (operandText (.number ['3'] 3)).length < 8 :=
  getSceneDevStatus_translates_iff (Sample.lampDeviceParams ">".toList (.number ['3'] 3)) []

/-- A value of eight characters. -/
theorem getSceneDevStatus_not_translates :
    ¬ ∀ (T : Tables) (params : Option Json) (P : DeviceParams T params) (arrayItem : Members),
      ∃ rest hyKey, getSceneDevStatus T params arrayItem = some (arrayItem ++ rest) ∧
        P.dev.Pairs P.propertyName hyKey ∧
        Translates rest P.compareType P.deviceName hyKey P.value := by
  intro h
  obtain ⟨rest, hyKey, hsome, -⟩ := h _ _
    (Sample.lampDeviceParams "==".toList (.string "12345678".toList)) []
  have hnone : getSceneDevStatus Sample.lampTables
      (some (Sample.lampParams "==".toList (.string "12345678".toList))) [] = none := rfl
  rw [hnone] at hsome
  cases hsome

end Honyar.Alink
