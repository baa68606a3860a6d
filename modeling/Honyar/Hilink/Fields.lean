import Honyar.Hilink.Partial
import Honyar.Lib.Latest

/-!
# Keys and fields

`local_attribute_update` finds a key in the table of the model and writes the field its `switch` has
for the position.  Here the fields are taken by their names, and the table and the `switch` are
compared: they agree, but for the modules with two and three switches, whose tables have a key
`Switch_All` that the `switch` does not have.
-/

namespace Honyar.Hilink

open Libhylink (charVal)
open Faults Option List Except

/-! ## Fields by name -/

/-- A member of one of the structures of fields. -/
inductive Field where
  | switch (i : Fin 3)
  | ledEnable
  | powerOffProtection
  | keyMode
  | colorTemperature
  | luminance
  | contactAlarm
  | batteryPercentage
  | lowBatteryAlarm
  | tamperAlarm
  | initContactAlarm
  | doorEvent
  | keyFobValue
  | sceName (i : Fin 12)
  | scePhoto (i : Fin 12)
  | enable (i : Fin 3)
  | currentTemperature
  | targetTemperature (i : Fin 2)
  | workMode
  | windSpeed (i : Fin 2)
deriving DecidableEq, Repr

variable {f : Field} {n : Nat} {l : List (CText × CText)} {s : Private × Option Nat}

/-- What stands in a field. -/
inductive Content where
  | byte (c : BitVec 8)
  | int (n : BitVec 32)
  | text (t : CText)
deriving DecidableEq, Repr

/-- What a value is in a field. -/
def Field.content (f : Field) (value : CText) : Content :=
  match f with
  | .colorTemperature => .int (.ofInt 32 (CText.atoi value))
  | .sceName _ => .text value
  | _ => .byte (.ofInt 8 (CText.atoi value))

def DevSwitch.field {n : Nat} (dev : DevSwitch n) : Field → Option Content
  | .switch i => if h : i.val < n then some (.byte (dev.Switch ⟨i, h⟩)) else none
  | .ledEnable => some (.byte dev.LedEnable)
  | .powerOffProtection => some (.byte dev.PowerOffProtection)
  | _ => none

def DevModule.field {n : Nat} (dev : DevModule n) : Field → Option Content
  | .keyMode => some (.byte dev.KeyMode)
  | f => dev.toDevSwitch.field f

def Dev09223f.field (dev : Dev09223f) : Field → Option Content
  | .colorTemperature => some (.int dev.ColorTemperature)
  | .luminance => some (.byte dev.Luminance)
  | .switch 0 => some (.byte dev.Switch)
  | _ => none

def DevHY0093.field (dev : DevHY0093) : Field → Option Content
  | .contactAlarm => some (.byte dev.ContactAlarm)
  | .batteryPercentage => some (.byte dev.BatteryPercentage)
  | .lowBatteryAlarm => some (.byte dev.LowBatteryAlarm)
  | .tamperAlarm => some (.byte dev.TamperAlarm)
  | .initContactAlarm => some (.byte dev.init_ContactAlarm)
  | .doorEvent => some (.byte dev.door_event)
  | _ => none

def DevHY0134.field (dev : DevHY0134) : Field → Option Content
  | .keyFobValue => some (.byte dev.KeyFobValue)
  | .sceName i => some (.text (dev.SceName i))
  | .scePhoto i => some (.byte (dev.ScePhoto i))
  | .enable i => some (.byte (dev.Enable i))
  | .switch i => some (.byte (dev.Switch i))
  | .currentTemperature => some (.byte dev.CurrentTemperature)
  | .targetTemperature i => some (.byte (dev.TargetTemperature i))
  | .workMode => some (.byte dev.WorkMode)
  | .windSpeed i => some (.byte (dev.WindSpeed i))
  | _ => none

/-- What stands in a field of a device, if the device has the field. -/
def Private.field (p : Private) (f : Field) : Option Content :=
  match p with
  | .hy0095 dev => dev.field f
  | .hy0096 dev => dev.field f
  | .hy0097 dev => dev.field f
  | .d09223f dev => dev.field f
  | .hy0121 dev => dev.field f
  | .hy0122 dev => dev.field f
  | .hy0107 dev => dev.field f
  | .hy0093 dev => dev.field f
  | .hy0134 dev => dev.field f

/-! ## Keys by name -/

section

-- numerals for the switches, and for the two wind speeds and targets
local instance neZero_three : NeZero 3 := ⟨by decide⟩
local instance neZero_two : NeZero 2 := ⟨by decide⟩

/-- What a key of a table is about. -/
inductive Slot where
  | one (f : Field)
  /-- A name, with its number behind the key. -/
  | name
  /-- A photo, with its number behind the key. -/
  | photo
  | nothing
deriving DecidableEq, Repr

/-- The number behind the first `num_pos` characters of a key, less one. -/
def numberIn (num_pos : Nat) (key : CText) : Option (Fin 12) :=
  let pos := CText.atoi (key.drop num_pos) - 1
  if 0 ≤ pos then if h : pos.toNat < 12 then some ⟨pos.toNat, h⟩ else none else none

/-- The field a key is about, if it is one. -/
def Slot.field (key : CText) : Slot → Option Field
  | .one f => some f
  | .name => (numberIn "SceName_".toList.length key).map .sceName
  | .photo => (numberIn "ScePhoto_".toList.length key).map .scePhoto
  | .nothing => none

/-- The keys of the tables, by their names.  No field belongs to `Switch_All`. -/
def slots : List (CText × Slot) :=
  [("Switch", .one (.switch 0)), ("Switch_1", .one (.switch 0)), ("Switch_2", .one (.switch 1)),
    ("Switch_3", .one (.switch 2)), ("LedEnable", .one .ledEnable),
    ("PowerOffProtection", .one .powerOffProtection), ("KeyMode", .one .keyMode),
    ("ColorTemperature", .one .colorTemperature), ("Luminance", .one .luminance),
    ("ContactAlarm", .one .contactAlarm), ("BatteryPercentage", .one .batteryPercentage),
    ("LowBatteryAlarm", .one .lowBatteryAlarm), ("TamperAlarm", .one .tamperAlarm),
    ("CurrentTemperature_1", .one .currentTemperature), ("WindSpeed_1", .one (.windSpeed 0)),
    ("WindSpeed_2", .one (.windSpeed 1)), ("TargetTemperature_1", .one (.targetTemperature 0)),
    ("TargetTemperature_3", .one (.targetTemperature 1)), ("WorkMode_1", .one .workMode),
    ("Enable_1", .one (.enable 0)), ("Enable_2", .one (.enable 1)), ("Enable_3", .one (.enable 2)),
    ("KeyFobValue", .one .keyFobValue), ("SceName_", .name), ("ScePhoto_", .photo)].map
      fun e => (e.1.toList, e.2)

def slotOf (name : CText) : Slot := ((slots.find? (·.1 = name)).map Prod.snd).getD .nothing

/-- The field that an element of a report is about: that of the key of the table it is found
under. -/
def fieldOf (m : Nat) (key : CText) : Option Field :=
  ((indexSub m key).bind ((localAttr m)[·]?)).bind fun name => (slotOf name).field key

/-! ## Positions -/

/-- What the `switch` has for a position, in a structure of `n` switches. -/
def switchTarget (n k : Nat) : Slot :=
  if h : k < 3 ∧ k < n then .one (.switch ⟨k, h.1⟩)
  else if k = n then .one .ledEnable
  else if k = n + 1 then .one .powerOffProtection
  else .nothing

def moduleTarget (n k : Nat) : Slot := if k = n + 2 then .one .keyMode else switchTarget n k

/-- What the `switch` of a model has for a position. -/
def target : Nat → Nat → Slot
  | 0, k => switchTarget 1 k
  | 1, k => switchTarget 2 k
  | 2, k => switchTarget 3 k
  | 3, 0 => .one .colorTemperature
  | 3, 1 => .one .luminance
  | 3, 2 => .one (.switch 0)
  | 4, k => moduleTarget 1 k
  | 5, k => moduleTarget 2 k
  | 6, k => moduleTarget 3 k
  | 7, 0 => .one .contactAlarm
  | 7, 1 => .one .batteryPercentage
  | 7, 2 => .one .lowBatteryAlarm
  | 7, 3 => .one .tamperAlarm
  | 8, 0 => .one .currentTemperature
  | 8, 1 => .one (.switch 0)
  | 8, 2 => .one (.switch 1)
  | 8, 3 => .one (.switch 2)
  | 8, 4 => .one (.windSpeed 0)
  | 8, 5 => .one (.windSpeed 1)
  | 8, 6 => .one (.targetTemperature 0)
  | 8, 7 => .one (.targetTemperature 1)
  | 8, 8 => .one .workMode
  | 8, 9 => .one (.enable 0)
  | 8, 10 => .one (.enable 1)
  | 8, 11 => .one (.enable 2)
  | 8, 12 => .one .keyFobValue
  | 8, 13 => .name
  | 8, 14 => .photo
  | _, _ => .nothing

end

/-- The positions from which on the tables of the modules with two and three switches are shifted
against the `switch`. -/
def Shifted (m k : Nat) : Prop := m = 5 ∧ 3 ≤ k ∨ m = 6 ∧ 4 ≤ k

instance (m k : Nat) : Decidable (Shifted m k) := inferInstanceAs (Decidable (_ ∨ _))

theorem slotOf_eq_target {m k : Nat} (hm : m ≤ 8) {name : CText}
    (hname : (localAttr m)[k]? = some name) (hk : ¬ Shifted m k) : slotOf name = target m k := by
  have hall : ∀ m ≤ 8, ∀ k < (localAttr m).length, ¬ Shifted m k →
      slotOf ((localAttr m)[k]?.getD []) = target m k := by decide
  obtain ⟨hlt, -⟩ := List.getElem?_eq_some_iff.mp hname
  have h := hall m hm k hlt hk
  rwa [hname] at h

theorem field_of_shifted {m k : Nat} {name : CText} (hname : (localAttr m)[k]? = some name)
    (hk : Shifted m k) (hf : f ≠ .powerOffProtection ∧ f ≠ .keyMode) (key : CText) :
    (slotOf name).field key ≠ some f ∧ (target m k).field key ≠ some f := by
  have hall : ∀ m ≤ 6, ∀ k < (localAttr m).length, Shifted m k →
      slotOf ((localAttr m)[k]?.getD []) ∈
        [Slot.nothing, .one .powerOffProtection, .one .keyMode] ∧
      target m k ∈ [Slot.nothing, .one .powerOffProtection, .one .keyMode] := by decide
  have hm : m ≤ 6 := by
    rcases hk with ⟨rfl, -⟩ | ⟨rfl, -⟩ <;> decide
  obtain ⟨hlt, -⟩ := List.getElem?_eq_some_iff.mp hname
  obtain ⟨hslot, htarget⟩ := hall m hm k hlt hk
  rw [hname] at hslot
  have hother {t : Slot} (ht : t ∈ [Slot.nothing, .one .powerOffProtection, .one .keyMode]) :
      t.field key ≠ some f := by
    intro hfield
    simp only [mem_cons, not_mem_nil, or_false] at ht
    rcases ht with rfl | rfl | rfl
    · cases hfield
    · exact hf.1 (some.inj hfield).symm
    · exact hf.2 (some.inj hfield).symm
  exact ⟨hother hslot, hother htarget⟩

/-! ## Writing a field -/

/-- A field of one byte. -/
def Field.IsByte (f : Field) : Prop :=
  ∀ value, f.content value = .byte (.ofInt 8 (CText.atoi value))

/-- The position is that of a field of one byte, and writing there changes this field only; or it
is that of none. -/
def Routes {δ : Type} (field : δ → Field → Option Content) (dev : δ)
    (out : Option (BitVec 8 × (BitVec 8 → δ))) (t : Slot) : Prop :=
  match out with
  | none => t = .nothing
  | some (_, write) => ∃ g : Field, t = .one g ∧ g.IsByte ∧
      ∀ b f, field (write b) f = if g = f then some (.byte b) else field dev f

theorem Routes.map {δ : Type} {field : δ → Field → Option Content} {dev : δ}
    {out : Option (BitVec 8 × (BitVec 8 → δ))} {t : Slot} (h : Routes field dev out t)
    {make : δ → Private} (hmake : ∀ dev f, (make dev).field f = field dev f) :
    Routes Private.field (make dev) (out.map fun (c, write) => (c, make ∘ write)) t := by
  cases out with
  | none => exact h
  | some w =>
    obtain ⟨g, ht, hg, hwrite⟩ := h
    refine ⟨g, ht, hg, fun b f => ?_⟩
    rw [hmake]
    exact (hmake _ f).trans (hwrite b f)

theorem DevSwitch.routes (hn : n ≤ 3) (dev : DevSwitch n) (k : Nat) :
    Routes DevSwitch.field dev (dev.out k) (switchTarget n k) := by
  unfold DevSwitch.out switchTarget
  by_cases hk : k < n
  · rw [dif_pos hk, dif_pos ⟨by omega, hk⟩]
    refine ⟨_, rfl, fun _ => rfl, fun b f => ?_⟩
    cases f with
    | switch i =>
      by_cases hi : i.val = k
      · subst hi
        rw [if_pos rfl, DevSwitch.field, dif_pos hk]
        exact congrArg (some ∘ Content.byte) (Function.update_self ..)
      · rw [if_neg fun h => hi (congrArg Fin.val (Field.switch.inj h)).symm, DevSwitch.field,
          DevSwitch.field]
        split
        next hlt =>
          refine congrArg (some ∘ Content.byte) (Function.update_of_ne (fun h => hi ?_) ..)
          exact congrArg Fin.val h
        next => rfl
    | _ => rfl
  · rw [dif_neg hk, dif_neg fun h => hk h.2]
    by_cases hn' : k = n
    · rw [if_pos hn', if_pos hn']
      refine ⟨_, rfl, fun _ => rfl, fun b f => ?_⟩
      cases f <;> rfl
    · rw [if_neg hn', if_neg hn']
      by_cases hn'' : k = n + 1
      · rw [if_pos hn'', if_pos hn'']
        refine ⟨_, rfl, fun _ => rfl, fun b f => ?_⟩
        cases f <;> rfl
      · rw [if_neg hn'', if_neg hn'']
        rfl

theorem DevModule.field_of_ne (dev : DevModule n) (hf : f ≠ .keyMode) :
    dev.field f = dev.toDevSwitch.field f := by
  cases f with
  | keyMode => exact absurd rfl hf
  | _ => rfl

theorem Routes.module {dev : DevModule n} {out : Option (BitVec 8 × (BitVec 8 → DevSwitch n))}
    {t : Slot} (h : Routes DevSwitch.field dev.toDevSwitch out t) :
    Routes DevModule.field dev
      (out.map fun (c, write) => (c, fun c => { dev with toDevSwitch := write c })) t := by
  cases out with
  | none => exact h
  | some w =>
    obtain ⟨g, ht, hg, hwrite⟩ := h
    refine ⟨g, ht, hg, fun b f => ?_⟩
    by_cases hf : f = .keyMode
    · -- the switches have no such field
      have hne : g ≠ .keyMode := by
        rintro rfl
        cases (hwrite b .keyMode).trans (if_pos rfl)
      rw [hf, if_neg hne]
      rfl
    · rw [DevModule.field_of_ne _ hf, DevModule.field_of_ne _ hf]
      exact hwrite b f

theorem DevModule.routes (hn : n ≤ 3) (dev : DevModule n) (k : Nat) :
    Routes DevModule.field dev (dev.out k) (moduleTarget n k) := by
  unfold DevModule.out moduleTarget
  by_cases hk : k = n + 2
  · rw [if_pos hk, if_pos hk]
    refine ⟨_, rfl, fun _ => rfl, fun b f => ?_⟩
    cases f <;> rfl
  · rw [if_neg hk, if_neg hk]
    exact (dev.toDevSwitch.routes hn k).module

theorem Dev09223f.routes (dev : Dev09223f) {k : Nat} (hk : k ≠ 0) :
    Routes Dev09223f.field dev (dev.out k) (target 3 k) := by
  match k with
  | 0 => exact absurd rfl hk
  | 1 | 2 =>
    refine ⟨_, rfl, fun _ => rfl, fun b f => ?_⟩
    cases f with
    | switch i =>
      match i with
      | 0 | 1 | 2 => rfl
    | _ => rfl
  | _ + 3 => rfl

theorem DevHY0093.routes (dev : DevHY0093) (k : Nat) :
    Routes DevHY0093.field dev (dev.out k) (target 7 k) := by
  match k with
  | 0 | 1 | 2 | 3 =>
    refine ⟨_, rfl, fun _ => rfl, fun b f => ?_⟩
    cases f <;> rfl
  | _ + 4 => rfl

theorem field_update {a : Fin n → BitVec 8} {make : Fin n → Field} (hmake : Function.Injective make)
    (i j : Fin n) (b : BitVec 8) :
    some (Content.byte (Function.update a i b j)) =
      if make i = make j then some (.byte b) else some (.byte (a j)) := by
  by_cases hij : j = i
  · rw [hij, if_pos rfl, Function.update_self]
  · rw [if_neg fun h => hij (hmake h).symm, Function.update_of_ne hij]

theorem DevHY0134.routes (dev : DevHY0134) {k : Nat} (hk : k ≠ 13 ∧ k ≠ 14) :
    Routes DevHY0134.field dev (dev.out k) (target 8 k) := by
  match k with
  | 0 | 8 | 12 =>
    refine ⟨_, rfl, fun _ => rfl, fun b f => ?_⟩
    cases f <;> rfl
  | 1 | 2 | 3 =>
    refine ⟨_, rfl, fun _ => rfl, fun b f => ?_⟩
    cases f with
    | switch i => exact field_update (fun _ _ => Field.switch.inj) _ i b
    | _ => rfl
  | 4 | 5 =>
    refine ⟨_, rfl, fun _ => rfl, fun b f => ?_⟩
    cases f with
    | windSpeed i => exact field_update (fun _ _ => Field.windSpeed.inj) _ i b
    | _ => rfl
  | 6 | 7 =>
    refine ⟨_, rfl, fun _ => rfl, fun b f => ?_⟩
    cases f with
    | targetTemperature i => exact field_update (fun _ _ => Field.targetTemperature.inj) _ i b
    | _ => rfl
  | 9 | 10 | 11 =>
    refine ⟨_, rfl, fun _ => rfl, fun b f => ?_⟩
    cases f with
    | enable i => exact field_update (fun _ _ => Field.enable.inj) _ i b
    | _ => rfl
  | 13 => exact absurd rfl hk.1
  | 14 => exact absurd rfl hk.2
  | _ + 15 => rfl

variable {m k : Nat} {p p' : Private} {key value : CText}

/-- The positions whose fields are written on their own. -/
def Alone (m k : Nat) : Prop := m = 3 ∧ k = 0 ∨ m = 8 ∧ (k = 13 ∨ k = 14)

theorem Private.routes (hm : m ≤ 8) (hp : p.IsOf m) (hk : ¬ Alone m k) :
    Routes Private.field p (p.out k) (target m k) := by
  cases p with
  | hy0095 dev | hy0096 dev | hy0097 dev =>
    obtain rfl := hp
    exact (dev.routes (by decide) k).map fun _ _ => rfl
  | d09223f dev =>
    obtain rfl := hp
    exact (dev.routes fun h => hk (.inl ⟨rfl, h⟩)).map fun _ _ => rfl
  | hy0121 dev | hy0122 dev | hy0107 dev =>
    obtain rfl := hp
    exact (dev.routes (by decide) k).map fun _ _ => rfl
  | hy0093 dev =>
    obtain rfl := hp
    exact (dev.routes k).map fun _ _ => rfl
  | hy0134 dev =>
    obtain rfl : m = 8 := Nat.le_antisymm hm hp.1
    exact (dev.routes (not_or.mp fun h => hk (.inr ⟨rfl, h⟩))).map fun _ _ => rfl

theorem set_of_not_alone (hm : m ≤ 8) (hp : p.IsOf m) (hk : ¬ Alone m k) (array_sub : Json) :
    p.set k key array_sub = match p.out k with
      | none => .ok p
      | some (c, write) => do return write (← charCopyFromJson array_sub strValue c) := by
  unfold Private.set
  split
  next => exact absurd (.inl ⟨hp, rfl⟩) hk
  next => exact absurd (.inr ⟨Nat.le_antisymm hm hp.1, .inl rfl⟩) hk
  next => exact absurd (.inr ⟨Nat.le_antisymm hm hp.1, .inr rfl⟩) hk
  next => rfl

theorem posOf_eq_numberIn {num_pos : Nat} (h : num_pos ≤ key.length) :
    posOf num_pos key = .ok (numberIn num_pos key) := by
  unfold posOf numberIn
  rw [if_neg (Nat.not_lt.mpr h)]
  dsimp only
  by_cases hpos : 0 ≤ CText.atoi (key.drop num_pos) - 1
  · rw [if_pos hpos]
    by_cases hlt : CText.atoi (key.drop num_pos) - 1 < 12
    · rw [dif_pos ⟨hpos, hlt⟩, dif_pos (by omega)]
      rfl
    · rw [dif_neg fun h => hlt h.2, dif_neg (by omega)]
      rfl
  · rw [if_neg hpos, dif_neg fun h => hpos h.1]
    rfl

theorem set_colorTemperature (dev : Dev09223f) (key value : CText) :
    ∃ p', (Private.d09223f dev).set 0 key (element key value) = .ok p' ∧
      ∀ f, p'.field f = if (target 3 0).field key = some f then some (f.content value)
        else dev.field f := by
  refine ⟨.d09223f { dev with ColorTemperature := .ofInt 32 (CText.atoi value) }, rfl, fun f => ?_⟩
  cases f with
  | switch i =>
    match i with
    | 0 | 1 | 2 => rfl
  | _ => rfl

theorem set_sceName (dev : DevHY0134) (hkey : "SceName_".toList.length ≤ key.length)
    (hvalue : ∀ i, (target 8 13).field key = some (.sceName i) → value.length < 18) :
    ∃ p', (Private.hy0134 dev).set 13 key (element key value) = .ok p' ∧
      ∀ f, p'.field f = if (target 8 13).field key = some f then some (f.content value)
        else dev.field f := by
  have htarget : (target 8 13).field key = (numberIn "SceName_".toList.length key).map .sceName :=
    rfl
  rw [htarget] at hvalue
  rw [htarget, Private.set, posOf_eq_numberIn hkey, ok_bind]
  cases hnumber : numberIn "SceName_".toList.length key with
  | none => exact ⟨.hy0134 dev, rfl, fun f => rfl⟩
  | some i =>
    have hcopy : strCopyFromJson 18 (element key value) strValue (dev.SceName i) = .ok value :=
      if_pos (hvalue i (by rw [hnumber]; rfl))
    refine ⟨.hy0134 (setName dev i value), ?_, fun f => ?_⟩
    · dsimp only
      rw [hcopy]
      rfl
    · cases f with
      | sceName j =>
        by_cases hij : j = i
        · subst hij
          rw [map_some, if_pos rfl]
          exact congrArg (some ∘ Content.text) (Function.update_self ..)
        · rw [map_some, if_neg (by simpa using Ne.symm hij)]
          exact congrArg (some ∘ Content.text) (Function.update_of_ne hij ..)
      | _ => rfl

theorem set_scePhoto (dev : DevHY0134) (hkey : "ScePhoto_".toList.length ≤ key.length) :
    ∃ p', (Private.hy0134 dev).set 14 key (element key value) = .ok p' ∧
      ∀ f, p'.field f = if (target 8 14).field key = some f then some (f.content value)
        else dev.field f := by
  have htarget : (target 8 14).field key = (numberIn "ScePhoto_".toList.length key).map .scePhoto :=
    rfl
  rw [htarget, Private.set, posOf_eq_numberIn hkey, ok_bind]
  cases numberIn "ScePhoto_".toList.length key with
  | none => exact ⟨.hy0134 dev, rfl, fun f => rfl⟩
  | some i =>
    refine ⟨_, rfl, fun f => ?_⟩
    cases f with
    | scePhoto j =>
      refine (field_update (fun _ _ => Field.scePhoto.inj) i j _).trans ?_
      simp only [map_some, some_inj]
      rfl
    | _ => rfl

/-- An element writes the field its position is about, and no other. -/
theorem set_field (hm : m ≤ 8) (hp : p.IsOf m)
    (hname : m = 8 → k = 13 → "SceName_".toList.length ≤ key.length)
    (hvalue : ∀ i, (target m k).field key = some (.sceName i) → value.length < 18)
    (hphoto : m = 8 → k = 14 → "ScePhoto_".toList.length ≤ key.length) :
    ∃ p', p.set k key (element key value) = .ok p' ∧
      ∀ f, p'.field f = if (target m k).field key = some f then some (f.content value)
        else p.field f := by
  by_cases hk : Alone m k
  · rcases hk with ⟨rfl, rfl⟩ | ⟨rfl, rfl | rfl⟩
    · cases p with
      | d09223f dev => exact set_colorTemperature dev key value
      | hy0134 dev => exact absurd hp.1 (by decide)
      | _ => cases hp
    · obtain ⟨dev, rfl⟩ := eq_hy0134 le_rfl hp
      exact set_sceName dev (hname rfl rfl) hvalue
    · obtain ⟨dev, rfl⟩ := eq_hy0134 le_rfl hp
      exact set_scePhoto dev (hphoto rfl rfl)
  · have hroutes := Private.routes hm hp hk
    rw [set_of_not_alone hm hp hk]
    cases hout : p.out k with
    | none =>
      rw [hout] at hroutes
      have ht : target m k = .nothing := hroutes
      refine ⟨p, rfl, fun f => ?_⟩
      rw [ht]
      rfl
    | some w =>
      rw [hout] at hroutes
      obtain ⟨g, ht, hg, hwrite⟩ := hroutes
      refine ⟨_, rfl, fun f => ?_⟩
      rw [ht]
      refine (hwrite _ f).trans ?_
      by_cases hf : g = f
      · subst hf
        rw [if_pos rfl, hg]
        exact (if_pos rfl).symm
      · rw [if_neg hf]
        exact (if_neg fun h => hf (some.inj h)).symm

/-! ## Elements -/

theorem indexSub_some (h : indexSub m key = some k) : ∃ name, (localAttr m)[k]? = some name ∧
    (key = name ∨ m = 8 ∧ name.take 8 = key.take 8) := by
  unfold indexSub at h
  split at h
  next i hi =>
    obtain rfl := some.inj h
    obtain ⟨hlt, hkey, -⟩ := findIdx?_eq_some_iff_getElem.mp hi
    exact ⟨_, getElem?_eq_getElem hlt, .inl (of_decide_eq_true hkey).symm⟩
  next =>
    split at h
    next hm =>
      obtain ⟨hlt, hkey, -⟩ := findIdx?_eq_some_iff_getElem.mp h
      refine ⟨_, getElem?_eq_getElem hlt, .inr ⟨hm, ?_⟩⟩
      simpa [CText.strncmpEq] using hkey
    next => cases h

/-- An element that does not run over the array of a name or the end of its key. -/
structure ElementFits (m : Nat) (e : CText × CText) : Prop where
  name : ∀ i, fieldOf m e.1 = some (.sceName i) → e.2.length < 18
  photo : m = 8 → e.1 ≠ "ScePhoto".toList

/-- The keys of the shifted positions. -/
def shiftedKeys : List CText := ["Switch_All", "PowerOffProtection", "KeyMode"].map String.toList

/-- What the table and the `switch` of the modules with two and three switches are at odds over. -/
def AtOdds (m : Nat) (key : CText) (f : Field) : Prop :=
  (m = 5 ∨ m = 6) ∧ key ∈ shiftedKeys ∧ (f = .powerOffProtection ∨ f = .keyMode)

theorem fieldOf_eq_iff (hm : m ≤ 8) (h : indexSub m key = some k) (hf : ¬ AtOdds m key f) :
    fieldOf m key = some f ↔ (target m k).field key = some f := by
  obtain ⟨name, hname, hkey⟩ := indexSub_some h
  have hfield : fieldOf m key = (slotOf name).field key := by
    rw [fieldOf, h, bind_some, hname, bind_some]
  rw [hfield]
  by_cases hk : Shifted m k
  · have hkeys : ∀ m ≤ 6, ∀ k < (localAttr m).length, Shifted m k →
        (localAttr m)[k]?.getD [] ∈ shiftedKeys := by decide
    have hmodule : m = 5 ∨ m = 6 := hk.imp And.left And.left
    have hmem := hkeys m (by omega) k (List.getElem?_eq_some_iff.mp hname).1 hk
    rw [hname, getD_some] at hmem
    obtain rfl : key = name := hkey.resolve_right fun h => by omega
    have hother : f ≠ .powerOffProtection ∧ f ≠ .keyMode := by
      rw [← not_or]
      exact fun hor => hf ⟨hmodule, hmem, hor⟩
    obtain ⟨hslot, htarget⟩ := field_of_shifted hname hk hother key
    exact iff_of_false hslot htarget
  · rw [slotOf_eq_target hm hname hk]

theorem length_key (h : indexSub 8 key = some k) :
    (k = 13 → "SceName_".toList.length ≤ key.length) ∧
      (k = 14 → key ≠ "ScePhoto".toList → "ScePhoto_".toList.length ≤ key.length) := by
  obtain ⟨name, hname, hkey⟩ := indexSub_some h
  have hlength (hn : (name.take 8).length = 8) (hsame : name.take 8 = key.take 8) :
      8 ≤ key.length := by
    rw [hsame, length_take] at hn
    omega
  constructor
  · rintro rfl
    obtain rfl : "SceName_".toList = name := some.inj hname
    rcases hkey with rfl | ⟨-, hsame⟩
    · exact le_rfl
    · exact hlength rfl hsame
  · rintro rfl hne
    obtain rfl : "ScePhoto_".toList = name := some.inj hname
    rcases hkey with rfl | ⟨-, hsame⟩
    · exact le_rfl
    · have hge := hlength rfl hsame
      have height : key.length ≠ 8 := fun heq => hne <| by
        rw [← take_of_length_le heq.le, ← hsame]
        rfl
      exact Nat.succ_le_of_lt (by omega : 8 < key.length)

theorem updateAttr_element_none (hsub : indexSub m key = none) (index_sub : Option Nat)
    (value : CText) : updateAttr m (p, index_sub) (element key value) = .ok (p, none) := by
  have hmember : member (element key value) strKey = .ok (.string key) := rfl
  have hkey : valuestring (.string key) = .ok key := rfl
  simp only [updateAttr, hmember, hkey, Faults.ok_bind, hsub]
  rfl

theorem updateAttr_element_some {k : Nat} (hsub : indexSub m key = some k)
    (index_sub : Option Nat) (value : CText) :
    updateAttr m (p, index_sub) (element key value) =
      (do return (← p.set k key (element key value), some k)) := by
  have hmember : member (element key value) strKey = .ok (.string key) := rfl
  have hkey : valuestring (.string key) = .ok key := rfl
  simp only [updateAttr, hmember, hkey, Faults.ok_bind, hsub]

theorem updateAttr_spec (hm : m ≤ 8) (hp : p.IsOf m) (hfits : ElementFits m (key, value))
    (index_sub : Option Nat) :
    ∃ p', updateAttr m (p, index_sub) (element key value) = .ok (p', indexSub m key) ∧ p'.IsOf m ∧
      ∀ f, ¬ AtOdds m key f →
        p'.field f = if fieldOf m key = some f then some (f.content value) else p.field f := by
  cases hsub : indexSub m key with
  | none =>
    have hpass := updateAttr_element_none (p := p) hsub index_sub value
    refine ⟨p, hpass, hp, fun f _ => ?_⟩
    have hnone : fieldOf m key = none := by rw [fieldOf, hsub, bind_none, bind_none]
    rw [hnone]
    rfl
  | some k =>
    have hvalue : ∀ i, (target m k).field key = some (.sceName i) → value.length < 18 := by
      intro i hi
      refine hfits.name i ((fieldOf_eq_iff hm hsub fun h => ?_).mpr hi)
      rcases h.2.2 with h | h <;> cases h
    obtain ⟨p', hset, hfield⟩ := set_field hm hp
      (fun h hk => (length_key (h ▸ hsub)).1 hk) hvalue
      (fun h hk => (length_key (h ▸ hsub)).2 hk (hfits.photo h))
    refine ⟨p', ?_, set_isOf hp hset, fun f hf => ?_⟩
    · rw [updateAttr_element_some hsub, hset]
      rfl
    · rw [hfield]
      exact if_congr (fieldOf_eq_iff hm hsub hf).symm rfl rfl

/-! ## Reports -/

/-- The data of a report. -/
def data (l : List (CText × CText)) : Json := .array (l.map fun e => element e.1 e.2)

/-- The value of the last element about a field, or what stood there. -/
def lastValue (m : Nat) (f : Field) (l : List (CText × CText)) (old : Option Content) :
    Option Content :=
  latestValue (fun e => decide (fieldOf m e.1 = some f)) (fun e => some (f.content e.2)) l old

/-- One pass of the loop. -/
def pass (m : Nat) (s : Private × Option Nat) (e : CText × CText) :
    Except Fault (Private × Option Nat) := updateAttr m s (element e.1 e.2)

theorem foldlM_data (l : List (CText × CText)) (s : Private × Option Nat) :
    (data l).children.foldlM (updateAttr m) s = l.foldlM (pass m) s := foldlM_map ..

theorem foldlM_pass_ok (hm : m ≤ 8) (hfits : ∀ e ∈ l, ElementFits m e) (hp : s.1.IsOf m) :
    ∃ s', l.foldlM (pass m) s = .ok s' ∧ s'.1.IsOf m := by
  induction l generalizing s with
  | nil => exact ⟨s, rfl, hp⟩
  | cons e l ih =>
    obtain ⟨he, hl⟩ := forall_mem_cons.mp hfits
    obtain ⟨p', hpass, hp', -⟩ := updateAttr_spec hm hp he s.2
    obtain ⟨s', hrest, hs'⟩ := ih hl (s := (p', indexSub m e.1)) hp'
    refine ⟨s', ?_, hs'⟩
    rw [foldlM_cons]
    exact bind_eq_ok.mpr ⟨_, hpass, hrest⟩

theorem foldlM_pass_field (hm : m ≤ 8) (hfits : ∀ e ∈ l, ElementFits m e)
    {s' : Private × Option Nat} (hp : s.1.IsOf m) (h : l.foldlM (pass m) s = .ok s')
    (hf : ∀ e ∈ l, ¬ AtOdds m e.1 f) : s'.1.field f = lastValue m f l (s.1.field f) := by
  refine foldlM_latest (K := fun s => s.1.IsOf m) (fun s => s.1.field f)
    (fun e he t t' ht hpass => ?_) h hp
  obtain ⟨p', hok, hp', hfield⟩ := updateAttr_spec hm ht (hfits e he) t.2
  obtain rfl := ok.inj (hok.symm.trans hpass)
  refine ⟨hp', (hfield f (hf e he)).trans ?_⟩
  simp only [decide_eq_true_eq]

/-- The position of the only element of a report. -/
def onlySub (m : Nat) : List (CText × CText) → Option Nat
  | [e] => indexSub m e.1
  | _ => none

theorem onlySub_eq (hm : m ≤ 8) (hfits : ∀ e ∈ l, ElementFits m e) {s' : Private × Option Nat}
    (hp : s.1.IsOf m) (h : l.foldlM (pass m) s = .ok s') :
    (if l.length = 1 then s'.2 else none) = onlySub m l := by
  match l with
  | [] => rfl
  | [e] =>
    obtain ⟨p', hok, -⟩ := updateAttr_spec hm hp (hfits e (mem_singleton_self e)) s.2
    obtain ⟨t, hpass, hrest⟩ := bind_eq_ok.mp h
    obtain rfl := ok.inj hrest
    obtain rfl := ok.inj (hok.symm.trans hpass)
    rfl
  | _ :: _ :: _ => rfl

/-! ## What the refresh leaves -/

/-- What the refresh that ends a report leaves in a field. -/
def kept (index_sub : Option Nat) (f : Field) (c : Option Content) : Option Content :=
  match f with
  | .keyFobValue => if index_sub = some 13 then c else c.map fun _ => .byte 0
  | .sceName i =>
    if index_sub = some 12 ∨ c ≠ some (.text []) then c
    else some (.text (((if index_sub = some 13 then sceName else sceNumber)[i.val]?).getD []))
  | _ => c

theorem kept_sceName (index_sub : Option Nat) (i : Fin 12) (t : CText) :
    kept index_sub (.sceName i) (some (.text t)) =
      if index_sub = some 12 then some (.text t)
      else some (.text (if t = [] then
        (if index_sub = some 13 then sceName else sceNumber)[i.val]?.getD [] else t)) := by
  unfold kept
  dsimp only
  by_cases hk : index_sub = some 12
  · rw [if_pos (.inl hk), if_pos hk]
  · rw [if_neg hk]
    by_cases ht : t = []
    · rw [if_neg (by simp [hk, ht]), if_pos ht]
    · rw [if_pos (by simp [ht]), if_neg ht]

theorem field_after_hy0134 (dev : DevHY0134) (index_sub : Option Nat) (f : Field) :
    (Private.hy0134 (dev.after index_sub)).field f = kept index_sub f (dev.field f) := by
  by_cases h₁₂ : index_sub = some 12
  · subst h₁₂
    cases f with
    | sceName i => exact (kept_sceName (some 12) i _).symm
    | _ => rfl
  · by_cases h₁₃ : index_sub = some 13
    · subst h₁₃
      cases f with
      | sceName i => exact (kept_sceName (some 13) i _).symm
      | _ => rfl
    · rw [dev.after_of_ne ⟨h₁₂, h₁₃⟩]
      cases f with
      | sceName i =>
        refine Eq.trans ?_ (kept_sceName index_sub i _).symm
        rw [if_neg h₁₂, if_neg h₁₃]
        rfl
      | keyFobValue => exact (if_neg h₁₃).symm
      | _ => rfl

theorem kept_none (index_sub : Option Nat) (f : Field) : kept index_sub f none = none := by
  cases f with
  | keyFobValue => exact ite_self none
  | sceName i => exact if_pos (.inr nofun)
  | _ => rfl

theorem kept_plain (hm : m < 8) (hp : p.IsOf m) (index_sub : Option Nat) (f : Field) :
    kept index_sub f (p.field f) = p.field f := by
  have hpanel : p.field .keyFobValue = none ∧ ∀ i, p.field (.sceName i) = none := by
    cases p with
    | hy0134 dev => exact absurd hp.1 (by omega)
    | _ => exact ⟨rfl, fun _ => rfl⟩
  cases f with
  | keyFobValue => rw [hpanel.1, kept_none]
  | sceName i => rw [hpanel.2 i, kept_none]
  | _ => rfl

variable {charSigned : Bool} {index : Nat} {index_sub : Option Nat} {out DeviceId : CText}
variable {clouds clouds' : List DevCloud} {q : Private}

theorem getAttr_after {dev dev' : DevHY0134}
    (h : dev.getAttr charSigned index index_sub out clouds = .ok (dev', clouds')) :
    dev' = dev.after index_sub := by
  by_cases hk : index_sub ≠ some 12 ∧ index_sub ≠ some 13
  · rw [getAttr_views charSigned dev index hk] at h
    obtain ⟨clouds₁, -, h⟩ := bind_eq_ok.mp h
    obtain ⟨clouds₂, -, h⟩ := bind_eq_ok.mp h
    exact (Prod.mk.inj (ok.inj h)).1.symm
  · obtain rfl | rfl : index_sub = some 12 ∨ index_sub = some 13 := by
      by_contra hnot
      exact hk (not_or.mp hnot)
    · obtain ⟨clouds₁, -, h⟩ := bind_eq_ok.mp h
      exact (Prod.mk.inj (ok.inj h)).1.symm
    · obtain ⟨clouds₁, -, h⟩ := bind_eq_ok.mp h
      exact (Prod.mk.inj (ok.inj h)).1.symm

/-- The refresh of the door sensor takes note of the door in fields of its own. -/
theorem getAttr_field_hy0093 {dev dev' : DevHY0093}
    (h : dev.getAttr charSigned out clouds = .ok (dev', clouds'))
    (hf : f ≠ .initContactAlarm ∧ f ≠ .doorEvent) : dev'.field f = dev.field f := by
  have hsame (init_ContactAlarm door_event : BitVec 8) : DevHY0093.field { dev with
      init_ContactAlarm := init_ContactAlarm, door_event := door_event } f = dev.field f := by
    cases f with
    | initContactAlarm => exact absurd rfl hf.1
    | doorEvent => exact absurd rfl hf.2
    | _ => rfl
  unfold DevHY0093.getAttr at h
  obtain ⟨cloud, -, h⟩ := bind_eq_ok.mp h
  obtain ⟨svc, -, h⟩ := bind_eq_ok.mp h
  obtain ⟨clouds₁, -, h⟩ := bind_eq_ok.mp h
  obtain ⟨clouds₂, -, h⟩ := bind_eq_ok.mp h
  obtain ⟨rfl, -⟩ := Prod.mk.inj (ok.inj h)
  split
  · exact hsame _ _
  · split
    · split
      · exact hsame _ _
      · rfl
    · exact hsame _ _

theorem cloudGetAttr_field (hm : m ≤ 8) (hp : p.IsOf m)
    (h : cloudGetAttr charSigned p index index_sub out clouds = .ok (q, clouds')) :
    q.IsOf m ∧ ∀ f, f ≠ .initContactAlarm ∧ f ≠ .doorEvent →
      q.field f = kept index_sub f (p.field f) := by
  rcases Nat.lt_or_ge m 7 with hplain | hge
  · rw [cloudGetAttr_plain hplain hp] at h
    obtain ⟨clouds₁, -, h⟩ := bind_eq_ok.mp h
    obtain ⟨rfl, -⟩ := Prod.mk.inj (ok.inj h)
    exact ⟨hp, fun f _ => (kept_plain (by omega) hp index_sub f).symm⟩
  · obtain rfl | rfl : m = 7 ∨ m = 8 := by omega
    · cases p with
      | hy0093 dev =>
        obtain ⟨⟨dev', clouds₁⟩, hget, h⟩ := bind_eq_ok.mp h
        obtain ⟨rfl, -⟩ := Prod.mk.inj (ok.inj h)
        refine ⟨rfl, fun f hf => ?_⟩
        rw [kept_plain (by decide) hp]
        exact getAttr_field_hy0093 hget hf
      | hy0134 dev => exact absurd hp.1 (by decide)
      | _ => cases hp
    · obtain ⟨dev, rfl⟩ := eq_hy0134 le_rfl hp
      obtain ⟨⟨dev', clouds₁⟩, hget, h⟩ := bind_eq_ok.mp h
      obtain ⟨rfl, -⟩ := Prod.mk.inj (ok.inj h)
      obtain rfl := getAttr_after hget
      exact ⟨hp, fun f _ => field_after_hy0134 dev index_sub f⟩

/-! ## That the refresh returns -/

/-- The devices that a device has in the cloud have the services of their models. -/
def OwnServices (m : Nat) (DeviceId : CText) (clouds : List DevCloud) : Prop :=
  ∀ view ∈ viewsOf m, ∀ c, listGetByIdCloud clouds (snOf view DeviceId) = some c → c.IsOf view

theorem getViews_ok (charSigned : Bool) (dev : DevHY0134) (index_sub : Option Nat)
    (js : List (Fin 3))
    (hof : ∀ j : Fin 3, ∀ c, listGetByIdCloud clouds (viewSn DeviceId j) = some c →
      c.IsOf (9 + j)) :
    ∃ clouds', dev.getViews charSigned 8 index_sub DeviceId js clouds = .ok clouds' := by
  induction js generalizing clouds with
  | nil => exact ⟨clouds, rfl⟩
  | cons j js ih =>
    obtain ⟨clouds₁, heq, hothers, c, hself, hcof, -⟩ := written_ensure
      (show 9 + j.val < 12 by omega) (hof j) _ (viewVals_fst charSigned dev j index_sub).2
    have hindex : 8 + j.val + 1 = 9 + j.val := by omega
    unfold DevHY0134.getViews
    dsimp only
    rw [hindex]
    rw [ensure] at heq
    rw [heq, ok_bind]
    split
    · exact ⟨clouds₁, rfl⟩
    · refine ih fun i c' hc' => ?_
      by_cases hij : i = j
      · subst hij
        obtain rfl := some.inj (hself.symm.trans hc')
        exact hcof.puts _
      · rw [hothers _ fun heq => hij (viewSn_injective heq)] at hc'
        exact hof i c' hc'

theorem getAttr_ok_hy0093 (charSigned : Bool) (dev : DevHY0093)
    (hown : ∀ c, listGetByIdCloud clouds DeviceId = some c → c.IsOf 7) :
    ∃ r, dev.getAttr charSigned DeviceId (ensure 7 DeviceId clouds) = .ok r := by
  obtain ⟨_, heq, -, c, hc, hof, -⟩ := written_ensure (by decide) hown [] (by simp)
  obtain rfl := ok.inj heq
  have hlength : c.devSvc.length = 2 := hof.length_eq
  have hsvc : c.devSvc[0]? = some c.devSvc[0] := getElem?_eq_getElem (by omega)
  have hwrite (event status : SvcVal) : ∃ clouds₁ clouds₂,
      modSvc DeviceId 0 event (ensure 7 DeviceId clouds) = .ok clouds₁ ∧
      modSvc DeviceId 1 status clouds₁ = .ok clouds₂ := by
    obtain ⟨clouds₂, hmod, -⟩ := written_ensure (by decide) hown [(0, event), (1, status)] (by
      simp [cloudAttr])
    obtain ⟨clouds₁, h₁, hmod⟩ := bind_eq_ok.mp hmod
    obtain ⟨clouds₂, h₂, -⟩ := bind_eq_ok.mp hmod
    exact ⟨clouds₁, clouds₂, h₁, h₂⟩
  unfold DevHY0093.getAttr
  rw [hc, Fault.ofOption, ok_bind, show (c.puts []).devSvc[0]? = some c.devSvc[0] from hsvc,
    Fault.ofOption, ok_bind]
  obtain ⟨clouds₁, clouds₂, h₁, h₂⟩ := hwrite _ _
  exact ⟨_, bind_eq_ok.mpr ⟨clouds₁, h₁, bind_eq_ok.mpr ⟨clouds₂, h₂, rfl⟩⟩⟩

theorem localToCloud_ok (charSigned : Bool) (hm : m ≤ 8) (hp : p.IsOf m)
    (hof : OwnServices m DeviceId clouds) (index_sub : Option Nat) :
    ∃ r, localToCloud charSigned p m index_sub DeviceId clouds = .ok r := by
  have hensure : localToCloud charSigned p m index_sub DeviceId clouds =
      cloudGetAttr charSigned p m index_sub DeviceId (ensure m DeviceId clouds) := rfl
  have hview : m ∈ viewsOf m := by
    have hall : ∀ m ≤ 8, m ∈ viewsOf m := by decide
    exact hall m hm
  have hsn : snOf m DeviceId = DeviceId := by rw [snOf, if_pos (by omega)]
  have hown : ∀ c, listGetByIdCloud clouds DeviceId = some c → c.IsOf m := by
    intro c hc
    exact hof m hview c (hsn.symm ▸ hc)
  rw [hensure]
  rcases Nat.lt_or_ge m 7 with hplain | hge
  · obtain ⟨-, hbound⟩ := p.writes_spec charSigned (.inl hplain) hp index_sub hview
    obtain ⟨clouds', heq, -⟩ := written_ensure (by omega) hown _ hbound
    rcases isOf_cases charSigned (.inl hplain) hp with ⟨-, hwrites, -⟩ | ⟨rfl, -⟩
    · rw [hwrites] at heq
      rw [cloudGetAttr_plain hplain hp, updateVals_eq, heq]
      exact ⟨_, rfl⟩
    · omega
  · obtain rfl | rfl : m = 7 ∨ m = 8 := by omega
    · cases p with
      | hy0093 dev =>
        obtain ⟨r, hr⟩ := getAttr_ok_hy0093 charSigned dev hown
        exact ⟨(.hy0093 r.1, r.2), bind_eq_ok.mpr ⟨r, hr, rfl⟩⟩
      | hy0134 dev => exact absurd hp.1 (by decide)
      | _ => cases hp
    · obtain ⟨dev, rfl⟩ := eq_hy0134 le_rfl hp
      obtain ⟨-, hbound⟩ := dev.writes_spec charSigned index_sub hview
      obtain ⟨clouds₁, heq, hothers, -⟩ := written_ensure (by decide) hown _ hbound
      have hviews : ∀ j : Fin 3, ∀ c, listGetByIdCloud clouds₁ (viewSn DeviceId j) = some c →
          c.IsOf (9 + j) := by
        intro j c hc
        have hmem : ∀ j : Fin 3, 9 + j.val ∈ viewsOf 8 := by decide
        rw [hothers _ (viewSn_ne j), ← snOf_view] at hc
        exact hof _ (hmem j) c hc
      suffices hget : ∃ r, dev.getAttr charSigned 8 index_sub DeviceId (ensure 8 DeviceId clouds) =
          .ok r by
        obtain ⟨r, hr⟩ := hget
        exact ⟨(.hy0134 r.1, r.2), bind_eq_ok.mpr ⟨r, hr, rfl⟩⟩
      by_cases hk : index_sub ≠ some 12 ∧ index_sub ≠ some 13
      · obtain ⟨clouds', hget⟩ := getViews_ok charSigned (noted dev) index_sub (List.finRange 3)
          hviews
        refine ⟨(dev.after index_sub, clouds'), ?_⟩
        rw [getAttr_views charSigned dev 8 hk, heq, ok_bind, hget]
        rfl
      · obtain rfl | rfl : index_sub = some 12 ∨ index_sub = some 13 := by
          by_contra hnot
          exact hk (not_or.mp hnot)
        · have hmod : modSvc DeviceId 0 (intVal strNum (charVal charSigned dev.KeyFobValue))
              (ensure 8 DeviceId clouds) = .ok clouds₁ := (bind_pure _).symm.trans heq
          exact ⟨_, bind_eq_ok.mpr ⟨clouds₁, hmod, rfl⟩⟩
        · exact ⟨_, bind_eq_ok.mpr ⟨clouds₁, heq, rfl⟩⟩

/-! ## Reports and fields -/

theorem le_of_strSearch {ModelId : CText} (h : strSearch ModelId localModel = some m) : m ≤ 8 := by
  obtain ⟨hlt, hfound, hfirst⟩ := findIdx?_eq_some_iff_getElem.mp h
  by_contra hgt
  have hall : ∀ m < localModel.length, 8 < m → localModel[m]? = localModel[8]? := by decide
  have hsame := hall m hlt (by omega)
  rw [getElem?_eq_getElem hlt, getElem?_eq_getElem (by decide)] at hsame
  have hnot := hfirst 8 (by omega)
  rw [← some.inj hsame] at hnot
  exact hnot hfound

/-- After a report of elements that fit, a field has the value of the last element about it, or what
stood there, with what the refresh leaves of it; where the table and the `switch` are at odds this
is not said. -/
theorem update_fields {dev : DevLocal} (hmodel : strSearch dev.ModelId localModel = some m)
    (hpriv : dev.priv.or (Private.zero m) = some p) (hp : p.IsOf m) {l : List (CText × CText)}
    (hfits : ∀ e ∈ l, ElementFits m e) :
    (∃ s, (data l).children.foldlM (updateAttr m) (p, none) = .ok s) ∧
      ∀ charSigned clouds,
        (OwnServices m dev.DeviceId clouds →
          ∃ r, localAttributeUpdate charSigned dev (data l) clouds = .ok r) ∧
        ∀ r, localAttributeUpdate charSigned dev (data l) clouds = .ok r →
          ∃ q clouds', r = some ({ dev with priv := some q }, clouds') ∧ q.IsOf m ∧
            ∀ f, f ≠ .initContactAlarm ∧ f ≠ .doorEvent → (∀ e ∈ l, ¬ AtOdds m e.1 f) →
              q.field f = kept (onlySub m l) f (lastValue m f l (p.field f)) := by
  have hm := le_of_strSearch hmodel
  obtain ⟨s, hloop, hs⟩ := foldlM_pass_ok hm hfits (s := (p, none)) hp
  have hupdate (charSigned : Bool) (clouds : List DevCloud) :
      localAttributeUpdate charSigned dev (data l) clouds =
        (localToCloud charSigned s.1 m (onlySub m l) dev.DeviceId clouds >>= fun r =>
          .ok (some ({ dev with priv := some r.1 }, r.2))) := by
    have hlength : (data l).children.length = l.length := length_map ..
    rw [localAttributeUpdate, hmodel]
    dsimp only
    rw [hpriv, Fault.ofOption, ok_bind, foldlM_data, hloop, ok_bind, hlength,
      onlySub_eq hm hfits hp hloop]
    rfl
  refine ⟨⟨s, (foldlM_data l _).trans hloop⟩, fun charSigned clouds => ⟨fun hown => ?_, ?_⟩⟩
  · obtain ⟨r, hr⟩ := localToCloud_ok charSigned hm hs hown (onlySub m l)
    rw [hupdate, hr]
    exact ⟨_, rfl⟩
  · intro r hr
    rw [hupdate] at hr
    obtain ⟨⟨q, clouds'⟩, hcloud, hr⟩ := bind_eq_ok.mp hr
    obtain ⟨hq, hfield⟩ := cloudGetAttr_field hm hs hcloud
    refine ⟨q, clouds', (Except.ok.inj hr).symm, hq, fun f hf hodds => ?_⟩
    rw [hfield f hf, foldlM_pass_field hm hfits hp hloop hodds]

/-- A switch of the panel is reported. -/
theorem update_switch : ∃ q clouds',
    localAttributeUpdate true panelDev (data [("Switch_1".toList, ['1'])]) freshClouds =
      .ok (some ({ panelDev with priv := some q }, clouds')) ∧
    q.field (.switch 0) = some (.byte 1) := by
  have hof : (Private.hy0134 .zero).IsOf 8 := ⟨le_rfl, by decide⟩
  have hfits : ∀ e ∈ [("Switch_1".toList, ['1'])], ElementFits 8 e := by
    intro e he
    obtain rfl := mem_singleton.mp he
    refine ⟨fun i h => ?_, fun _ => by decide⟩
    have hfield : fieldOf 8 "Switch_1".toList = some (.switch 0) := by decide
    cases hfield.symm.trans h
  have hown : OwnServices 8 panelDev.DeviceId freshClouds := by
    intro view hview c hc
    obtain ⟨c', hc', hof'⟩ := freshClouds_shown view hview
    exact some.inj (hc'.symm.trans hc) ▸ hof'
  have hmodel : strSearch panelDev.ModelId localModel = some 8 := by decide
  have hreport := (update_fields hmodel rfl hof hfits).2 true freshClouds
  obtain ⟨r, hr⟩ := hreport.1 hown
  obtain ⟨q, clouds', rfl, -, hfield⟩ := hreport.2 r hr
  refine ⟨q, clouds', hr, ?_⟩
  rw [hfield (.switch 0) (by decide) fun e _ h => absurd h.1 (by decide)]
  decide

/-- A scene of the panel is reported; the refresh takes note of it, and the field is cleared. -/
theorem keyFobValue_cleared : ∃ q clouds',
    fieldOf 8 "KeyFobValue".toList = some .keyFobValue ∧
    lastValue 8 .keyFobValue [("KeyFobValue".toList, ['1'])]
      ((Private.hy0134 .zero).field .keyFobValue) = some (.byte 1) ∧
    localAttributeUpdate true panelDev (data [("KeyFobValue".toList, ['1'])]) freshClouds =
      .ok (some ({ panelDev with priv := some q }, clouds')) ∧
    q.field .keyFobValue = some (.byte 0) :=
  ⟨_, _, by decide, by decide, rfl, rfl⟩

end Honyar.Hilink
