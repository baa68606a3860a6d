import Honyar.Hilink.Bridge

/-!
# Services and fields

Each service of a device in the cloud shows fields of the device: this says which, by the model
and the position of the service.  Writing a value changes the service it is written to and no
other.
-/

namespace Honyar.Hilink

open Libhylink (charVal)
open Faults List Function

variable (charSigned : Bool)

/-! ## What a service shows -/

/-- The kind of field a service carries. -/
inductive Kind where
  /-- One byte. -/
  | byte
  /-- An `int`. -/
  | int
  /-- A text in an array of 18 bytes. -/
  | name
deriving DecidableEq, Repr

/-- The property of a service that carries its field, with the kind of the field. -/
def props : Nat → List (CText × Kind)
  | 0 => [(strOn, .byte), (strMode, .byte)]
  | 1 => [(strOn, .byte), (strOn, .byte), (strMode, .byte)]
  | 2 => [(strOn, .byte), (strOn, .byte), (strOn, .byte), (strMode, .byte)]
  | 3 => [(strColorTemperature, .int), (strBrightness, .byte), (strOn, .byte)]
  | 4 => [(strOn, .byte), (strMode, .byte)]
  | 5 => [(strOn, .byte), (strOn, .byte), (strMode, .byte)]
  | 6 => [(strOn, .byte), (strOn, .byte), (strOn, .byte), (strMode, .byte)]
  | 8 => (strNum, .byte) :: List.replicate 6 (strName, .name)
  | 9 => [(strOn, .byte), (strTarget, .byte)]
  | 10 => [(strOn, .byte), (strTarget, .byte), (strMode, .byte), (strGear, .byte)]
  | 11 => [(strOn, .byte), (strGear, .byte)]
  | _ => []

/-- The values of the services of a device, for one of its views. -/
def Private.vals (p : Private) (view : Nat) : List SvcVal :=
  match p with
  | .hy0095 dev => dev.vals charSigned
  | .hy0096 dev => dev.vals charSigned
  | .hy0097 dev => dev.vals charSigned
  | .d09223f dev => dev.vals charSigned
  | .hy0121 dev => dev.toDevSwitch.vals charSigned
  | .hy0122 dev => dev.toDevSwitch.vals charSigned
  | .hy0107 dev => dev.toDevSwitch.vals charSigned
  | .hy0093 _ => []
  | .hy0134 dev => dev.vals charSigned view

/-- The fields are those of the model. -/
def Private.IsOf : Private → Nat → Prop
  | .hy0095 _, m => m = 0
  | .hy0096 _, m => m = 1
  | .hy0097 _, m => m = 2
  | .d09223f _, m => m = 3
  | .hy0121 _, m => m = 4
  | .hy0122 _, m => m = 5
  | .hy0107 _, m => m = 6
  | .hy0093 _, m => m = 7
  | .hy0134 _, m => 8 ≤ m ∧ m ≤ 11

/-! ## Devices in the cloud -/

/-- The value of a service, by its position. -/
def DevCloud.val (c : DevCloud) (pos : Nat) : Option SvcVal := (c.devSvc[pos]?).bind DevSvc.svcVal

/-- A device of the cloud with the product and the services of a model. -/
structure DevCloud.IsOf (c : DevCloud) (model : Nat) : Prop where
  prodId : some c.prodId = cloudModel[model]?
  svcIds : c.devSvc.map DevSvc.svcId = cloudAttr model

/-- A value is written to a service. -/
def DevCloud.put (c : DevCloud) (v : Nat × SvcVal) : DevCloud :=
  { c with devSvc := c.devSvc.modify v.1 fun s => { s with svcVal := some v.2 } }

@[simp] theorem DevCloud.put_sn (c : DevCloud) (v : Nat × SvcVal) : (c.put v).sn = c.sn := rfl

@[simp] theorem DevCloud.length_put (c : DevCloud) (v : Nat × SvcVal) :
    (c.put v).devSvc.length = c.devSvc.length := length_modify ..

theorem DevCloud.val_put {c : DevCloud} {v : Nat × SvcVal} (hv : v.1 < c.devSvc.length)
    (pos : Nat) : (c.put v).val pos = if v.1 = pos then some v.2 else c.val pos := by
  rw [val, put, getElem?_modify]
  split
  next h =>
    subst h
    simp [hv]
  next h => cases hs : c.devSvc[pos]? <;> simp [val, hs]

theorem DevCloud.IsOf.put {c : DevCloud} {model : Nat} (h : c.IsOf model) (v : Nat × SvcVal) :
    (c.put v).IsOf model where
  prodId := h.prodId
  svcIds := by
    rw [← h.svcIds, DevCloud.put]
    refine ext_getElem? fun i => ?_
    rw [getElem?_map, getElem?_map, getElem?_modify]
    cases c.devSvc[i]? with
    | none => rfl
    | some s => by_cases hi : v.1 = i <;> simp [hi]

theorem DevCloud.IsOf.length_eq {c : DevCloud} {model : Nat} (h : c.IsOf model) :
    c.devSvc.length = (cloudAttr model).length := by
  rw [← h.svcIds, length_map]

/-- Values are written one after another. -/
def DevCloud.puts (c : DevCloud) (vals : List (Nat × SvcVal)) : DevCloud :=
  vals.foldl DevCloud.put c

theorem DevCloud.IsOf.puts {c : DevCloud} {model : Nat} (h : c.IsOf model)
    (vals : List (Nat × SvcVal)) : (c.puts vals).IsOf model := by
  induction vals generalizing c with
  | nil => exact h
  | cons v vals ih => exact ih (h.put v)

theorem DevCloud.val_puts_of_notMem {c : DevCloud} {vals : List (Nat × SvcVal)} {pos : Nat}
    (hvals : ∀ v ∈ vals, v.1 < c.devSvc.length) (hpos : pos ∉ vals.map Prod.fst) :
    (c.puts vals).val pos = c.val pos := by
  induction vals generalizing c with
  | nil => rfl
  | cons v vals ih =>
    obtain ⟨hv, hrest⟩ := forall_mem_cons.mp hvals
    rw [map_cons, mem_cons, not_or] at hpos
    obtain ⟨hne, hnot⟩ := hpos
    rw [puts, foldl_cons]
    refine (ih (fun w hw => ?_) hnot).trans ?_
    · rw [length_put]
      exact hrest w hw
    · rw [val_put hv, if_neg (Ne.symm hne)]

theorem DevCloud.val_puts_of_mem {c : DevCloud} {vals : List (Nat × SvcVal)} {v : Nat × SvcVal}
    (hvals : ∀ v ∈ vals, v.1 < c.devSvc.length) (hnd : (vals.map Prod.fst).Nodup)
    (hv : v ∈ vals) : (c.puts vals).val v.1 = some v.2 := by
  induction vals generalizing c with
  | nil => cases hv
  | cons w vals ih =>
    obtain ⟨hw, hrest⟩ := forall_mem_cons.mp hvals
    obtain ⟨hnot, hnd⟩ := nodup_cons.mp hnd
    have hrest : ∀ u ∈ vals, u.1 < (c.put w).devSvc.length := fun u hu => by
      rw [length_put]
      exact hrest u hu
    rw [puts, foldl_cons]
    rcases mem_cons.mp hv with rfl | hv
    · refine (val_puts_of_notMem hrest hnot).trans ?_
      rw [val_put hw, if_pos rfl]
    · exact ih hrest hnd hv

/-! ## Writing to the list -/

variable {clouds : List DevCloud} {out : CText} {c : DevCloud}

theorem modSvc_eq (h : listGetByIdCloud clouds out = some c) {pos : Nat} (json : SvcVal)
    (hpos : pos < c.devSvc.length) : ∃ clouds', modSvc out pos json clouds = .ok clouds' ∧
      listGetByIdCloud clouds' =
        Function.update (listGetByIdCloud clouds) out (some (c.put (pos, json))) := by
  induction clouds with
  | nil => cases h
  | cons d clouds ih =>
    by_cases hd : d.sn = out
    · have hfound : listGetByIdCloud (d :: clouds) out = some d :=
        find?_cons_of_pos (by simpa using hd)
      obtain rfl : d = c := Option.some.inj (hfound.symm.trans h)
      refine ⟨_, by rw [modSvc, if_pos hd, if_pos hpos], funext fun sn => ?_⟩
      by_cases hsn : sn = out
      · rw [hsn, update_self]
        exact find?_cons_of_pos (by simpa using hd)
      · rw [update_of_ne hsn, listGetByIdCloud, listGetByIdCloud,
          find?_cons_of_neg (by simpa [hd] using Ne.symm hsn),
          find?_cons_of_neg (by simpa [hd] using Ne.symm hsn)]
    · have hrest : listGetByIdCloud (d :: clouds) out = listGetByIdCloud clouds out :=
        find?_cons_of_neg (by simpa using hd)
      obtain ⟨clouds', heq, hlook⟩ := ih (hrest ▸ h)
      refine ⟨d :: clouds', by rw [modSvc, if_neg hd, heq]; rfl, funext fun sn => ?_⟩
      by_cases hsn : d.sn = sn
      · have hne : sn ≠ out := fun heq => hd (hsn.trans heq)
        rw [update_of_ne hne, listGetByIdCloud, listGetByIdCloud,
          find?_cons_of_pos (by simpa using hsn), find?_cons_of_pos (by simpa using hsn)]
      · have hskip (cs : List DevCloud) :
            listGetByIdCloud (d :: cs) sn = listGetByIdCloud cs sn :=
          find?_cons_of_neg (by simpa using hsn)
        rw [hskip, hlook]
        by_cases hout : sn = out
        · rw [hout, update_self, update_self]
        · rw [update_of_ne hout, update_of_ne hout, hskip]

theorem modSvcs_eq (h : listGetByIdCloud clouds out = some c) {vals : List (Nat × SvcVal)}
    (hvals : ∀ v ∈ vals, v.1 < c.devSvc.length) :
    ∃ clouds', modSvcs out vals clouds = .ok clouds' ∧
      listGetByIdCloud clouds' =
        Function.update (listGetByIdCloud clouds) out (some (c.puts vals)) := by
  induction vals generalizing clouds c with
  | nil =>
    refine ⟨clouds, rfl, ?_⟩
    rw [show c.puts [] = c from rfl, ← h, update_eq_self]
  | cons v vals ih =>
    obtain ⟨hv, hrest⟩ := forall_mem_cons.mp hvals
    obtain ⟨clouds₁, heq₁, hlook₁⟩ := modSvc_eq h v.2 hv
    have hfound : listGetByIdCloud clouds₁ out = some (c.put v) := by
      rw [hlook₁, update_self]
    obtain ⟨clouds', heq, hlook⟩ := ih hfound fun w hw => by
      rw [DevCloud.length_put]
      exact hrest w hw
    refine ⟨clouds', ?_, ?_⟩
    · rw [modSvcs, foldlM_cons, heq₁]
      exact heq
    · rw [hlook, hlook₁, update_idem]
      rfl

end Honyar.Hilink
