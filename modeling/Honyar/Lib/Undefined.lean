import Honyar.Lib.Json
import Honyar.Lib.Faults

/-!
# What C leaves undefined

The faults a call may end in: of memory that does not belong to an array or a value, of a null
pointer, of memory that was released.  Copying a text and reading a value that cJSON made are
the calls with faults of the first kind only.
-/

namespace Honyar

/-- What C leaves undefined, by its cause. -/
inductive Fault where
  /-- A text is written behind the end of its array, or a value is read that has none. -/
  | memory
  /-- Something is read through a null pointer. -/
  | missing
  /-- An entry is read that was released. -/
  | released
deriving DecidableEq, Repr

/-- What a call gives, if it is defined. -/
def Fault.ofOption {α : Type} : Option α → Except Fault α
  | some a => .ok a
  | none => .error .memory

/-- `strcpy` into an array of `size` bytes. -/
def strcpy (size : Nat) (src : CText) : Except Fault CText :=
  if src.length < size then .ok src else .error .memory

/-- The text of a value that is taken to be a string. -/
def valuestring (obj : Json) : Except Fault CText := Fault.ofOption obj.valuestring?

/-- A member that is taken to be there. -/
def member (obj : Json) (name : CText) : Except Fault Json :=
  Fault.ofOption (obj.getObjectItem name)

/-- `cJSON_HasObjectItem`. -/
def hasObjectItem (obj : Json) (name : CText) : Bool := (obj.getObjectItem name).isSome

/-- Copying into an array succeeds exactly when the text fits. -/
theorem strcpy_bind_eq_ok {α : Type} {size : Nat} {t : CText} {f : CText → Except Fault α}
    {b : α} : (strcpy size t >>= f) = .ok b ↔ t.length < size ∧ f t = .ok b := by
  unfold strcpy
  split
  next h => simp [h]
  next h => simp [h]

theorem strcpy_eq_ok {size : Nat} {t u : CText} (h : strcpy size t = .ok u) :
    t.length < size ∧ u = t := by
  unfold strcpy at h
  split at h
  next hlt => exact ⟨hlt, (Except.ok.inj h).symm⟩
  next => cases h

theorem Fault.ofOption_eq_ok {α : Type} {o : Option α} {a : α} :
    Fault.ofOption o = .ok a ↔ o = some a := by
  cases o with
  | none => simp [Fault.ofOption]
  | some b => simp [Fault.ofOption]

theorem valuestring_eq_ok {obj : Json} {t : CText} :
    valuestring obj = .ok t ↔ obj.valuestring? = some t := Fault.ofOption_eq_ok

/-! ## Faults of entries -/

open Faults

/-- A fault of an entry: it is not there, or not any more. -/
def Dangling (f : Fault) : Prop := f ≠ .memory

/-- Any value, or a fault of memory. -/
abbrev Legible {α : Type} (x : Except Fault α) : Prop := Spares Dangling (fun _ => True) x

theorem legible_ofOption {α : Type} (o : Option α) : Legible (Fault.ofOption o) := by
  cases o with
  | none => exact not_not.mpr rfl
  | some a => trivial

theorem legible_strcpy (size : Nat) (t : CText) : Legible (strcpy size t) := by
  unfold strcpy
  split
  · trivial
  · exact not_not.mpr rfl

theorem legible_valuestring (j : Json) : Legible (valuestring j) := legible_ofOption _

theorem legible_member (j : Json) (name : CText) : Legible (member j name) := legible_ofOption _

end Honyar
