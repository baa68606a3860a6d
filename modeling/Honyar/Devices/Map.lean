import Honyar.Devices.Removal
import Honyar.Lib.Run

/-!
# The device list as a two-level map

The lists with their hash map stand for a map from ids to devices, each with a map from keys
to values.  Where no lookup is led astray by the texts of the keys, and no block is touched
that was given back, every function does to the lists what its counterpart does to the map.
-/

namespace Honyar.Devices

open Honyar.Base (HashMap)

open DevList (devKey attrKey devKey_inj attrKey_inj)

/-! ## The map -/

/-- What is known of a device. -/
structure Entry where
  info : DevInfo
  attrs : AttrKey → Option AttrValue

/-- The devices by their ids. -/
abbrev DevMap := DevId → Option Entry

namespace DevMap

/-- A device with new information keeps its attributes. -/
def add (ucInitFlag : Bool) (d : DevId) (i : DevInfo) (m : DevMap) : DevMap :=
  Function.update m d (some ⟨i.online ucInitFlag, (m d).elim (fun _ => none) Entry.attrs⟩)

def del (d : DevId) (m : DevMap) : DevMap :=
  Function.update m d none

/-- The attributes of a device changed. -/
def onAttrs (d : DevId) (f : Entry → Entry) (m : DevMap) : DevMap × Ret :=
  match m d with
  | none => (m, .generalErr)
  | some e => (Function.update m d (some (f e)), .noErr)

/-- An added attribute puts its device online. -/
def attrAdd (ucInitFlag : Bool) (d : DevId) (x : DevAttrInfo) : DevMap → DevMap × Ret :=
  onAttrs d fun e => ⟨e.info.online ucInitFlag, Function.update e.attrs x.acKey (some x.acValue)⟩

def attrClear (d : DevId) : DevMap → DevMap × Ret :=
  onAttrs d fun e => { e with attrs := fun _ => none }

/-- An attribute that is not there cannot be deleted. -/
def attrDel (d : DevId) (k : AttrKey) (m : DevMap) : DevMap × Ret :=
  match (m d).bind fun e => e.attrs k with
  | none => (m, .generalErr)
  | some _ => m.onAttrs d fun e => { e with attrs := Function.update e.attrs k none }

end DevMap

/-! ## The machine and its meaning -/

inductive Op where
  | add (pcDevId : DevId) (i : DevInfo)
  | del (pcDevId : DevId)
  | attrAdd (pcDevId : DevId) (x : DevAttrInfo)
  | attrDel (pcDevId : DevId) (pcAttrKey : AttrKey)
  | attrClear (pcDevId : DevId) (iDbClear : Bool)
  | clear (iDbClear : Bool)
  | find (pcDevId : DevId)
  | attrFind (pcDevId : DevId) (pcAttrKey : AttrKey)

/-- What a caller sees: the value returned, or what stands in the block that was found. -/
inductive Answer where
  | ret (iRet : Ret)
  | dev (d : Option (DevId × Entry))
  | attr (x : Option (DevId × AttrKey × AttrValue))

def Device.entry (d : Device) : Entry where
  info := d.stDevInfo
  attrs := Store.lookup (fun x => x.2.acKey) (fun x => x.2.acValue) d.attrs

/-- The map the lists stand for. -/
def DevList.toMap (s : DevList) : DevMap :=
  Store.lookup (fun n => n.2.acDevId) (fun n => n.2.entry) s.devs.nodes

/-- The answer of a function that returns an error number. -/
def answer {σ : Type} (x : σ × Ret) : σ × List Answer :=
  (x.1, [.ret x.2])

/-- What a caller reads through the pointer it was given. -/
def DevList.readDev (s : DevList) : Option Nat → Option (Option (DevId × Entry))
  | none => some none
  | some p => do
    let d ← s.device p
    return some (d.acDevId, d.entry)

def DevList.readAttr (s : DevList) : Option DevAttrPtr →
    Option (Option (DevId × AttrKey × AttrValue))
  | none => some none
  | some e => do
    let a ← e.pstDevAttr
    let d ← s.device e.pstDev
    let x ← s.attr e.pstDev a
    return some (d.acDevId, x.acKey, x.acValue)

/-- A call on the list; it fails where a block is touched that was given back. -/
def step (s : DevList) : Op → Option (DevList × List Answer)
  | .add d i => (s.add d i).map answer
  | .del d => (s.del d).map answer
  | .attrAdd d x => (s.attrAdd d x).map answer
  | .attrDel d k => (s.attrDel d k).map answer
  | .attrClear d b => (s.attrClear d b).map answer
  | .clear b => (s.clear b).map answer
  | .find d => do return (s, [.dev (← s.readDev (s.find d))])
  | .attrFind d k => do return (s, [.attr (← s.readAttr (s.attrFind d k))])

/-- The same call on the map. -/
def mapStep (ucInitFlag : Bool) (m : DevMap) : Op → Option (DevMap × List Answer)
  | .add d i => some (m.add ucInitFlag d i, [.ret .noErr])
  | .del d => some (m.del d, [.ret .noErr])
  | .attrAdd d x => some (answer (m.attrAdd ucInitFlag d x))
  | .attrDel d k => some (answer (m.attrDel d k))
  | .attrClear d _ => some (answer (m.attrClear d))
  | .clear _ => some (fun _ => none, [.ret .noErr])
  | .find d => some (m, [.dev ((m d).map fun e => (d, e))])
  | .attrFind d k =>
    some (m, [.attr (((m d).bind fun e => e.attrs k).map fun v => (d, k, v))])

/-! ## Where the calls are what they should be -/

/-- The device is there and its attributes were cleared before. -/
def Cleared (s : DevList) (d : DevId) : Prop :=
  ∃ n ∈ s.devs.nodes, n.2.acDevId = d ∧ ∃ l ∈ n.2.pstDevAttrList, l.gone = true

/-- The device has the attribute. -/
def HasAttr (s : DevList) (d : DevId) (k : AttrKey) : Prop :=
  ∃ n ∈ s.devs.nodes, n.2.acDevId = d ∧ ∃ x ∈ n.2.attrs, x.2.acKey = k

/-- No key has the text of another one that is looked for, and no list is used again that was
cleared.  To delete an attribute that is there is never safe. -/
def Safe (s : DevList) : Op → Prop
  | .add d _ => DevApart s d ∧ s.devs.gone = false
  | .del d => DevApart s d ∧ ¬ Cleared s d
  | .attrAdd d x => AttrApart s d x.acKey ∧ (HasAttr s d x.acKey ∨ DevApart s d ∧ ¬ Cleared s d)
  | .attrDel d k => AttrApart s d k ∧ ¬ HasAttr s d k
  | .attrClear d _ => DevApart s d ∧ ¬ Cleared s d
  | .clear _ => s.devs.gone = false ∧ Fresh s
  | .find d => DevApart s d
  | .attrFind d k => AttrApart s d k

instance (s : DevList) (d : DevId) : Decidable (Cleared s d) :=
  inferInstanceAs (Decidable (∃ n ∈ s.devs.nodes, n.2.acDevId = d ∧
    ∃ l ∈ n.2.pstDevAttrList, l.gone = true))

instance (s : DevList) (d : DevId) (k : AttrKey) : Decidable (HasAttr s d k) :=
  inferInstanceAs (Decidable (∃ n ∈ s.devs.nodes, n.2.acDevId = d ∧ ∃ x ∈ n.2.attrs, _))

instance (s : DevList) : (op : Op) → Decidable (Safe s op)
  | .add _ _ | .del _ | .attrDel _ _ | .attrClear _ _ | .clear _ =>
    inferInstanceAs (Decidable (_ ∧ _))
  | .attrAdd _ _ => inferInstanceAs (Decidable (_ ∧ (_ ∨ _ ∧ _)))
  | .find d => inferInstanceAs (Decidable (DevApart s d))
  | .attrFind d k => inferInstanceAs (Decidable (AttrApart s d k))

end Honyar.Devices
