import Honyar.Base.HashMap
import Honyar.Lib.Listing
import Honyar.Lib.Store

/-!
# The device list: its data

Devices stand in one doubly linked list and the attributes of each in another one, and both
are found through one hash map: a device by its id, an attribute by the id and its key written
one behind the other.
-/

namespace Honyar.Devices

open Honyar.Base (HashMap HashKey hashKey)

/-- A text in a field of `n` bytes. -/
abbrev Field (n : Nat) := { t : CText // t.length < n }

/-- `DEV_LIST_DEV_ID_MAX_LEN`. -/
def devIdMaxLen : Nat := 32

/-- `DEV_LIST_ATTR_KEY_MAX_LEN`. -/
def attrKeyMaxLen : Nat := 32

/-- `DEV_LIST_ATTR_VALUE_MAX_LEN`. -/
def attrValueMaxLen : Nat := 128

abbrev DevId := Field devIdMaxLen

abbrev AttrKey := Field attrKeyMaxLen

abbrev AttrValue := Field attrValueMaxLen

/-- `dev_info_t`. -/
structure DevInfo where
  acDevType : CText
  acPowerType : CText
  acDevModel : CText
  acDevName : CText
  acDevHWVer : CText
  acDevSWVer : CText
  acHwModel : CText
  acProductKey : CText
  acSecret : CText
  ucRegister : Nat
  ucOnline : Nat
  sReportInterval : Int
deriving DecidableEq

/-- A device is online once it or an attribute of it was added, but not while the list is
read from the database. -/
def DevInfo.online (ucInitFlag : Bool) (i : DevInfo) : DevInfo :=
  if ucInitFlag = false ∧ i.ucOnline = 0 then { i with ucOnline := 1 } else i

/-- `dev_attr_info_t`. -/
structure DevAttrInfo where
  acKey : AttrKey
  acValue : AttrValue
deriving DecidableEq

/-- `device_t`.  The attribute list is gone once it was destroyed. -/
structure Device where
  acDevId : DevId
  stDevInfo : DevInfo
  pstDevAttrList : Option (Listing DevAttrInfo)

/-- `dev_attr_ptr_t`: the block of a device and the block of an attribute in its list.  Of the
value stored for a device only the first word is ever set. -/
structure DevAttrPtr where
  pstDev : Nat
  pstDevAttr : Option Nat
deriving DecidableEq

/-- A message of the save queue. -/
inductive SaveTask where
  | devAdd (pstDev : Nat)
  | attrAdd (pstDev pstDevAttr : Nat)
deriving DecidableEq

/-- The two tables of the database. -/
structure Tables where
  dev : List (DevId × DevInfo)
  attr : List ((DevId × AttrKey) × AttrValue)

inductive Ret where
  | noErr
  | generalErr
deriving DecidableEq

/-- `dev_list_class_t` with its private part and its database. -/
structure DevList where
  devs : Listing Device
  hash : HashMap DevAttrPtr
  ucInitFlag : Bool
  saves : List SaveTask
  db : Tables

/-- `new_dev_list` with an empty database. -/
def newDevList (ucInitFlag : Bool) : DevList where
  devs := .empty
  hash := HashMap.newHashMap 0 true
  ucInitFlag := ucInitFlag
  saves := []
  db := ⟨[], []⟩

/-! ## The database -/

namespace Tables

/-- `dev_list_add_db`: updates the row of the device or inserts one. -/
def devAdd (d : Device) (t : Tables) : Tables :=
  { t with dev := Store.put Prod.fst (d.acDevId, d.stDevInfo) t.dev }

/-- `dev_list_del_db`. -/
def devDel (pcDevId : DevId) (t : Tables) : Tables :=
  { t with dev := Store.remove Prod.fst pcDevId t.dev }

/-- `dev_attr_list_add_db`. -/
def attrAdd (pcDevId : DevId) (a : DevAttrInfo) (t : Tables) : Tables :=
  { t with attr := Store.put Prod.fst ((pcDevId, a.acKey), a.acValue) t.attr }

/-- `dev_attr_list_del_db`. -/
def attrDel (pcDevId : DevId) (pcAttrKey : AttrKey) (t : Tables) : Tables :=
  { t with attr := Store.remove Prod.fst (pcDevId, pcAttrKey) t.attr }

end Tables

namespace DevList

/-! ## Blocks

Each of these is `none` when the block was given back. -/

def device (s : DevList) (p : Nat) : Option Device :=
  s.devs.data p

def setDevice (s : DevList) (p : Nat) (f : Device → Device) : Option DevList := do
  let devs ← s.devs.modify p f
  return { s with devs := devs }

def attrList (s : DevList) (p : Nat) : Option (Listing DevAttrInfo) := do
  let d ← s.device p
  d.pstDevAttrList

def setAttrList (s : DevList) (p : Nat) (l : Option (Listing DevAttrInfo)) : Option DevList :=
  s.setDevice p fun d => { d with pstDevAttrList := l }

def attr (s : DevList) (p a : Nat) : Option DevAttrInfo := do
  let l ← s.attrList p
  l.data a

/-! ## Looking up -/

/-- The key of a device in the hash map. -/
def devKey (pcDevId : DevId) : HashKey :=
  hashKey [pcDevId.1]

/-- The key of an attribute in the hash map. -/
def attrKey (pcDevId : DevId) (pcAttrKey : AttrKey) : HashKey :=
  hashKey [pcDevId.1, pcAttrKey.1]

/-- `dev_list_find`: the first word of what is stored for the key. -/
def find (s : DevList) (pcDevId : DevId) : Option Nat :=
  (s.hash.find (devKey pcDevId)).map (·.pstDev)

/-- `dev_list_attr_find`. -/
def attrFind (s : DevList) (pcDevId : DevId) (pcAttrKey : AttrKey) : Option DevAttrPtr :=
  s.hash.find (attrKey pcDevId pcAttrKey)

/-! ## Adding -/

/-- What both ways of adding do to the device in the end. -/
def goOnline (s : DevList) (p : Nat) : Option DevList :=
  s.setDevice p fun d => { d with stDevInfo := DevInfo.online s.ucInitFlag d.stDevInfo }

/-- `pstSaveQueue->push`. -/
def push (s : DevList) (tasks : List SaveTask) : DevList :=
  { s with saves := s.saves ++ tasks }

/-- `dev_list_add` up to the online flag: the device's block, made or written to. -/
def addDevice (pcDevId : DevId) (i : DevInfo) (s : DevList) : Option (DevList × Nat) :=
  match s.find pcDevId with
  | none => do
    let devs ← s.devs.tailInsert ⟨pcDevId, i, some .empty⟩
    let found ← devs.find fun d => CText.strncmpEq devIdMaxLen d.acDevId.1 pcDevId.1
    -- what was inserted is found, at the latest
    let p ← found
    let d ← devs.data p
    return ({ s with devs := devs, hash := s.hash.inst (devKey d.acDevId) ⟨p, none⟩ }, p)
  | some p => do
    let s ← s.setDevice p fun d => { d with stDevInfo := i }
    return (s, p)

/-- `dev_list_add`. -/
def add (pcDevId : DevId) (i : DevInfo) (s : DevList) : Option (DevList × Ret) := do
  let (s, p) ← s.addDevice pcDevId i
  let s ← s.goOnline p
  return (s.push [.devAdd p], .noErr)

/-- `dev_list_attr_add` from the online flag on. -/
def attrAdded (p a : Nat) (s : DevList) : Option (DevList × Ret) := do
  let s ← s.goOnline p
  return (s.push [.devAdd p, .attrAdd p a], .noErr)

/-- `dev_list_attr_add`. -/
def attrAdd (pcDevId : DevId) (x : DevAttrInfo) (s : DevList) : Option (DevList × Ret) :=
  match s.attrFind pcDevId x.acKey with
  | none =>
    match s.find pcDevId with
    | none => some (s, .generalErr)
    | some p => do
      let l ← s.attrList p
      let l ← l.tailInsert x
      let found ← l.find fun y => CText.strncmpEq attrKeyMaxLen y.acKey.1 x.acKey.1
      let a ← found
      let y ← l.data a
      let s ← s.setAttrList p (some l)
      { s with hash := s.hash.inst (attrKey pcDevId y.acKey) ⟨p, some a⟩ }.attrAdded p a
  | some e => do
    let a ← e.pstDevAttr
    let l ← s.attrList e.pstDev
    let l ← l.modify a fun _ => x
    let s ← s.setAttrList e.pstDev (some l)
    s.attrAdded e.pstDev a

/-! ## Deleting -/

/-- What `dev_list_attr_clear` does for one attribute. -/
def forgetAttr (pcDevId : DevId) (iDbClear : Bool) (s : DevList) (x : DevAttrInfo) : DevList :=
  { s with
    hash := s.hash.del (attrKey pcDevId x.acKey)
    db := if iDbClear then s.db.attrDel pcDevId x.acKey else s.db }

/-- `dev_list_attr_clear`. -/
def attrClear (pcDevId : DevId) (iDbClear : Bool) (s : DevList) : Option (DevList × Ret) :=
  match s.find pcDevId with
  | none => some (s, .generalErr)
  | some p => do
    let l ← s.attrList p
    let s := (l.nodes.map Prod.snd).foldl (forgetAttr pcDevId iDbClear) s
    let l ← l.clear
    let s ← s.setAttrList p (some l)
    return (s, .noErr)

/-- `destroy_double_link_list` on the attribute list of a device. -/
def destroyAttrList (p : Nat) (s : DevList) : Option DevList := do
  let l ← s.attrList p
  if l.nodes.length ≠ 0 then
    let _ ← l.clear
    s.setAttrList p none
  else s.setAttrList p none

/-- `dev_list_del`. -/
def del (pcDevId : DevId) (s : DevList) : Option (DevList × Ret) :=
  match s.find pcDevId with
  | none => some (s, .noErr)
  | some p => do
    let (s, _) ← s.attrClear pcDevId true
    let s ← s.destroyAttrList p
    let devs ← s.devs.del p
    return ({ s with devs := devs, hash := s.hash.del (devKey pcDevId),
                     db := s.db.devDel pcDevId }, .noErr)

/-- What `dev_list_clear` does for one device. -/
def forgetDev (iDbClear : Bool) (s : DevList) (p : Nat) : Option DevList := do
  let d ← s.device p
  let (s, _) ← s.attrClear d.acDevId iDbClear
  let s ← s.destroyAttrList p
  return { s with hash := s.hash.del (devKey d.acDevId),
                  db := if iDbClear then s.db.devDel d.acDevId else s.db }

/-- `dev_list_clear`. -/
def clear (iDbClear : Bool) (s : DevList) : Option (DevList × Ret) := do
  let s ← (s.devs.nodes.map Prod.fst).foldlM (forgetDev iDbClear) s
  let devs ← s.devs.clear
  return ({ s with devs := devs }, .noErr)

/-- `dev_list_attr_del`.  The key under which the attribute is to be forgotten is read from
the block that was given back just before. -/
def attrDel (pcDevId : DevId) (pcAttrKey : AttrKey) (s : DevList) : Option (DevList × Ret) :=
  match s.attrFind pcDevId pcAttrKey with
  | none => some (s, .generalErr)
  | some e => do
    let a ← e.pstDevAttr
    let l ← s.attrList e.pstDev
    let l ← l.del a
    let s ← s.setAttrList e.pstDev (some l)
    let d ← s.device e.pstDev
    let x ← s.attr e.pstDev a
    return ({ s with hash := s.hash.del (attrKey d.acDevId x.acKey),
                     db := s.db.attrDel d.acDevId x.acKey }, .noErr)

/-! ## Saving -/

/-- A round of `dev_list_db_save_exec`: the oldest message, if there is one. -/
def dbSave (s : DevList) : Option DevList :=
  match s.saves with
  | [] => some s
  | .devAdd p :: saves => do
    let d ← s.device p
    return { s with saves := saves, db := s.db.devAdd d }
  | .attrAdd p a :: saves => do
    let d ← s.device p
    let x ← s.attr p a
    return { s with saves := saves, db := s.db.attrAdd d.acDevId x }

end DevList

end Honyar.Devices
