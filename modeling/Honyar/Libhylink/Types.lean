import Honyar.Hylink.RecvJson
import Honyar.Lib.Store
import Honyar.Lib.Undefined

/-!
# Devices of the cloud bridge

The devices libhylink keeps for the cloud side (hylinkListFunc.h), the profile a device is
made from (`hyLinkParseJson`), the cell of an attribute, and what is emitted from it
(`generateCloudJson`).

A profile is read from a file named after the model; the files are a parameter, each the JSON
value it holds.  Whether a `char` has a sign is left to the compiler, and is a parameter too.
-/

namespace Honyar.Libhylink

open Hylink

/-- The value of a `char`. -/
def charVal (charSigned : Bool) (c : BitVec 8) : Int := if charSigned then c.toInt else c.toNat

/-- What `value` points to, by `LINK_VALUE_TYPE`: one byte, four bytes, or eighteen; for any
other type, nothing. -/
inductive Cell where
  | enum (hyVal : BitVec 8)
  | num (hyVal : BitVec 32)
  | string (hyVal : CText)
  | other (valueType : BitVec 8)
deriving DecidableEq, Repr

/-- The bytes of a string cell. -/
def stringLen : Nat := 18

/-- The cell a type asks for, as `memset` leaves it. -/
def Cell.ofType (valueType : BitVec 8) : Cell :=
  match valueType.toNat with
  | 0 => .enum 0
  | 1 => .num 0
  | 2 => .string []
  | _ => .other valueType

/-- `HyLinkDevAttr`. -/
structure HyLinkDevAttr where
  hyKey : CText
  value : Cell
  repeated : BitVec 8
deriving DecidableEq, Repr

/-- `REPEAT_REPORT`. -/
def repeatReport : BitVec 8 := 1

/-- `HyLinkDev`. -/
structure HyLinkDev where
  devId : CText
  modelId : CText
  online : BitVec 8
  attr : List HyLinkDevAttr
deriving DecidableEq, Repr

/-- `SUBDEV_OFFLINE`, `SUBDEV_ONLINE` and `SUBDEV_RESTORE`. -/
def subdevOffline : BitVec 8 := 0
def subdevOnline : BitVec 8 := 1
def subdevRestore : BitVec 8 := 2

/-- `generateCloudJson`. -/
def generateCloudJson (charSigned : Bool) (cloudKey : CText) : Cell → Option Json
  | .enum hyVal =>
    let num := charVal charSigned hyVal
    some (.object [(cloudKey, .number (CText.ofInt num) num)])
  | .num hyVal => some (.object [(cloudKey, .number (CText.ofInt hyVal.toInt) hyVal.toInt)])
  | .string hyVal => some (.object [(cloudKey, .string hyVal)])
  | .other _ => none

/-! ## Profiles -/

/-- An element of a profile's `attr`. -/
def parseAttr (arraySub : Json) : Except Fault HyLinkDevAttr := do
  let hyKey ← member arraySub "hyKey".toList
  let hyKey ← strcpy devIdLen (← valuestring hyKey)
  let valueType ← member arraySub "valueType".toList
  let rep ← member arraySub "repeat".toList
  return ⟨hyKey, .ofType (.ofInt 8 valueType.valueint), .ofInt 8 rep.valueint⟩

/-- The most attributes `attrLen` counts. -/
def attrLenMax : Nat := 255

/-- `hyLinkParseJson`, from the value of the text on, but for the entry in the map. -/
def hyLinkParseJson (devId : CText) (root : Json) : Except Fault (Option HyLinkDev) :=
  match root.getObjectItem "modelId".toList, root.getObjectItem "attr".toList with
  | some modelId, some attr =>
    if attr.children = [] then return none
    else if attr.children.length ≤ attrLenMax then do
      let devId ← strcpy devIdLen devId
      let modelId ← strcpy devIdLen (← valuestring modelId)
      return some ⟨devId, modelId, subdevOnline, ← attr.children.mapM parseAttr⟩
    else .error .memory
  | _, _ => return none

/-! ## The map -/

/-- `hylinkListGetById`. -/
def hylinkListGetById (hyMap : List HyLinkDev) (id : CText) : Option HyLinkDev :=
  hyMap.find? (·.devId = id)

/-- `hylinkListAdd`, and any writing to an entry. -/
def hylinkListAdd (hyMap : List HyLinkDev) (dev : HyLinkDev) : List HyLinkDev :=
  Store.put HyLinkDev.devId dev hyMap

/-- `hylinkListDel`, by the id of the device. -/
def hylinkListDel (hyMap : List HyLinkDev) (id : CText) : List HyLinkDev :=
  Store.remove HyLinkDev.devId id hyMap

@[simp] theorem hylinkListGetById_add (hyMap : List HyLinkDev) (dev : HyLinkDev) (id : CText) :
    hylinkListGetById (hylinkListAdd hyMap dev) id =
      if dev.devId = id then some dev else hylinkListGetById hyMap id :=
  Store.find?_put dev id hyMap

@[simp] theorem hylinkListGetById_del (hyMap : List HyLinkDev) (k id : CText) :
    hylinkListGetById (hylinkListDel hyMap k) id =
      if k = id then none else hylinkListGetById hyMap id :=
  Store.find?_remove k id hyMap

theorem hylinkListGetById_devId {hyMap : List HyLinkDev} {id : CText} {dev : HyLinkDev}
    (h : hylinkListGetById hyMap id = some dev) : dev.devId = id := by
  simpa using List.find?_some h

/-- `addProfileDev(HYLINK_PROFILE_PATH, devId, modelId, hyLinkParseJson)`: the device it
returns, and the map with it. -/
def addProfileDev (hyprofile : CText → Option Json) (hyMap : List HyLinkDev)
    (devId modelId : CText) : Except Fault (Option HyLinkDev × List HyLinkDev) :=
  match hyprofile modelId with
  | none => return (none, hyMap)
  | some root => do
    match ← hyLinkParseJson devId root with
    | none => return (none, hyMap)
    | some dev => return (some dev, hylinkListAdd hyMap dev)

/-! ## What arrives for an attribute -/

/-- The `switch` of `hylinkSubDevAttrUpdate`: the cell afterwards, and whether it leaves by
`success` rather than by `repeat`. -/
def Cell.receive (charSigned : Bool) (rep : BitVec 8) (text : CText) :
    Cell → Except Fault (Cell × Bool)
  | .enum hyVal =>
    let num := (BitVec.ofInt 32 (CText.atoi text)).toInt
    if num = charVal charSigned hyVal then return (.enum hyVal, rep = repeatReport)
    else return (.enum (.ofInt 8 num), true)
  | .num hyVal =>
    let num := BitVec.ofInt 32 (CText.atoi text)
    if num = hyVal then return (.num hyVal, rep = repeatReport) else return (.num num, true)
  | .string hyVal =>
    if hyVal = text then return (.string hyVal, rep = repeatReport)
    else return (.string (← strcpy stringLen text), true)
  | .other valueType => return (.other valueType, true)

/-- What `hylinkSubDevAttrUpdate` returns: an index, -2 or -1. -/
inductive AttrUpdate where
  | success (i : Nat)
  | repeated
  | fail
deriving DecidableEq, Repr

/-- `hylinkSubDevAttrUpdate`; a device has an attribute, so the text of the key is read. -/
def hylinkSubDevAttrUpdate (charSigned : Bool) (hyLinkDev : HyLinkDev) (Data : Json) :
    Except Fault (HyLinkDev × AttrUpdate) :=
  match Data.getObjectItem strKey with
  | none => return (hyLinkDev, .fail)
  | some Key => do
    let key ← valuestring Key
    match hyLinkDev.attr.findIdx? (·.hyKey = key), Data.getObjectItem strValue with
    | some i, some value =>
      let text ← valuestring value
      if text = [] then return (hyLinkDev, .fail)
      match hyLinkDev.attr[i]? with
      | none => .error .memory
      | some a =>
        let (cell, success) ← a.value.receive charSigned a.repeated text
        return ({ hyLinkDev with attr := hyLinkDev.attr.set i { a with value := cell } },
          if success then .success i else .repeated)
    | _, _ => return (hyLinkDev, .fail)

end Honyar.Libhylink
