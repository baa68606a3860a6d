import Honyar.Lib.CText
import Honyar.Lib.Memory

/-!
# Zigbee attribute frames

`zigbeeZclReport` of zigbeeReport.c and `getZcl3DataType` of tyZigbeeZcl3.c: the
walk over the message of a frame.  The message is memory without an end, since
the walk does not look at its length but at the head of its loops; what it reads
and what it hands to `zigbeeReport` is kept in the order it does so.
-/

namespace Honyar.TyZigbee

/-! ## Data types -/

/-- `enum ZCL_DATA_TYPE`. -/
inductive ZclDataType where
  | noData | data8 | data16 | data24 | data32 | data40 | data48 | data56 | data64 | boolean
  | bitmap8 | bitmap16 | bitmap24 | bitmap32 | bitmap40 | bitmap48 | bitmap56 | bitmap64
  | uint8 | uint16 | uint24 | uint32 | uint40 | uint48 | uint56 | uint64
  | int8 | int16 | int24 | int32 | int40 | int48 | int56 | int64
  | enum8 | enum16 | semiPrecision | singlePrecision | doublePrecision
  | octetString | charString | longOctetString | longCharString | array | struct | set | bag
  | timeOfDate | date | uctTime | clusterId | attributeId | bacNetOid | ieeeAddress
  | securityKey128 | unknow
deriving DecidableEq

namespace ZclDataType

/-- The values of the enumeration. -/
def value : ZclDataType → UInt8
  | noData => 0x00
  | data8 => 0x08
  | data16 => 0x09
  | data24 => 0x0a
  | data32 => 0x0b
  | data40 => 0x0c
  | data48 => 0x0d
  | data56 => 0x0e
  | data64 => 0x0f
  | boolean => 0x10
  | bitmap8 => 0x18
  | bitmap16 => 0x19
  | bitmap24 => 0x1a
  | bitmap32 => 0x1b
  | bitmap40 => 0x1c
  | bitmap48 => 0x1d
  | bitmap56 => 0x1e
  | bitmap64 => 0x1f
  | uint8 => 0x20
  | uint16 => 0x21
  | uint24 => 0x22
  | uint32 => 0x23
  | uint40 => 0x24
  | uint48 => 0x25
  | uint56 => 0x26
  | uint64 => 0x27
  | int8 => 0x28
  | int16 => 0x29
  | int24 => 0x2a
  | int32 => 0x2b
  | int40 => 0x2c
  | int48 => 0x2d
  | int56 => 0x2e
  | int64 => 0x2f
  | enum8 => 0x30
  | enum16 => 0x31
  | semiPrecision => 0x38
  | singlePrecision => 0x39
  | doublePrecision => 0x3a
  | octetString => 0x41
  | charString => 0x42
  | longOctetString => 0x43
  | longCharString => 0x44
  | array => 0x48
  | struct => 0x4c
  | set => 0x50
  | bag => 0x51
  | timeOfDate => 0xe0
  | date => 0xe1
  | uctTime => 0xe2
  | clusterId => 0xe8
  | attributeId => 0xe9
  | bacNetOid => 0xea
  | ieeeAddress => 0xf0
  | securityKey128 => 0xf1
  | unknow => 0xff

/-- The enumeration, in its order. -/
def all : List ZclDataType :=
  [noData, data8, data16, data24, data32, data40, data48, data56, data64, boolean,
    bitmap8, bitmap16, bitmap24, bitmap32, bitmap40, bitmap48, bitmap56, bitmap64,
    uint8, uint16, uint24, uint32, uint40, uint48, uint56, uint64,
    int8, int16, int24, int32, int40, int48, int56, int64,
    enum8, enum16, semiPrecision, singlePrecision, doublePrecision,
    octetString, charString, longOctetString, longCharString, array, struct, set, bag,
    timeOfDate, date, uctTime, clusterId, attributeId, bacNetOid, ieeeAddress,
    securityKey128, unknow]

/-- The type a byte stands for. -/
def ofByte? (b : UInt8) : Option ZclDataType := all.find? fun t => t.value == b

end ZclDataType

/-- Where the length of a value comes from. -/
inductive Layout where
  | fixed (byteLen : Nat)
  | counted (realShift : Nat)
deriving DecidableEq

open ZclDataType in
/-- The cases of the switch of `getZcl3DataType`; `none` is its default. -/
def ZclDataType.layout? : ZclDataType → Option Layout
  | noData | unknow => some (.fixed 0)
  | boolean | data8 | bitmap8 | uint8 | int8 | enum8 => some (.fixed 1)
  | data16 | bitmap16 | uint16 | int16 | enum16 | semiPrecision | clusterId | attributeId =>
    some (.fixed 2)
  | data24 | bitmap24 | uint24 | int24 => some (.fixed 3)
  | data32 | bitmap32 | uint32 | int32 | singlePrecision | timeOfDate | date | uctTime
  | bacNetOid => some (.fixed 4)
  | data40 | bitmap40 | uint40 | int40 => some (.fixed 5)
  | data48 | bitmap48 | uint48 | int48 => some (.fixed 6)
  | data56 | bitmap56 | uint56 | int56 => some (.fixed 7)
  | data64 | bitmap64 | uint64 | int64 | doublePrecision | ieeeAddress => some (.fixed 8)
  | securityKey128 => some (.fixed 16)
  | octetString | charString => some (.counted 1)
  | longOctetString | longCharString => some (.counted 2)
  | array | struct | set | bag => none

/-- What `getZcl3DataType` finds: the length, `realShift`, and the bytes it looks
at. -/
structure TypeLen where
  byteLen : Nat
  realShift : Nat
  reads : List Nat

/-- `getZcl3DataType`, on the memory from `data` on. -/
def getZcl3DataType (dataType : UInt8) (message : Memory UInt8) (data : Nat) : TypeLen :=
  match (ZclDataType.ofByte? dataType).bind ZclDataType.layout? with
  | some (.fixed byteLen) => ⟨byteLen, 0, []⟩
  | some (.counted 1) => ⟨(message data).toNat, 1, [data]⟩
  | some (.counted _) =>
    ⟨(message data).toNat + (message (data + 1)).toNat <<< 8, 2, [data, data + 1]⟩
  | none => ⟨0, 0, []⟩

/-! ## The walk -/

/-- A call of `zigbeeReport`: the value is the `inLen` bytes from `value` on. -/
structure Report where
  attributeId : Int
  value : Nat
  inLen : Nat
deriving DecidableEq

/-- What a walk reads and what it reports. -/
structure Walk where
  reads : List Nat
  reports : List Report

/-- Nothing. -/
def Walk.done : Walk := ⟨[], []⟩

/-- `message[i] + (message[i + 1] << 8)`. -/
def shortAt (message : Memory UInt8) (i : Nat) : Nat :=
  (message i).toNat + (message (i + 1)).toNat <<< 8

/-- The type at `index`, and the value behind it. -/
def valueAt (message : Memory UInt8) (attributeId index : Nat) : Walk × Nat :=
  let r := getZcl3DataType (message index) message (index + 1)
  (⟨index :: r.reads, [⟨attributeId, index + 1 + r.realShift, r.byteLen⟩]⟩,
    index + 1 + (r.byteLen + r.realShift))

/-- One walk after another. -/
def Walk.append (v w : Walk) : Walk := ⟨v.reads ++ w.reads, v.reports ++ w.reports⟩

theorem lt_valueAt (message : Memory UInt8) (attributeId index : Nat) :
    index < (valueAt message attributeId index).2 := by
  rw [valueAt]
  omega

/-- The loop of `REPORT_ATTRIBUTES`. -/
def reportAttributes (message : Memory UInt8) (msgLength index : Nat) : Walk :=
  if index < msgLength then
    let v := valueAt message (shortAt message index) (index + 2)
    (Walk.append ⟨[index, index + 1], []⟩ v.1).append (reportAttributes message msgLength v.2)
  else .done
termination_by msgLength - index
decreasing_by
  have := lt_valueAt message (shortAt message index) (index + 2)
  omega

/-- The loop of `READ_ATTRIBUTES_RESPONSE`; a status that is not 0 ends it. -/
def readAttributesResponse (message : Memory UInt8) (msgLength index : Nat) : Walk :=
  if index < msgLength then
    let head : Walk := ⟨[index, index + 1, index + 2], []⟩
    if message (index + 2) ≠ 0 then head
    else
      let v := valueAt message (shortAt message index) (index + 3)
      (head.append v.1).append (readAttributesResponse message msgLength v.2)
  else .done
termination_by msgLength - index
decreasing_by
  have := lt_valueAt message (shortAt message index) (index + 3)
  omega

/-! ## Frames -/

/-- `Z3_CMD_TYPE_PRIVATE`. -/
def z3CmdTypePrivate : UInt8 := 0x02

/-- `ZCL_PRIVATE_CLUSTER`. -/
def zclPrivateCluster : UInt16 := 0xef00

/-- The private commands that carry data: `TY_DATA_RESPONE` to `TY_DATA_MODULE`. -/
def tyData : List UInt8 := [0x01, 0x02, 0x03, 0x05, 0x06]

/-- `TUYA_MCU_VERSION_RSP`. -/
def tuyaMcuVersionRsp : UInt8 := 0x11

/-- The general commands that are looked at. -/
def readAttributesResponseId : UInt8 := 0x01
def writeAttributesResponseId : UInt8 := 0x04
def reportAttributesId : UInt8 := 0x0a

/-- `ty_z3_aps_frame_s`, the fields the walk needs. -/
structure Frame where
  id : CText
  clusterId : UInt16
  cmdType : UInt8
  cmdId : UInt8
  msgLength : Nat
  message : Memory UInt8

/-- `zigbeeDev`, the field the walk needs. -/
structure ZigbeeDev where
  manuName : CText

/-- The private commands of the private cluster.  `TUYA_MCU_SYNC_TIME` answers with
a message of its own and reads nothing. -/
def privateReport (frame : Frame) : Walk :=
  if frame.cmdId ∈ tyData then
    let dataTypeLen := (frame.message 4).toNat <<< 8 + (frame.message 5).toNat
    ⟨[2, 3, 4, 5], [⟨(frame.message 2).toNat, 6, dataTypeLen⟩]⟩
  else if frame.cmdId = tuyaMcuVersionRsp then ⟨[2], []⟩
  else .done

/-- `zigbeeZclReport`, with the devices of both lists. -/
def zigbeeZclReport (hylinkListGet : CText → Option CText)
    (zigbeeListGet : CText → Option ZigbeeDev) (frame : Frame) : Walk :=
  match (hylinkListGet frame.id).bind zigbeeListGet with
  | none => .done
  | some zDev =>
    if frame.cmdType = z3CmdTypePrivate then
      if frame.clusterId = zclPrivateCluster then privateReport frame
      else if zDev.manuName = "_TYZB01_kw2okqc3".toList then ⟨[], [⟨-1, 0, 1⟩]⟩
      else .done
    else if frame.cmdId = readAttributesResponseId then
      readAttributesResponse frame.message frame.msgLength 0
    else if frame.cmdId = reportAttributesId then
      reportAttributes frame.message frame.msgLength 0
    else if frame.cmdId = writeAttributesResponseId then
      ⟨List.range frame.msgLength, []⟩
    else .done

end Honyar.TyZigbee
