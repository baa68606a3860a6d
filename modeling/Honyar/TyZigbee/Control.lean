import Honyar.Lib.Base64
import Honyar.Lib.Buffer
import Honyar.TyZigbee.Process
import Honyar.TyZigbee.Report

/-!
# Control frames

How a key and a value become a frame (zigbeeDispatch.c, zigbeeManage.c): the attribute is looked up
in the profile of the device, its value is converted into the message, and the frame is sent.  A key
without an attribute may be a scene of the profile, which stands for several keys.

The functions in Python are a parameter, which gives a text or fails; with the text they return its
length.  What a variable holds that is not set is a parameter too, and so is what sending returns.
-/

namespace Honyar.TyZigbee

open Hylink (strToNum)

/-! ## Profiles -/

/-- `ZigbeeAttr`. -/
structure ZigbeeAttr where
  hyKey : CText
  hyKeyPrivate : BitVec 8
  srcEndpoint : UInt8
  dstEndpoint : UInt8
  AttributeId : UInt16
  ClusterId : UInt16
  z3CmdType : BitVec 8
  z3CmdId : BitVec 8
  dataType : UInt8
deriving DecidableEq, Repr

/-- `SceneAttr`. -/
structure SceneAttr where
  key : CText
  value : List CText
deriving DecidableEq, Repr

/-- `zigbeeDev`, with the lists that its lengths count. -/
structure ZigbeeProfile extends ZigbeeModel where
  heart_type : BitVec 8
  heartbeatTime : Int
  attr : List ZigbeeAttr
  sceneAttr : List SceneAttr
deriving DecidableEq, Repr

/-! ## Conversion -/

def strUp : CText := "up".toList
def strDown : CText := "down".toList

/-- `ConverDesc`, without the pointers. -/
structure ConverDesc where
  modelId : CText
  hyKey : CText
  hyKeyPrivate : BitVec 8
  inLen : Int

/-- A function of a Python file, by the names of both: the text it makes of a text and a length. -/
abbrev Python := CText → CText → CText → Int → Option CText

/-- The name of the function, of which `hkey[24]` holds the part of the key. -/
def functionName (key dir : CText) : Except Fault CText :=
  let hkey := match key.findIdx? (· = '_') with
    | some pos => key.take (pos + 1)
    | none => key
  if hkey.length < 24 then .ok (hkey ++ dir) else .error .memory

/-- `hyLinkConver`, up to the copy of the text. -/
def hyLinkConver (python : Python) (modelId key dir input : CText) (inLen : Int) :
    Except Fault (Option CText) := do
  return python modelId (← functionName key dir) input inLen

/-- The bytes of a text. -/
def bytesOf (t : CText) : List UInt8 := t.map fun c => UInt8.ofNat c.toNat

def strSceName : CText := "SceName_".toList
def strScePhoto : CText := "ScePhoto_".toList

/-- A key with a number. -/
def isScene (hyKey : CText) : Bool := strSceName.isPrefixOf hyKey || strScePhoto.isPrefixOf hyKey

/-- The low byte of a number. -/
def lowByte (n : Int) : UInt8 := UInt8.ofBitVec (.ofInt 8 n)

/-- The number of a key with a number, as two bytes, from `out` on. -/
def writeNumber (num : Int) (hyKey : CText) (msg : List UInt8) (out : Nat) :
    Except Fault (List UInt8) :=
  let num := (strToNum ((hyKey.dropWhile (· ≠ '_')).drop 1)).getD num - 1
  writeAt msg out [lowByte (num >>> (8 : Nat)), lowByte num]

/-- The text of a function in Python is copied to `out`, and its bytes over it. -/
def writeConverted (msg : List UInt8) (out : Nat) : Option CText → Except Fault (List UInt8 × Nat)
  | none => return (msg, 0)
  | some text => do
    let msg ← writeAt msg out (bytesOf text ++ [0])
    let msg ← writeAt msg out (Base64.decode text)
    return (msg, (Base64.decode text).length)

/-- `hylinkValueConversion`, down: what it writes into the message from `out` on, and its result.
`num` is what the number holds that is not set. -/
def conversionDown (python : Python) (num : Int) (converDesc : ConverDesc) (input : CText)
    (msg : List UInt8) (out : Nat) : Except Fault (List UInt8 × Int) :=
  if converDesc.inLen = 0 then return (msg, -1)
  else if converDesc.hyKeyPrivate = 0 then do
    let msg ← setByte msg out (lowByte ((strToNum input).getD num))
    return (msg, 1)
  else do
    let privatekeyLen := if isScene converDesc.hyKey then 2 else 0
    let msg ← (if isScene converDesc.hyKey then writeNumber num converDesc.hyKey msg out
      else .ok msg : Except Fault (List UInt8))
    let text ← hyLinkConver python converDesc.modelId converDesc.hyKey strDown input
      converDesc.inLen
    let (msg, outLen) ← writeConverted msg (out + privatekeyLen) text
    return (msg, outLen + privatekeyLen)

/-- The size of `converData`. -/
def converDataLen : Nat := 33

/-- `hylinkValueConversion`, up, of the bytes `input`: the key and the text it reports. -/
def conversionUp (python : Python) (converDesc : ConverDesc) (input : List UInt8) :
    Except Fault (CText × CText) :=
  match input with
  | [] => return (converDesc.hyKey, [])
  | b :: bs =>
    if converDesc.hyKeyPrivate = 0 then return (converDesc.hyKey, CText.ofInt b.toNat)
    else do
      let (hyKey, input) ← (if converDesc.hyKey = strSceName ∨ converDesc.hyKey = strScePhoto then
          match bs with
          | [] => .error .memory
          | b' :: bs =>
            .ok (converDesc.hyKey ++ CText.ofInt ((b.toNat <<< 8 + b'.toNat : Nat) + 1), bs)
        else .ok (converDesc.hyKey, b :: bs) : Except Fault (CText × List UInt8))
      let encoded := Base64.encode input
      let text ← hyLinkConver python converDesc.modelId hyKey strUp encoded encoded.length
      return (hyKey, ← strcpy converDataLen (text.getD []))

/-! ## Frames -/

/-- `ty_z3_aps_frame_s`, as far as it differs between frames. -/
structure ApsFrame where
  cluster_id : UInt16
  src_endpoint : UInt8
  dst_endpoint : UInt8
  cmd_type : UInt8
  cmd_id : UInt8
  msg_length : UInt16
  message : List UInt8
deriving DecidableEq, Repr

/-- What variables hold that are not set. -/
structure Unset where
  num : Int
  cmdId : UInt8
  msgLen : UInt16

/-- `Z3_CMD_TYPE_GLOBAL` and `Z3_CMD_TYPE_ZDO`. -/
def z3CmdTypeGlobal : UInt8 := 0x01
def z3CmdTypeZdo : UInt8 := 0x03

/-- `READ_ATTRIBUTE` and `WRITE_ATTRIBUTES`. -/
def readAttribute : UInt8 := 0x00
def writeAttributes : UInt8 := 0x02

/-- The bytes of a number in memory. -/
def memoryBytes (n : UInt16) : List UInt8 := [n.toUInt8, (n >>> 8).toUInt8]

/-- `getZcl3ProvateDataType`. -/
def getZcl3ProvateDataType (dataType : UInt8) : Int :=
  if dataType = 0 ∨ dataType = 3 then 0xff
  else if dataType = 1 ∨ dataType = 4 then 1
  else if dataType = 2 then 4
  else -1

/-- `getZcl3DataType` without data: a length that stands in the data is not there. -/
def dataTypeLength (dataType : UInt8) : Except Fault Nat :=
  match (ZclDataType.ofByte? dataType).bind ZclDataType.layout? with
  | some (.fixed byteLen) => .ok byteLen
  | some (.counted _) => .error .missing
  | none => .ok 0

variable (charSigned : Bool) (python : Python) (unset : Unset)

/-- `zigbeeZclQuery`: the frame it sends. -/
def zigbeeZclQuery (attr : ZigbeeAttr) (msg : List UInt8) : Except Fault ApsFrame := do
  if attr.ClusterId = zclPrivateCluster then
    let msg ← writeAt msg 0 [0, 0]
    let msg ← setByte msg 2 attr.AttributeId.toUInt8
    let cmdId := if charSigned then attr.z3CmdId.sshiftRight 4 else attr.z3CmdId >>> 4
    return ⟨attr.ClusterId, attr.srcEndpoint, attr.dstEndpoint, z3CmdTypePrivate,
      UInt8.ofBitVec cmdId, 3, msg⟩
  else
    let msg ← writeAt msg 0 (memoryBytes attr.AttributeId)
    return ⟨attr.ClusterId, attr.srcEndpoint, attr.dstEndpoint, z3CmdTypeGlobal, readAttribute, 2,
      msg⟩

/-- `zigbeeZclCtrl`: the frame it sends, if it does. -/
def zigbeeZclCtrl (attr : ZigbeeAttr) (modelId key value : CText) (msg : List UInt8) :
    Except Fault (Option ApsFrame) := do
  let hyKey ← strcpy textLen key
  let converDesc (inLen : Int) : ConverDesc := ⟨modelId, hyKey, attr.hyKeyPrivate, inLen⟩
  let cmdType := UInt8.ofBitVec attr.z3CmdType
  let frame (cmdId : UInt8) (msgLen : UInt16) (msg : List UInt8) : ApsFrame :=
    ⟨attr.ClusterId, attr.srcEndpoint, attr.dstEndpoint, cmdType, cmdId, msgLen, msg⟩
  if attr.ClusterId = zclPrivateCluster then
    let msg ← writeAt msg 0 [0, 0]
    let msg ← setByte msg 2 attr.AttributeId.toUInt8
    let msg ← setByte msg 3 attr.dataType
    let (msg, dataTypeLen) ← conversionDown python unset.num
      (converDesc (getZcl3ProvateDataType attr.dataType)) value msg 6
    let msg ← setByte msg 4 (lowByte (dataTypeLen >>> (8 : Nat)))
    let msg ← setByte msg 5 (lowByte dataTypeLen)
    return some (frame (UInt8.ofBitVec (attr.z3CmdId &&& 0x0f)) (.ofInt (dataTypeLen + 6)) msg)
  else
    let dataTypeLen ← dataTypeLength attr.dataType
    if cmdType = z3CmdTypeGlobal then
      let msg ← writeAt msg 0 (memoryBytes attr.AttributeId)
      let msg ← setByte msg 2 attr.dataType
      let (msg, dataTypeLen) ← conversionDown python unset.num (converDesc dataTypeLen) value msg 3
      return some (frame writeAttributes (.ofInt (dataTypeLen + 3)) msg)
    else if cmdType = z3CmdTypePrivate then
      let (msg, msgLen) ← conversionDown python unset.num (converDesc dataTypeLen) value msg 0
      if attr.z3CmdId = 0 then return some (frame (msg.headD 0) 0 msg)
      else return some (frame (UInt8.ofBitVec (attr.z3CmdId &&& 0x0f)) (.ofInt msgLen) msg)
    else if cmdType = z3CmdTypeZdo then return some (frame unset.cmdId unset.msgLen msg)
    else return none

/-! ## Dispatch -/

/-- The loop of `zigbeeDevZclDispatch`: the attribute whose key the key starts with. -/
def attrOf (attrs : List ZigbeeAttr) (key : CText) : Option ZigbeeAttr :=
  attrs.find? fun attr => CText.strncmpEq attr.hyKey.length key attr.hyKey

/-- The message, and the frames that were sent. -/
structure Outgoing where
  msg : List UInt8
  frames : List ApsFrame

/-- `tuyaZclSend`, with what it returns. -/
def Outgoing.tuyaZclSend (o : Outgoing) (send : ApsFrame → Int) (frame : ApsFrame) :
    Outgoing × Int :=
  (⟨frame.message, o.frames ++ [frame]⟩, send frame)

variable (send : ApsFrame → Int)

/-- `zigbeeDevZclDispatch`, and what it returns. -/
def zigbeeDevZclDispatch (zDev : ZigbeeProfile) (key value : Option CText) (o : Outgoing) :
    Except Fault (Outgoing × Int) :=
  match key with
  | none => do
    let o ← zDev.attr.foldlM (fun o attr => do
      return (o.tuyaZclSend send (← zigbeeZclQuery charSigned attr o.msg)).1) o
    return (o, 0)
  | some key =>
    match attrOf zDev.attr key with
    | none => return (o, -1)
    | some attr =>
      match value with
      | none => do return o.tuyaZclSend send (← zigbeeZclQuery charSigned attr o.msg)
      | some value => do
        match ← zigbeeZclCtrl python unset attr zDev.manuName key value o.msg with
        | none => return (o, -1)
        | some frame => return o.tuyaZclSend send frame

/-- The keys of a scene are dispatched, and what the last one returns. -/
def dispatchAll (zDev : ZigbeeProfile) (value : Option CText) (keys : List CText) (o : Outgoing)
    (res : Int) : Except Fault (Outgoing × Int) :=
  keys.foldlM (fun r key =>
    zigbeeDevZclDispatch charSigned python unset send zDev (some key) value r.1) (o, res)

/-- `zigbeeZclDispatch` of a device and its profile, with its frames. -/
def zigbeeZclDispatch (zDev : ZigbeeProfile) (key value : Option CText) :
    Except Fault (List ApsFrame × Int) := do
  let (o, res) ← zigbeeDevZclDispatch charSigned python unset send zDev key value
    ⟨List.replicate 33 0, []⟩
  if res < 0 then
    let key ← (match key with
      | some key => .ok key
      | none => .error .missing : Except Fault CText)
    match zDev.sceneAttr.find? (·.key = key) with
    | none => return (o.frames, -1)
    | some scene =>
      let (o, res) ← dispatchAll charSigned python unset send zDev value scene.value o res
      return (o.frames, res)
  else return (o.frames, res)

end Honyar.TyZigbee
