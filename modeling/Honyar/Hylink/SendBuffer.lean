import Honyar.Lib.Buffer
import Honyar.Lib.JsonPrint
import Honyar.Hylink.Stream
import Honyar.Libhylink.Send
import Honyar.TyZigbee.Send

/-!
# The arrays that messages are framed in

`hylinkDispatch` (hylinkSend.c) of the gateway, of the cloud bridge and of the Zigbee process copies
a text into its `hyLinkSendBuf`, between 0x02 and 0x03, and puts a NUL behind it.  The array of the
cloud bridge is larger than the others, and of a text that is longer than it only what fits is
copied; but 0x03 and NUL are put where they belong behind the whole text.

None of them turns a text away.  What the cloud bridge and the Zigbee process print is short enough
for their arrays, and what the gateway prints of its devices need not be.
-/

namespace Honyar.SendBuffer

open Hylink (stx etx strCommand strReport strDispatch strType strData strDeviceId strModelId strKey
  strValue)
open Faults Option Libhylink Json
open List hiding pure_def

/-- `static char hyLinkSendBuf[n]`. -/
structure SendBuf (n : Nat) where
  bytes : CText
  size : bytes.length = n

def nul : Char := Char.ofNat 0

/-- A text is framed, of which `copied` bytes are copied: what is handed on, and the array. -/
def frame (copied : Nat) (hyLinkSendBuf str : CText) : Except Fault (CText × CText) := do
  let buf ← setByte hyLinkSendBuf 0 stx
  let buf ← strncpyAt buf 1 str copied
  let buf ← setByte buf (str.length + 1) etx
  let buf ← setByte buf (str.length + 2) nul
  return (buf.take (str.length + 2), buf)

namespace Gateway

/-- The size of `hyLinkSendBuf`. -/
def bufLen : Nat := 1024

/-- `hylinkDispatch` of the gateway. -/
def hylinkDispatch (hyLinkSendBuf : SendBuf bufLen) (str : CText) : Except Fault (CText × CText) :=
  frame str.length hyLinkSendBuf.bytes str

/-- `HylinkSendData` of the gateway. -/
structure HylinkSendData where
  DeviceId : CText
  ModelId : CText
  Key : CText
  Value : CText
  Online : CText

/-- `HylinkSend` of the gateway, as far as it is sent. -/
structure HylinkSend where
  Command : BitVec 8
  type : CText
  Data : List HylinkSendData

/-- One pass of the loop of `hylinkSendFunc`. -/
def HylinkSendData.item (d : HylinkSendData) : Json :=
  .object (TyZigbee.addNonempty strDeviceId d.DeviceId ++
    TyZigbee.addNonempty strModelId d.ModelId ++
    TyZigbee.addNonempty strKey d.Key ++ TyZigbee.addNonempty strValue d.Value ++
    TyZigbee.addNonempty TyZigbee.strOnline d.Online)

/-- `hylinkSendFunc` of the gateway: what it prints. -/
def HylinkSend.hylinkSendFunc (s : HylinkSend) : Json :=
  if s.Command = 2 then .object [(strCommand, .string "BeatHeartResponse".toList)]
  else .object [(strCommand, .string (if s.Command = 1 then strDispatch else strReport)),
    (TyZigbee.strFrameNumber, .string ['0', '0']), (strType, .string s.type),
    (strData, .array (s.Data.map HylinkSendData.item))]

/-- A device, as it is copied into a message. -/
def HylinkSendData.ofDev (charSigned : Bool) (dev : Hylink.HylinkDev) : HylinkSendData :=
  ⟨dev.DeviceId, dev.ModelId, [], [], CText.ofInt (Libhylink.charVal charSigned dev.online)⟩

theorem mapM_sendData {charSigned : Bool} {devs : List Hylink.HylinkDev} {Data : List Json}
    (h : devs.mapM (TyZigbee.sendData charSigned) = .ok Data) :
    Data = (devs.map (HylinkSendData.ofDev charSigned)).map HylinkSendData.item := by
  induction devs generalizing Data with
  | nil => exact (Except.ok.inj h).symm
  | cons dev devs ih =>
    rw [mapM_cons] at h
    obtain ⟨d, hd, h⟩ := bind_eq_ok.mp h
    obtain ⟨ds, hds, h⟩ := bind_eq_ok.mp h
    obtain rfl := Except.ok.inj h
    unfold TyZigbee.sendData at hd
    obtain ⟨-, hd⟩ := strcpy_bind_eq_ok.mp hd
    obtain ⟨-, hd⟩ := strcpy_bind_eq_ok.mp hd
    obtain ⟨-, hd⟩ := strcpy_bind_eq_ok.mp hd
    obtain rfl := Except.ok.inj hd
    rw [map_cons, map_cons, ← ih hds]
    have hnone (name : CText) : TyZigbee.addNonempty name [] = [] := if_pos rfl
    simp only [HylinkSendData.item, HylinkSendData.ofDev, hnone, append_nil]

theorem devsInfoJson_eq {charSigned : Bool} {devs : List Hylink.HylinkDev} {json : Json}
    (h : TyZigbee.devsInfoJson charSigned devs = .ok json) :
    json = HylinkSend.hylinkSendFunc
      ⟨1, TyZigbee.strDevsInfo, devs.map (HylinkSendData.ofDev charSigned)⟩ := by
  unfold TyZigbee.devsInfoJson at h
  split at h
  next =>
    obtain ⟨Data, hData, h⟩ := bind_eq_ok.mp h
    obtain rfl := Except.ok.inj h
    rw [mapM_sendData hData]
    rfl
  next => cases h

end Gateway

namespace Bridge

/-- `HYLINK_SEND_BUF_LEN`. -/
def hylinkSendBufLen : Nat := 2050 - 3

/-- `hylinkDispatch` of the cloud bridge. -/
def hylinkDispatch (hyLinkSendBuf : SendBuf (hylinkSendBufLen + 3)) (str : CText) :
    Except Fault (CText × CText) :=
  frame (if str.length > hylinkSendBufLen then hylinkSendBufLen else str.length)
    hyLinkSendBuf.bytes str

end Bridge

namespace Zigbee

/-- The size of `hyLinkSendBuf`. -/
def bufLen : Nat := 1024

/-- `hylinkDispatch` of the Zigbee process. -/
def hylinkDispatch (hyLinkSendBuf : SendBuf bufLen) (str : CText) : Except Fault (CText × CText) :=
  frame str.length hyLinkSendBuf.bytes str

end Zigbee

/-! ## Frames that fit -/

/-- The whole frame is handed on, and nothing behind the array is written. -/
def Sends (r : Except Fault (CText × CText)) (str : CText) : Prop :=
  ∃ buf, r = .ok (stx :: str ++ [etx], buf)

theorem frame_sends_iff {buf str : CText} : Sends (frame str.length buf str) str ↔
    str.length + 3 ≤ buf.length := by
  have hframe : frame str.length buf str =
      (writeAt buf 0 ([stx] ++ str ++ [etx] ++ [nul])).map fun b =>
        (b.take (str.length + 2), b) := by
    simp only [frame, strncpyAt, take_length]
    rw [writeAt_append, writeAt_append, writeAt_append, writeAt_singleton]
    cases setByte buf 0 stx with
    | error e => rfl
    | ok b₁ =>
      simp only [ok_bind, length_append, length_singleton, Nat.zero_add,
        Nat.add_comm 1, writeAt_singleton]
      cases writeAt b₁ 1 str with
      | error e => rfl
      | ok b₂ =>
        simp only [ok_bind]
        cases setByte b₂ (str.length + 1) etx with
        | error e => rfl
        | ok b₃ =>
          rw [ok_bind, ok_bind]
          cases setByte b₃ (str.length + 2) nul <;> rfl
  have hlen : ([stx] ++ str ++ [etx] ++ [nul]).length = str.length + 3 := by
    simp only [length_append, length_singleton]
    omega
  rw [Sends, hframe]
  constructor
  · rintro ⟨b, h⟩
    cases hw : writeAt buf 0 ([stx] ++ str ++ [etx] ++ [nul]) with
    | error e =>
      rw [hw] at h
      cases h
    | ok b' =>
      have hfits := ((writeAt_eq_ok (by simp)).mp hw).1
      omega
  · intro h
    refine ⟨[stx] ++ str ++ [etx] ++ [nul] ++ buf.drop (str.length + 3), ?_⟩
    rw [(writeAt_eq_ok (by simp)).mpr ⟨by omega, rfl⟩, Except.map, hlen, Nat.zero_add,
      take_zero,
      nil_append]
    have htake : ([stx] ++ str ++ [etx] ++ [nul] ++ buf.drop (str.length + 3)).take
        (str.length + 2) = stx :: str ++ [etx] := by
      have hframe : [stx] ++ str ++ [etx] ++ [nul] ++ buf.drop (str.length + 3) =
          (stx :: str ++ [etx]) ++ (nul :: buf.drop (str.length + 3)) := by simp
      rw [hframe, take_left' (by simp)]
    rw [htake]

theorem frame_fits {n : Nat} {buf str : CText} {r : CText × CText} (h : frame n buf str = .ok r) :
    str.length + 3 ≤ buf.length := by
  unfold frame at h
  obtain ⟨b₁, h₁, h⟩ := bind_eq_ok.mp h
  obtain ⟨b₂, h₂, h⟩ := bind_eq_ok.mp h
  obtain ⟨b₃, h₃, h⟩ := bind_eq_ok.mp h
  obtain ⟨b₄, h₄, -⟩ := bind_eq_ok.mp h
  have hpos := (setByte_eq_ok.mp h₄).1
  rw [setByte_length h₃, writeAt_length h₂, setByte_length h₁] at hpos
  omega

theorem gateway_sends_iff (buf : SendBuf Gateway.bufLen) (str : CText) :
    Sends (Gateway.hylinkDispatch buf str) str ↔ str.length ≤ 1021 := by
  rw [Gateway.hylinkDispatch, frame_sends_iff, buf.size, Gateway.bufLen]
  omega

theorem zigbee_sends_iff (buf : SendBuf Zigbee.bufLen) (str : CText) :
    Sends (Zigbee.hylinkDispatch buf str) str ↔ str.length ≤ 1021 := by
  rw [Zigbee.hylinkDispatch, frame_sends_iff, buf.size, Zigbee.bufLen]
  omega

theorem bridge_sends_iff (buf : SendBuf (Bridge.hylinkSendBufLen + 3)) (str : CText) :
    Sends (Bridge.hylinkDispatch buf str) str ↔ str.length ≤ 2047 := by
  unfold Bridge.hylinkDispatch
  constructor
  · rintro ⟨b, h⟩
    have hfits := frame_fits h
    rw [buf.size, Bridge.hylinkSendBufLen] at hfits
    omega
  · intro h
    rw [if_neg (by rw [Bridge.hylinkSendBufLen]; omega), frame_sends_iff, buf.size,
      Bridge.hylinkSendBufLen]
    omega

theorem gateway_sends_iff_hylinkDispatch (buf : SendBuf Gateway.bufLen) (str : CText) :
    Sends (Gateway.hylinkDispatch buf str) str ↔
      Hylink.hylinkDispatch str = some (stx :: str ++ [etx]) := by
  rw [gateway_sends_iff, Hylink.hylinkDispatch, Hylink.sendBufLen]
  split
  next h => exact iff_of_true (by omega) rfl
  next h => exact iff_of_false (by omega) (by simp)

/-! ## Texts that fit -/

section

variable (printNumber : CText → Int → CText)

/-- What members take, each with a colon and a comma. -/
def membersLen (ms : List (CText × Json)) : Nat := (ms.map (Json.memberLen printNumber)).sum

theorem membersLen_append (ms ms' : List (CText × Json)) :
    membersLen printNumber (ms ++ ms') =
      membersLen printNumber ms + membersLen printNumber ms' := by
  simp [membersLen]

theorem membersLen_string (name t : CText) :
    membersLen printNumber [(name, .string t)] ≤
      (Json.printString name).length + 6 * t.length + 4 := by
  have h := memberLen_string_le printNumber name t
  simpa [membersLen] using h

theorem membersLen_member? (name t : CText) :
    membersLen printNumber (Libhylink.member? name t) ≤
      (Json.printString name).length + 6 * t.length + 4 := by
  unfold member?
  split
  · exact Nat.zero_le _
  · exact membersLen_string printNumber name t

theorem membersLen_addNonempty (name t : CText) :
    membersLen printNumber (TyZigbee.addNonempty name t) ≤
      (Json.printString name).length + 6 * t.length + 4 := by
  unfold TyZigbee.addNonempty
  split
  · exact Nat.zero_le _
  · exact membersLen_string printNumber name t

theorem membersLen_addString? (name : CText) (t : Option CText) :
    membersLen printNumber (TyZigbee.addString? name t) ≤
      (Json.printString name).length + 6 * (t.getD []).length + 4 := by
  cases t with
  | none => exact Nat.zero_le _
  | some t => exact membersLen_string printNumber name t

/-- A message with one element takes what its type and its element take. -/
theorem length_print_message (command FrameNumber type : CText) (ms : List (CText × Json)) :
    (Json.print printNumber (.object [(strCommand, .string command),
      (TyZigbee.strFrameNumber, .string FrameNumber), (strType, .string type),
      (strData, .array [.object ms])])).length ≤
      6 * command.length + 6 * FrameNumber.length + 6 * type.length + membersLen printNumber ms +
        53 := by
  have hcommand := membersLen_string printNumber strCommand command
  have hframe := membersLen_string printNumber TyZigbee.strFrameNumber FrameNumber
  have htype := membersLen_string printNumber strType type
  have hdata : membersLen printNumber [(strData, .array [.object ms])] ≤
      membersLen printNumber ms + 12 := by
    have hname : (printString strData).length = 6 := by decide
    simp only [membersLen, memberLen, map_cons, map_nil, sum_cons, sum_nil,
      length_print_array, length_print_object, hname]
    omega
  have hnames : (printString strCommand).length = 9 ∧
      (printString TyZigbee.strFrameNumber).length = 13 ∧
      (printString strType).length = 6 := by decide
  have hsum : membersLen printNumber [(strCommand, .string command),
      (TyZigbee.strFrameNumber, .string FrameNumber), (strType, .string type),
      (strData, .array [.object ms])] =
      membersLen printNumber [(strCommand, .string command)] +
        (membersLen printNumber [(TyZigbee.strFrameNumber, .string FrameNumber)] +
          (membersLen printNumber [(strType, .string type)] +
            membersLen printNumber [(strData, .array [.object ms])])) := by
    rw [← membersLen_append, ← membersLen_append, ← membersLen_append]
    rfl
  rw [length_print_object]
  change membersLen printNumber _ - 1 + 2 ≤ _
  omega

end

/-- The texts of a message to the gateway fit their arrays. -/
structure Bridge.Fits (d : Libhylink.HylinkDevSendData) : Prop where
  type : d.type.length < Libhylink.typeLen
  DeviceId : d.Data.DeviceId.length < Libhylink.deviceIdLen
  ModelId : d.Data.ModelId.length < Libhylink.deviceIdLen
  Key : d.Data.Key.length < Libhylink.deviceIdLen
  Value : d.Data.Value.length < Libhylink.valueLen

theorem Bridge.fits_hyCloudCtrlSend {sn modelId hyType hyKey cloudKey : CText} {payload : Json}
    {d : Libhylink.HylinkDevSendData}
    (h : Libhylink.hyCloudCtrlSend sn modelId hyType hyKey payload cloudKey = .ok d) :
    Bridge.Fits d := by
  unfold hyCloudCtrlSend at h
  obtain ⟨hDeviceId, h⟩ := strcpy_bind_eq_ok.mp h
  obtain ⟨hModelId, h⟩ := strcpy_bind_eq_ok.mp h
  obtain ⟨type, htype, h⟩ := bind_eq_ok.mp h
  obtain ⟨hKey, h⟩ := strcpy_bind_eq_ok.mp h
  obtain ⟨item, -, h⟩ := bind_eq_ok.mp h
  obtain ⟨Value, hValue, h⟩ := bind_eq_ok.mp h
  obtain rfl := Except.ok.inj h
  have hcopy {size : Nat} {t t' : CText} (h : strcpy size t = .ok t') : t'.length < size := by
    obtain ⟨hlt, rfl⟩ := strcpy_eq_ok h
    exact hlt
  refine ⟨?_, hDeviceId, hModelId, hKey, ?_⟩
  · split at htype
    next => exact Except.ok.inj htype ▸ (by decide : strCtrl.length < typeLen)
    next => exact hcopy htype
  · unfold cjsonToStr at hValue
    split at hValue
    next => exact hcopy hValue
    next => exact hcopy hValue

theorem Bridge.length_json_le (printNumber : CText → Int → CText) {d : Libhylink.HylinkDevSendData}
    (h : Bridge.Fits d) : (Json.print printNumber d.json).length ≤ 2047 := by
  have hprint := length_print_message printNumber strDispatch ['0'] d.type
    (member? strDeviceId d.Data.DeviceId ++ member? strModelId d.Data.ModelId ++
      member? strKey d.Data.Key ++ member? strValue d.Data.Value)
  have hDeviceId := membersLen_member? printNumber strDeviceId d.Data.DeviceId
  have hModelId := membersLen_member? printNumber strModelId d.Data.ModelId
  have hKey := membersLen_member? printNumber strKey d.Data.Key
  have hValue := membersLen_member? printNumber strValue d.Data.Value
  have hnames : (printString strDeviceId).length = 10 ∧
      (printString strModelId).length = 9 ∧ (printString strKey).length = 5 ∧
      (printString strValue).length = 7 ∧ strDispatch.length = 8 := by decide
  obtain ⟨h₁, h₂, h₃, h₄, h₅⟩ := h
  simp only [typeLen, deviceIdLen, valueLen] at h₁ h₂ h₃ h₄ h₅
  simp only [membersLen_append, length_singleton] at hprint
  refine le_trans hprint ?_
  omega

namespace Zigbee

/-- The names that devices and profiles have fit their arrays. -/
structure Named (profiles : List TyZigbee.ZigbeeModel) (hyMap : List TyZigbee.HylinkDev) :
    Prop where
  ModelId : ∀ dev ∈ hyMap, dev.ModelId.length < TyZigbee.textLen
  report_modelId : ∀ zDev ∈ profiles, zDev.report_modelId.length < TyZigbee.textLen

variable {profiles : List TyZigbee.ZigbeeModel} {hyMap : List TyZigbee.HylinkDev}

theorem Named.modelOf (h : Named profiles hyMap) {DeviceId m : CText}
    (hm : TyZigbee.HylinkSend.modelOf profiles hyMap DeviceId = some m) : m.length < 33 := by
  unfold TyZigbee.HylinkSend.modelOf at hm
  simp only [bind_eq_bind, bind_eq_some_iff, pure_def, some.injEq] at hm
  obtain ⟨hyDev, hget, zDev, hz, rfl⟩ := hm
  split
  · exact h.report_modelId zDev (mem_of_find?_eq_some hz)
  · exact h.ModelId hyDev (mem_of_find?_eq_some hget)

theorem Named.singleModelOf (h : Named profiles hyMap) {DeviceId m : CText}
    (hm : TyZigbee.HylinkSend.singleModelOf profiles hyMap DeviceId = some m) : m.length < 33 := by
  unfold TyZigbee.HylinkSend.singleModelOf TyZigbee.ZigbeeModel.reported at hm
  simp only [bind_eq_bind, bind_eq_some_iff, pure_def, some.injEq] at hm
  obtain ⟨hyDev, hget, zDev, hz, rfl⟩ := hm
  split
  · exact h.ModelId hyDev (mem_of_find?_eq_some hget)
  · exact h.report_modelId zDev (mem_of_find?_eq_some hz)

theorem length_report_le (printNumber : CText → Int → CText) {type : CText}
    {ms : List (CText × Json)} {a b c d : CText} (htype : type.length < 12)
    (hms : membersLen printNumber ms ≤ 10 + 6 * a.length + 4 + (9 + 6 * b.length + 4) +
      (5 + 6 * c.length + 4) + (7 + 6 * d.length + 4))
    (ha : a.length < 33) (hb : b.length < 33) (hc : c.length < 33) (hd : d.length < 33) :
    (Json.print printNumber (TyZigbee.reportArray type [.object ms])).length ≤ 1021 := by
  have hprint := length_print_message printNumber strReport ['0', '0'] type ms
  have hreport : strReport.length = 6 := by decide
  refine le_trans hprint ?_
  simp only [length_cons, length_nil]
  omega

/-- The texts of a report fit their arrays. -/
structure Fits (type DeviceId : CText) (ModelId Key Value : Option CText) : Prop where
  type : type.length < 12
  DeviceId : DeviceId.length < TyZigbee.textLen
  ModelId : (ModelId.getD []).length < TyZigbee.textLen
  Key : (Key.getD []).length < TyZigbee.textLen
  Value : (Value.getD []).length < TyZigbee.textLen

theorem length_single_le (printNumber : CText → Int → CText) (hnamed : Named profiles hyMap)
    {type DeviceId : CText} {ModelId Key Value : Option CText}
    (h : Fits type DeviceId ModelId Key Value) {json : Json}
    (hjson :
      TyZigbee.HylinkSend.hylinkSendSingleFunc profiles hyMap DeviceId ModelId type Key Value =
      some json) : (Json.print printNumber json).length ≤ 1021 := by
  unfold TyZigbee.HylinkSend.hylinkSendSingleFunc at hjson
  obtain ⟨m, hm, hjson⟩ := bind_eq_some_iff.mp hjson
  obtain rfl := some.inj hjson
  have hmodel : m.length < 33 := by
    cases ModelId with
    | none => exact hnamed.singleModelOf hm
    | some t => exact some.inj hm ▸ h.ModelId
  have hnames : (printString strDeviceId).length = 10 ∧
      (printString strModelId).length = 9 ∧ (printString strKey).length = 5 ∧
      (printString strValue).length = 7 := by decide
  refine length_report_le printNumber (a := DeviceId) (b := m) (c := Key.getD [])
    (d := Value.getD [])
    h.type ?_ h.DeviceId hmodel h.Key h.Value
  have hDeviceId := membersLen_string printNumber strDeviceId DeviceId
  have hModelId := membersLen_string printNumber strModelId m
  have hKey := membersLen_addString? printNumber strKey Key
  have hValue := membersLen_addString? printNumber strValue Value
  have hpair : [(strDeviceId, string DeviceId), (strModelId, .string m)] =
      [(strDeviceId, .string DeviceId)] ++ [(strModelId, .string m)] := rfl
  rw [membersLen_append, membersLen_append, hpair, membersLen_append]
  omega

/-- The texts of an element fit their arrays. -/
structure ElementFits (type : CText) (d : TyZigbee.HylinkSendData) : Prop where
  type : type.length < 12
  DeviceId : d.DeviceId.length < 24
  ModelId : d.ModelId.length < 24
  Key : d.Key.length < 24
  Value : d.Value.length < 16

theorem length_element_le (printNumber : CText → Int → CText) (hnamed : Named profiles hyMap)
    {type : CText} {d : TyZigbee.HylinkSendData} (h : ElementFits type d) {json : Json}
    (hjson : TyZigbee.HylinkSend.hylinkSendFunc profiles hyMap ⟨type, [d]⟩ = some json) :
    (Json.print printNumber json).length ≤ 1021 := by
  rw [TyZigbee.HylinkSend.hylinkSendFunc_singleton, TyZigbee.HylinkSend.arrayItem] at hjson
  obtain ⟨item, hitem, rfl⟩ := map_eq_some_iff.mp hjson
  obtain ⟨m, hm, hitem⟩ := bind_eq_some_iff.mp hitem
  obtain rfl := some.inj hitem
  have hmodel : m.length < 33 := by
    split at hm
    next => exact hnamed.modelOf hm
    next => exact some.inj hm ▸ lt_trans h.ModelId (by decide)
  have hnames : (printString strDeviceId).length = 10 ∧
      (printString strModelId).length = 9 ∧ (printString strKey).length = 5 ∧
      (printString strValue).length = 7 := by decide
  refine length_report_le printNumber (a := d.DeviceId) (b := m) (c := d.Key)
    (d := d.Value) h.type ?_
    (lt_trans h.DeviceId (by decide)) hmodel (lt_trans h.Key (by decide))
    (lt_trans h.Value (by decide))
  have hDeviceId := membersLen_addNonempty printNumber strDeviceId d.DeviceId
  have hModelId := membersLen_string printNumber strModelId m
  have hKey := membersLen_addNonempty printNumber strKey d.Key
  have hValue := membersLen_addNonempty printNumber strValue d.Value
  rw [membersLen_append, membersLen_append, membersLen_append]
  omega

end Zigbee

/-! ## All senders -/

/-- A frame is handed on whole exactly when its text has at most 1021 bytes, of the cloud bridge
2047.  The cloud bridge and the Zigbee process print no longer ones. -/
theorem hylinkDispatch_sends_iff (printNumber : CText → Int → CText) (str : CText)
    (gateway : SendBuf Gateway.bufLen) (bridge : SendBuf (Bridge.hylinkSendBufLen + 3))
    (zigbee : SendBuf Zigbee.bufLen) :
    (Sends (Gateway.hylinkDispatch gateway str) str ↔ str.length ≤ 1021) ∧
    (Sends (Bridge.hylinkDispatch bridge str) str ↔ str.length ≤ 2047) ∧
    (Sends (Zigbee.hylinkDispatch zigbee str) str ↔ str.length ≤ 1021) ∧
    (∀ d, Bridge.Fits d → (Json.print printNumber d.json).length ≤ 2047) ∧
    ∀ profiles hyMap, Zigbee.Named profiles hyMap →
      (∀ type DeviceId ModelId Key Value, Zigbee.Fits type DeviceId ModelId Key Value →
        ∀ json, TyZigbee.HylinkSend.hylinkSendSingleFunc profiles hyMap DeviceId ModelId type Key
          Value = some json → (Json.print printNumber json).length ≤ 1021) ∧
      ∀ type d, Zigbee.ElementFits type d →
        ∀ json, TyZigbee.HylinkSend.hylinkSendFunc profiles hyMap ⟨type, [d]⟩ = some json →
          (Json.print printNumber json).length ≤ 1021 :=
  ⟨gateway_sends_iff gateway str, bridge_sends_iff bridge str, zigbee_sends_iff zigbee str,
    fun _ => Bridge.length_json_le printNumber, fun _ _ hnamed =>
      ⟨fun _ _ _ _ _ h _ => Zigbee.length_single_le printNumber hnamed h,
        fun _ _ h _ => Zigbee.length_element_le printNumber hnamed h⟩⟩

namespace Sample

/-- A device as it is listed. -/
def dev (i : Nat) : Hylink.HylinkDev :=
  ⟨Nat.digitChar i :: "4c138000000000f".toList, "_TYZB01_mq6qwmfy".toList, 1⟩

def devs : List Hylink.HylinkDev := (List.range 13).map dev

/-- The answer about thirteen devices. -/
def answer : Json := Gateway.HylinkSend.hylinkSendFunc ⟨1, TyZigbee.strDevsInfo,
  devs.map (Gateway.HylinkSendData.ofDev true)⟩

end Sample

open Sample in
theorem hylinkDispatch_sends_sample :
    ∀ json, TyZigbee.HylinkSend.hylinkSendSingleFunc [] [] ['d'] (some ['m']) ['t']
      (some ['k']) none =
      some json → (Json.print (fun t _ => t) json).length ≤ 1021 :=
  ((hylinkDispatch_sends_iff (fun t _ => t) [] ⟨List.replicate 1024 nul, List.length_replicate ..⟩
    ⟨List.replicate 2050 nul, List.length_replicate ..⟩
    ⟨List.replicate 1024 nul, List.length_replicate ..⟩).2.2.2.2 [] []
      ⟨fun _ hdev => absurd hdev List.not_mem_nil, fun _ hz => absurd hz List.not_mem_nil⟩).1 ['t']
        ['d'] (some ['m']) (some ['k']) none
        ⟨by decide, by decide, by decide, by decide, by decide⟩

set_option maxRecDepth 20000 in
open Sample in
/-- Of thirteen devices the gateway cannot tell in one message. -/
theorem gateway_answer_too_long :
    ¬ ∀ (printNumber : CText → Int → CText) (charSigned : Bool) (devs : List Hylink.HylinkDev)
      (json : Json) (buf : SendBuf Gateway.bufLen),
      TyZigbee.devsInfoJson charSigned devs = .ok json →
        Sends (Gateway.hylinkDispatch buf (Json.print printNumber json))
          (Json.print printNumber json) := by
  intro h
  have hok : TyZigbee.devsInfoJson true devs = .ok answer := by rfl
  have hsends := h (fun t _ => t) true devs answer
    ⟨List.replicate 1024 nul, List.length_replicate ..⟩ hok
  rw [gateway_sends_iff] at hsends
  revert hsends
  decide

end Honyar.SendBuffer
