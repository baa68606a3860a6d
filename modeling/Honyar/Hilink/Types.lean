import Honyar.Libhylink.Types

/-!
# Devices of the HiLink bridge

The tables of models and attributes (local_device.c, cloud_send.c), the fields a device keeps for
its model (local_device.h), and the lists of devices on both sides.  The tables belong together
by the position of their entries only.
-/

namespace Honyar.Hilink

open Libhylink (charVal)

def strKey : CText := "Key".toList
def strValue : CText := "Value".toList
def strOn : CText := "on".toList
def strMode : CText := "mode".toList
def strGear : CText := "gear".toList
def strColorTemperature : CText := "colorTemperature".toList
def strBrightness : CText := "brightness".toList
def strStatus : CText := "status".toList
def strCurrent : CText := "current".toList
def strTarget : CText := "target".toList
def strNum : CText := "num".toList
def strName : CText := "name".toList

/-! ## Tables -/

/-- `str_search`. -/
def strSearch (key : CText) (pstr : List CText) : Option Nat := pstr.findIdx? (· = key)

/-- `strn_search`. -/
def strnSearch (key : CText) (pstr : List CText) (n : Nat) : Option Nat :=
  pstr.findIdx? fun p => CText.strncmpEq n p key

/-- `g_sCloudModel`. -/
def cloudModel : List CText :=
  ["2AP1", "2AP0", "2AN9", "2AN7", "2AOZ", "2AOY", "2ANO", "2AN8", "2ANF", "2ANK", "2ANJ",
    "2ANI"].map String.toList

/-- `HY0134`, and `HY0134_INDEX` below. -/
def hy0134 : String := "_TZE200_twuagcv5"

def hy0134Index : Nat := 8

/-- `g_sLocalModel`. -/
def localModel : List CText :=
  ["_TYZB01_mq6qwmfy", "_TYZB01_i8yav3hg", "_TYZB01_42x30fz4", "_TYZB01_lc17o7gh",
    "_TZ3210_xblxvcat", "_TZ3210_pcikchu8", "_TZ3210_xoj72sps", "_TYZB01_kw2okqc3", hy0134, hy0134,
    hy0134, hy0134].map String.toList

/-- `g_SCloudAttr`. -/
def cloudAttr : Nat → List CText
  | 0 => ["switch1", "indicator"].map String.toList
  | 1 => ["switch1", "switch2", "indicator"].map String.toList
  | 2 => ["switch1", "switch2", "switch3", "indicator"].map String.toList
  | 3 => ["cct", "brightness", "switch"].map String.toList
  | 4 => ["switch", "indicator"].map String.toList
  | 5 => ["switch1", "switch2", "indicator"].map String.toList
  | 6 => ["switch1", "switch2", "switch3", "indicator"].map String.toList
  | 7 => ["doorEvent", "status"].map String.toList
  | 8 => ["scene", "button1", "button2", "button3", "button4", "button5", "button6"].map
      String.toList
  | 9 => ["switch", "temperature"].map String.toList
  | 10 => ["switch", "temperature", "mode", "fan"].map String.toList
  | 11 => ["switch", "fan"].map String.toList
  | _ => []

/-- `g_SLocalAttr`. -/
def localAttr : Nat → List CText
  | 0 => ["Switch", "LedEnable", "PowerOffProtection"].map String.toList
  | 1 => ["Switch_1", "Switch_2", "LedEnable", "PowerOffProtection"].map String.toList
  | 2 => ["Switch_1", "Switch_2", "Switch_3", "LedEnable", "PowerOffProtection"].map String.toList
  | 3 => ["ColorTemperature", "Luminance", "Switch"].map String.toList
  | 4 => ["Switch", "LedEnable", "PowerOffProtection", "KeyMode"].map String.toList
  | 5 => ["Switch_1", "Switch_2", "LedEnable", "Switch_All", "PowerOffProtection", "KeyMode"].map
      String.toList
  | 6 => ["Switch_1", "Switch_2", "Switch_3", "LedEnable", "Switch_All", "PowerOffProtection",
      "KeyMode"].map String.toList
  | 7 => ["ContactAlarm", "BatteryPercentage", "LowBatteryAlarm", "TamperAlarm"].map String.toList
  | 8 => ["CurrentTemperature_1", "Switch_1", "Switch_2", "Switch_3", "WindSpeed_1", "WindSpeed_2",
      "TargetTemperature_1", "TargetTemperature_3", "WorkMode_1", "Enable_1", "Enable_2",
      "Enable_3", "KeyFobValue", "SceName_", "ScePhoto_"].map String.toList
  | 9 => ["Switch_3", "TargetTemperature_3"].map String.toList
  | 10 => ["Switch_1", "TargetTemperature_1", "WorkMode_1", "WindSpeed_1"].map String.toList
  | 11 => ["Switch_2", "WindSpeed_2"].map String.toList
  | _ => []

/-! ## Fields -/

/-- `dev_HY0095_t`, `dev_HY0096_t` and `dev_HY0097_t`, with one, two and three switches. -/
structure DevSwitch (n : Nat) where
  Switch : Fin n → BitVec 8
  LedEnable : BitVec 8
  PowerOffProtection : BitVec 8

/-- `dev_09223f_t`. -/
structure Dev09223f where
  ColorTemperature : BitVec 32
  Luminance : BitVec 8
  Switch : BitVec 8

/-- `dev_HY0121_t`, `dev_HY0122_t` and `dev_HY0107_t`, with one, two and three switches. -/
structure DevModule (n : Nat) extends DevSwitch n where
  KeyMode : BitVec 8

/-- `dev_HY0093_t`. -/
structure DevHY0093 where
  ContactAlarm : BitVec 8
  BatteryPercentage : BitVec 8
  LowBatteryAlarm : BitVec 8
  TamperAlarm : BitVec 8
  init_ContactAlarm : BitVec 8
  door_event : BitVec 8

/-- `dev_HY0134_t`. -/
structure DevHY0134 where
  KeyFobValue : BitVec 8
  SceName : Fin 12 → CText
  ScePhoto : Fin 12 → BitVec 8
  Enable : Fin 3 → BitVec 8
  Switch : Fin 3 → BitVec 8
  CurrentTemperature : BitVec 8
  TargetTemperature : Fin 2 → BitVec 8
  WorkMode : BitVec 8
  WindSpeed : Fin 2 → BitVec 8

/-- What `private` points to, by the model. -/
inductive Private where
  | hy0095 (dev : DevSwitch 1)
  | hy0096 (dev : DevSwitch 2)
  | hy0097 (dev : DevSwitch 3)
  | d09223f (dev : Dev09223f)
  | hy0121 (dev : DevModule 1)
  | hy0122 (dev : DevModule 2)
  | hy0107 (dev : DevModule 3)
  | hy0093 (dev : DevHY0093)
  | hy0134 (dev : DevHY0134)

def DevSwitch.zero (n : Nat) : DevSwitch n := ⟨fun _ => 0, 0, 0⟩

def DevModule.zero (n : Nat) : DevModule n := ⟨DevSwitch.zero n, 0⟩

def DevHY0134.zero : DevHY0134 :=
  ⟨0, fun _ => [], fun _ => 0, fun _ => 0, fun _ => 0, 0, fun _ => 0, 0, fun _ => 0⟩

/-- `malloc` and `memset` with the size of `s_SLocalAttrSize`. -/
def Private.zero : Nat → Option Private
  | 0 => some (.hy0095 (.zero 1))
  | 1 => some (.hy0096 (.zero 2))
  | 2 => some (.hy0097 (.zero 3))
  | 3 => some (.d09223f ⟨0, 0, 0⟩)
  | 4 => some (.hy0121 (.zero 1))
  | 5 => some (.hy0122 (.zero 2))
  | 6 => some (.hy0107 (.zero 3))
  | 7 => some (.hy0093 ⟨0, 0, 0, 0, 0, 0⟩)
  | 8 | 9 | 10 | 11 => some (.hy0134 .zero)
  | _ => none

/-! ## Devices -/

/-- `dev_local_t`. -/
structure DevLocal where
  DeviceId : CText
  ModelId : CText
  priv : Option Private

/-- A member of the JSON text of a service. -/
inductive Item where
  | num (n : Int)
  | str (s : CText)
deriving DecidableEq, Repr

/-- A `svcVal`, by the members of the object it is the text of. -/
abbrev SvcVal := List (CText × Item)

/-- `DevSvc`. -/
structure DevSvc where
  svcId : CText
  svcVal : Option SvcVal
deriving DecidableEq, Repr

/-- `dev_cloud_t`. -/
structure DevCloud where
  sn : CText
  prodId : CText
  devSvc : List DevSvc
deriving DecidableEq, Repr

/-- `list_get_by_id_cloud`. -/
def listGetByIdCloud (clouds : List DevCloud) (devid : CText) : Option DevCloud :=
  clouds.find? (·.sn = devid)

/-- `cloud_add_device`. -/
def cloudAddDevice (index : Nat) (sn : CText) (clouds : List DevCloud) : List DevCloud :=
  ⟨sn, (cloudModel[index]?).getD [], (cloudAttr index).map (⟨·, none⟩)⟩ :: clouds

/-- `modSvc`, and the text handed to it: the value of the service at `pos` of the device `out`. -/
def modSvc (out : CText) (pos : Nat) (json : SvcVal) :
    List DevCloud → Except Fault (List DevCloud)
  | [] => .error .missing
  | c :: cs =>
    if c.sn = out then
      if pos < c.devSvc.length then
        .ok ({ c with devSvc := c.devSvc.modify pos fun s => { s with svcVal := some json } } :: cs)
      else .error .memory
    else do return c :: (← modSvc out pos json cs)

/-- `cloud_update_device_int`. -/
def intVal (key : CText) (value : Int) : SvcVal := [(key, .num value)]

/-- `cloud_update_device_str`. -/
def strVal (key value : CText) : SvcVal := [(key, .str value)]

end Honyar.Hilink
