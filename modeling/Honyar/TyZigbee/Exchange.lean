import Honyar.Lib.Channel
import Honyar.Libhylink.Types
import Honyar.TyZigbee.DevsInfo

/-!
# The device list between both processes

The Zigbee process and the gateway, with the messages between them that are not lost and keep
their order.  A device is known to the Zigbee process by the name it joined with, and is
reported to the gateway under the alias of its profile, if there is one; the gateway lists it
under what was reported.
-/

namespace Honyar.TyZigbee

open Faults Channel Option List Hylink Function Json

variable {devs : List Hylink.HylinkDev} {os : List Hylink.Sent} {ok : Bool}

/-- The name each device joined with last. -/
abbrev Names := CText → Option CText

/-! ## The answer of the gateway -/

def strOnline : CText := "Online".toList

/-- `cJSON_AddStringToObject`, of a text that is not empty. -/
def addNonempty (name t : CText) : List (CText × Json) :=
  if t = [] then [] else [(name, .string t)]

/-- An element of what the gateway sends: it is copied into a `HylinkSendData` first. -/
def sendData (charSigned : Bool) (dev : Hylink.HylinkDev) : Except Fault Json := do
  let DeviceId ← strcpy 24 dev.DeviceId
  let ModelId ← strcpy 24 dev.ModelId
  let Online ← strcpy 4 (CText.ofInt (Libhylink.charVal charSigned dev.online))
  return .object (addNonempty Hylink.strDeviceId DeviceId ++
    addNonempty Hylink.strModelId ModelId ++ addNonempty strOnline Online)

/-- `hylinkSendFunc` of the gateway with its devices, as a command.  `DataSize` is one byte. -/
def devsInfoJson (charSigned : Bool) (devs : List Hylink.HylinkDev) : Except Fault Json :=
  if devs.length < 256 then do
    let Data ← devs.mapM (sendData charSigned)
    return .object [(Hylink.strCommand, .string Hylink.strDispatch),
      (strFrameNumber, .string ['0', '0']), (Hylink.strType, .string strDevsInfo),
      (Hylink.strData, .array Data)]
  else .error .memory

/-- The lists the gateway sends to the Zigbee process. -/
def sentLists (os : List Hylink.Sent) : List (List Hylink.HylinkDev) :=
  os.filterMap fun
    | .devsInfo true devs => some devs
    | _ => none

/-! ## Steps -/

/-- Both processes, and the messages on their way to the gateway and to the Zigbee process.
Beside each message stands what the devices had joined with when it was sent (an answer: when
the gateway was asked); `joined` is what they joined with, and `known` what the gateway has been
told of it. -/
structure Link where
  zigbee : Process
  gateway : List Hylink.HylinkDev
  up : List (Json × Names)
  down : List (Json × Names)
  joined : Names
  known : Names

/-- Nothing has joined. -/
def Link.start : Link := ⟨⟨[], [], [], []⟩, [], [], [], fun _ => none, fun _ => none⟩

/-- What the Zigbee process sends is on its way to the gateway. -/
def Link.collect (l : Link) (z : Process) (joined : Names) : Link :=
  { l with
    zigbee := { z with sent := [] }
    up := l.up ++ z.sent.map (·, joined)
    joined := joined }

/-- What either process does. -/
inductive LinkAction where
  /-- `hylinkDevJoin`. -/
  | join (devId version manuName : CText)
  /-- `hylinkReportDevInfo`. -/
  | request
  /-- `hylinkRecvJson` of the gateway, with the message that was sent first. -/
  | gatewayRecv
  /-- `hylinkRecvJson` of the Zigbee process, with the message that was sent first. -/
  | zigbeeRecv
deriving DecidableEq

variable (profiles : List ZigbeeModel) (charSigned : Bool)

def LinkAction.act (l : Link) : LinkAction → Except Fault Link
  | join devId version manuName => do
    let z ← hylinkDevJoin profiles l.zigbee devId version manuName
    return l.collect z
      (if (zigbeeListGet profiles manuName).isSome then
        Function.update l.joined devId (some manuName)
      else l.joined)
  | request =>
    return l.collect (l.zigbee.send (hylinkReportDevInfo profiles l.zigbee.hyMap)) l.joined
  | gatewayRecv =>
    match l.up with
    | [] => return l
    | (root, names) :: rest => do
      let (devs, os, _) ← Fault.ofOption (Hylink.hylinkRecvJson l.gateway root)
      let answers ← (sentLists os).mapM (devsInfoJson charSigned)
      return { l with
        gateway := devs
        up := rest
        down := l.down ++ answers.map (·, names)
        known := names }
  | zigbeeRecv =>
    match l.down with
    | [] => return l
    | (root, _) :: rest => do
      let z ← hylinkRecvJson profiles l.zigbee root
      return { l with down := rest }.collect z l.joined

/-- What each device was reported under is the name it joined with since. -/
def Current (joined names : Names) : Prop :=
  ∀ id x zDev, names id = some x → zigbeeListGet profiles x = some zDev →
    joined id = some (zDev.reported x)

/-- An answer is received only when what the gateway had been told is current. -/
def LinkAction.Allowed (l : Link) : LinkAction → Prop
  | join _ _ _ | request | gatewayRecv => True
  | zigbeeRecv => ∀ m ∈ l.down.head?, Current profiles l.joined m.2

/-- Each device in the map of the Zigbee process has a model id that leads to the profile it
joined with. -/
def Controllable (l : Link) : Prop :=
  ∀ d ∈ l.zigbee.hyMap, ∃ x zDev, l.joined d.DeviceId = some x ∧
    zigbeeListGet profiles x = some zDev ∧ zigbeeListGet profiles d.ModelId = some zDev

/-! ## Messages on their way -/

variable {profiles} {charSigned}

/-- A message to the gateway, and what it tells: a registration the name under which the device
joined, any other message nothing. -/
inductive Tells (profiles : List ZigbeeModel) : Names → Json × Names → Names → Prop
  | register {names : Names} (id : CText) {x : CText} {zDev : ZigbeeModel}
      (h : zigbeeListGet profiles x = some zDev) :
      Tells profiles names
        (reportJson strRegister
          [(Hylink.strDeviceId, .string id), (Hylink.strModelId, .string (zDev.reported x))],
          Function.update names id (some x))
        (Function.update names id (some x))
  | attribute' {names : Names} (item : List (CText × Json)) :
      Tells profiles names (reportJson strAttribute item, names) names
  | devsInfo {names : Names} (item : List (CText × Json)) :
      Tells profiles names (reportJson strDevsInfo item, names) names

/-- The gateway has what it was told: each of its devices under the name it is reported by. -/
def Knows (profiles : List ZigbeeModel) (names : Names) (devs : List Hylink.HylinkDev) : Prop :=
  ∀ d ∈ devs, ∃ x zDev, names d.DeviceId = some x ∧ zigbeeListGet profiles x = some zDev ∧
    d.ModelId = zDev.reported x

theorem hylinkRecvJson_reportJson (devs : List Hylink.HylinkDev) (type : CText)
    (item : List (CText × Json)) :
    Hylink.hylinkRecvJson devs (reportJson type item) =
      match Hylink.findRecvType type with
      | none => some (devs, [.sceneReport (reportJson type item)], false)
      | some t =>
        (Hylink.recvElements t false (reportJson type item) ⟨devs, []⟩ [.object item]).map
          fun r => (r.1.devs, .sceneReport (reportJson type item) :: r.2.1, r.2.2) := by
  have hcommand : (reportJson type item).getObjectItem Hylink.strCommand =
      some (.string Hylink.strReport) := rfl
  have htype : (reportJson type item).getObjectItem Hylink.strType = some (.string type) := rfl
  have hdata : (reportJson type item).getObjectItem Hylink.strData =
      some (.array [.object item]) := rfl
  have hbeat : ¬ Hylink.strReport = Hylink.strTcpBeatHeart := by decide
  have hdispatch : ¬ Hylink.strReport = Hylink.strDispatch := by decide
  simp only [Hylink.hylinkRecvJson, hcommand, htype, hdata, valuestring?_string,
    bind_eq_bind, bind_some, hbeat, if_false, if_true, hdispatch, decide_false]
  cases Hylink.findRecvType type with
  | none => rfl
  | some t =>
    simp only [children]
    cases Hylink.recvElements t false (reportJson type item) ⟨devs, []⟩ [.object item] <;> rfl

theorem recvElements_register {root : Json} {id modelId : CText} {s : Hylink.RecvState}
    (h : Hylink.recvElements .register false root ⟨devs, []⟩
      [.object [(Hylink.strDeviceId, .string id), (Hylink.strModelId, .string modelId)]] =
        some (s, os, ok)) :
    s.devs = Hylink.addDevToHyList devs id modelId ∧ os = [.insert id modelId] := by
  obtain ⟨hyDevId, hid, h⟩ := bind_eq_some_iff.mp h
  obtain ⟨⟨s', sent⟩, hrecv, h⟩ := bind_eq_some_iff.mp h
  obtain ⟨hyModelId, hmodel, hrecv⟩ := bind_eq_some_iff.mp hrecv
  obtain ⟨rfl, rfl⟩ := Prod.mk.inj (some.inj hrecv)
  obtain ⟨rfl, rfl, -⟩ := by simpa [recvElements] using h
  have hfit {t u : CText} (ht : (if t.length < devIdLen then some t else none) = some u) :
      t = u := by
    obtain ⟨-, ht⟩ := ite_none_right_eq_some.mp ht
    exact some.inj ht
  obtain rfl := hfit hid
  obtain rfl := hfit hmodel
  exact ⟨rfl, rfl⟩

theorem recvElements_devsinfo {root d : Json} {s : Hylink.RecvState}
    (h : Hylink.recvElements .devsinfo false root ⟨devs, []⟩ [d] = some (s, os, ok)) :
    s.devs = devs ∧ os = [.devsInfo true devs] := by
  obtain ⟨hyDevId, -, h⟩ := bind_eq_some_iff.mp h
  obtain ⟨⟨s', sent⟩, hrecv, h⟩ := bind_eq_some_iff.mp h
  obtain ⟨rfl, rfl⟩ := Prod.mk.inj (some.inj hrecv)
  obtain ⟨rfl, rfl, -⟩ := by simpa [recvElements] using h
  exact ⟨rfl, rfl⟩

theorem Tells.knows {names names' : Names} {m : Json × Names} (hm : Tells profiles names m names')
    {devs' : List Hylink.HylinkDev} (h : Knows profiles names devs)
    (hrecv : Hylink.hylinkRecvJson devs m.1 = some (devs', os, ok)) :
    Knows profiles names' devs' ∧ ∀ ds ∈ sentLists os, Knows profiles names' ds := by
  cases hm with
  | @register id x zDev hz =>
    rw [hylinkRecvJson_reportJson,
      show Hylink.findRecvType strRegister = some .register from rfl] at hrecv
    obtain ⟨⟨s, os', ok'⟩, hloop, heq⟩ := map_eq_some_iff.mp hrecv
    obtain ⟨hdevs, rfl⟩ := recvElements_register hloop
    obtain ⟨rfl, rfl, -⟩ : s.devs = devs' ∧ _ = os ∧ ok' = ok := by simpa using heq
    refine ⟨?_, fun ds hds => (by cases hds)⟩
    rw [hdevs]
    intro d hd
    rcases mem_append.mp hd with hd | hd
    · obtain ⟨hd, hne⟩ := mem_filter.mp hd
      obtain ⟨y, zDev', hy, hz', hmodel⟩ := h d hd
      refine ⟨y, zDev', ?_, hz', hmodel⟩
      rw [update_of_ne (by simpa using hne)]
      exact hy
    · obtain rfl := mem_singleton.mp hd
      exact ⟨x, zDev, update_self .., hz, rfl⟩
  | attribute' item =>
    rw [hylinkRecvJson_reportJson,
      show Hylink.findRecvType strAttribute = none from rfl] at hrecv
    obtain ⟨rfl, rfl, -⟩ : devs = devs' ∧ _ = os ∧ false = ok := by simpa using hrecv
    exact ⟨h, fun ds hds => (by cases hds)⟩
  | devsInfo item =>
    rw [hylinkRecvJson_reportJson,
      show Hylink.findRecvType strDevsInfo = some .devsinfo from rfl] at hrecv
    obtain ⟨⟨s, os', ok'⟩, hloop, heq⟩ := map_eq_some_iff.mp hrecv
    obtain ⟨hdevs, rfl⟩ := recvElements_devsinfo hloop
    obtain ⟨rfl, rfl, -⟩ : s.devs = devs' ∧ _ = os ∧ ok' = ok := by simpa using heq
    rw [hdevs]
    refine ⟨h, fun ds hds => ?_⟩
    obtain rfl : ds = devs := mem_singleton.mp hds
    exact h

/-- An answer of the gateway: it lists devices as the gateway had been told of them. -/
def Answers (profiles : List ZigbeeModel) (charSigned : Bool) (m : Json × Names) : Prop :=
  ∃ devs, devsInfoJson charSigned devs = .ok m.1 ∧ Knows profiles m.2 devs

theorem getObjectItem_addNonempty (name key t : CText) (ms : List (CText × Json)) :
    (Json.object (addNonempty name t ++ ms)).getObjectItem key =
      if Json.sameName key name ∧ t ≠ [] then some (.string t)
      else (Json.object ms).getObjectItem key := by
  by_cases ht : t = []
  · simp [addNonempty, ht]
  · by_cases hname : sameName key name
    · simp [addNonempty, ht, hname, getObjectItem]
    · simp [addNonempty, ht, hname, getObjectItem]

theorem sendData_listed {dev : Hylink.HylinkDev} {d : Json} (h : sendData charSigned dev = .ok d)
    {r : CText × CText} (hr : listed d = some r) : r = (dev.DeviceId, dev.ModelId) := by
  obtain ⟨-, h⟩ := strcpy_bind_eq_ok.mp h
  obtain ⟨-, h⟩ := strcpy_bind_eq_ok.mp h
  obtain ⟨-, h⟩ := strcpy_bind_eq_ok.mp h
  obtain rfl := Except.ok.inj h
  have hother (key : CText) (hkey : sameName key strOnline = false) (t : CText) :
      (object (addNonempty strOnline t)).getObjectItem key = none := by
    rw [← append_nil (addNonempty _ _), getObjectItem_addNonempty, if_neg (by simp [hkey])]
    rfl
  obtain ⟨modelidJson, hmodel, hr⟩ := bind_eq_some_iff.mp hr
  obtain ⟨ModelId, hm, hr⟩ := bind_eq_some_iff.mp hr
  obtain ⟨devidJson, hdev, hr⟩ := bind_eq_some_iff.mp hr
  obtain ⟨DeviceId, hid, hr⟩ := bind_eq_some_iff.mp hr
  rw [append_assoc, getObjectItem_addNonempty, getObjectItem_addNonempty,
    hother _ (by decide)] at hmodel hdev
  rw [show sameName strModelId strDeviceId = false from rfl] at hmodel
  obtain ⟨-, rfl⟩ := by simpa using hmodel
  rw [show sameName strDeviceId strDeviceId = true from rfl,
    show sameName strDeviceId strModelId = false from rfl] at hdev
  obtain ⟨-, rfl⟩ := by simpa using hdev
  obtain rfl := some.inj hm
  obtain rfl := some.inj hid
  exact (some.inj hr).symm

theorem mapM_sendData_listed {ds : List Json} (h : devs.mapM (sendData charSigned) = .ok ds)
    {r : CText × CText} (hr : r ∈ ds.filterMap listed) :
    ∃ dev ∈ devs, r = (dev.DeviceId, dev.ModelId) := by
  induction devs generalizing ds with
  | nil =>
    obtain rfl := Except.ok.inj h
    cases hr
  | cons dev devs ih =>
    rw [mapM_cons] at h
    obtain ⟨d, hd, h⟩ := bind_eq_ok.mp h
    obtain ⟨rest, hrest, h⟩ := bind_eq_ok.mp h
    obtain rfl := Except.ok.inj h
    obtain ⟨x, hx, hlisted⟩ := mem_filterMap.mp hr
    rcases mem_cons.mp hx with rfl | hx
    · exact ⟨dev, mem_cons_self, sendData_listed hd hlisted⟩
    · obtain ⟨dev', hdev', heq⟩ := ih hrest (mem_filterMap.mpr ⟨x, hx, hlisted⟩)
      exact ⟨dev', mem_cons_of_mem dev hdev', heq⟩

theorem Answers.message {m : Json × Names} (h : Answers profiles charSigned m) :
    ∃ msg : DevsInfoMessage, msg.root = m.1 ∧ ∀ r ∈ msg.devices, ∃ x zDev,
      m.2 r.1 = some x ∧ zigbeeListGet profiles x = some zDev ∧ r.2 = zDev.reported x := by
  obtain ⟨root, names⟩ := m
  obtain ⟨devs, hjson, hknows⟩ := h
  rw [devsInfoJson] at hjson
  split at hjson
  next =>
    obtain ⟨ds, hds, hjson⟩ := bind_eq_ok.mp hjson
    obtain rfl := Except.ok.inj hjson
    refine ⟨⟨_, rfl⟩, rfl, fun r hr => ?_⟩
    obtain ⟨dev, hdev, rfl⟩ := mapM_sendData_listed hds hr
    exact hknows dev hdev
  next => cases hjson

theorem legible_sendData (charSigned : Bool) (dev : Hylink.HylinkDev) :
    Legible (sendData charSigned dev) :=
  (legible_strcpy _ _).bind fun _ _ _ => (legible_strcpy _ _).bind fun _ _ _ =>
    (legible_strcpy _ _).bind fun _ _ _ => trivial

theorem legible_devsInfoJson (charSigned : Bool) (devs : List Hylink.HylinkDev) :
    Legible (devsInfoJson charSigned devs) := by
  rw [devsInfoJson]
  split
  · exact (Spares.mapM fun dev _ => legible_sendData charSigned dev).bind fun _ _ _ => trivial
  · exact not_not.mpr rfl

theorem mapM_answers {names : Names} {lists : List (List Hylink.HylinkDev)} {answers : List Json}
    (h : lists.mapM (devsInfoJson charSigned) = .ok answers)
    (hknows : ∀ ds ∈ lists, Knows profiles names ds) :
    ∀ m ∈ answers.map (·, names), Answers profiles charSigned m := by
  induction lists generalizing answers with
  | nil =>
    obtain rfl := Except.ok.inj h
    exact fun m hm => (by cases hm)
  | cons ds lists ih =>
    rw [mapM_cons] at h
    obtain ⟨root, hroot, h⟩ := bind_eq_ok.mp h
    obtain ⟨rest, hrest, h⟩ := bind_eq_ok.mp h
    obtain rfl := Except.ok.inj h
    obtain ⟨hds, hlists⟩ := forall_mem_cons.mp hknows
    exact forall_mem_cons.mpr ⟨⟨ds, hroot, hds⟩, ih hrest hlists⟩

/-! ## Runs -/

theorem hylinkSendSingleFunc_of_get {hyMap : List HylinkDev} {d : HylinkDev}
    {zDev : ZigbeeModel} (hget : hylinkListGet hyMap d.DeviceId = some d)
    (hz : zigbeeListGet profiles d.ModelId = some zDev) (type : CText)
    (Key Value : Option CText) :
    hylinkSendSingleFunc profiles hyMap d.DeviceId type Key Value =
      some (reportJson type ([(Hylink.strDeviceId, .string d.DeviceId),
        (Hylink.strModelId, .string (zDev.reported d.ModelId))] ++
          addString? Hylink.strKey Key ++ addString? Hylink.strValue Value)) := by
  rw [hylinkSendSingleFunc, hget, bind_eq_bind, bind_some, hz]
  rfl

/-- A device with a profile joins: it is in the map, and is reported. -/
theorem hylinkDevJoin_eq_ok {s s' : Process} {devId version manuName : CText}
    {zDev : ZigbeeModel} (hz : zigbeeListGet profiles manuName = some zDev)
    (h : hylinkDevJoin profiles s devId version manuName = .ok s') :
    s'.hyMap = hylinkListAdd s.hyMap ⟨devId, manuName, version, 0, 0⟩ ∧
      ∃ item, s'.sent = s.sent ++
        [reportJson strRegister [(Hylink.strDeviceId, .string devId),
          (Hylink.strModelId, .string (zDev.reported manuName))],
        reportJson strAttribute item] := by
  rw [hylinkDevJoin, hz] at h
  obtain ⟨d, hnew, h⟩ := bind_eq_ok.mp h
  obtain rfl := newDev_eq_ok hnew
  obtain rfl := Except.ok.inj h
  have hget : hylinkListGet (hylinkListAdd s.hyMap ⟨devId, manuName, version, 0, 0⟩) devId =
      some ⟨devId, manuName, version, 0, 0⟩ := by
    rw [hylinkListGet, hylinkListAdd, Store.find?_put, if_pos rfl]
  have hsend (type : CText) (Key Value : Option CText) :=
    hylinkSendSingleFunc_of_get (d := ⟨devId, manuName, version, 0, 0⟩) hget hz type Key Value
  refine ⟨rfl, [(strDeviceId, .string devId),
    (strModelId, .string (zDev.reported manuName)), (strKey, .string strVersion),
    (strValue, .string version)], ?_⟩
  simp only [Process.call, Process.send, hsend, toList_some, append_assoc]
  rfl

theorem legible_hylinkDevJoin (s : Process) (devId version manuName : CText) :
    Legible (hylinkDevJoin profiles s devId version manuName) := by
  rw [hylinkDevJoin]
  split
  · trivial
  · exact (legible_newDev _ _ _).bind fun _ _ _ => trivial

/-- What the Zigbee process has in its map is what the devices joined with, and what is on its
way tells the gateway so. -/
structure Linked (profiles : List ZigbeeModel) (charSigned : Bool) (l : Link) : Prop where
  map : ∀ d ∈ l.zigbee.hyMap, l.joined d.DeviceId = some d.ModelId
  profiled : ∀ id x, l.joined id = some x → (zigbeeListGet profiles x).isSome
  sent : l.zigbee.sent = []
  up : Carries (Tells profiles) l.known l.up l.joined
  knows : Knows profiles l.known l.gateway
  down : ∀ m ∈ l.down, Answers profiles charSigned m

namespace Linked

variable {l : Link}

theorem start : Linked profiles charSigned .start where
  map _ h := by cases h
  profiled _ _ h := by cases h
  sent := rfl
  up := rfl
  knows _ h := by cases h
  down _ h := by cases h

theorem controllable (h : Linked profiles charSigned l) : Controllable profiles l := by
  intro d hd
  have hname := h.map d hd
  obtain ⟨zDev, hz⟩ := isSome_iff_exists.mp (h.profiled _ _ hname)
  exact ⟨d.ModelId, zDev, hname, hz, hz⟩

theorem collect (h : Linked profiles charSigned l) {z : Process}
    (hmap : ∀ d ∈ z.hyMap, l.joined d.DeviceId = some d.ModelId)
    (hsent : ∀ root ∈ z.sent, Tells profiles l.joined (root, l.joined) l.joined) :
    Linked profiles charSigned (l.collect z l.joined) where
  map := hmap
  profiled := h.profiled
  sent := rfl
  up := by
    refine h.up.append ?_
    generalize z.sent = sent at hsent
    induction sent with
    | nil => exact rfl
    | cons root rest ih =>
      obtain ⟨hroot, hrest⟩ := forall_mem_cons.mp hsent
      exact ⟨l.joined, hroot, ih hrest⟩
  knows := h.knows
  down := h.down

theorem join (h : Linked profiles charSigned l) (devId version manuName : CText) :
    Spares Dangling (Linked profiles charSigned)
      (LinkAction.act profiles charSigned l (.join devId version manuName)) := by
  rw [LinkAction.act]
  refine (legible_hylinkDevJoin _ _ _ _).bind fun z hjoin _ => ?_
  cases hz : zigbeeListGet profiles manuName with
  | none =>
    rw [hylinkDevJoin, hz] at hjoin
    obtain rfl := Except.ok.inj hjoin
    refine h.collect h.map fun root hroot => ?_
    rw [show (l.zigbee.call (.deleteDev devId)).sent = [] from h.sent] at hroot
    cases hroot
  | some zDev =>
    obtain ⟨hmap, item, hsent⟩ := hylinkDevJoin_eq_ok hz hjoin
    rw [h.sent, nil_append] at hsent
    exact {
      map := by
        intro d hd
        rw [Link.collect, hmap, hylinkListAdd] at hd
        rcases Store.mem_put.mp hd with rfl | ⟨hd, hne⟩
        · exact update_self ..
        · exact (update_of_ne hne _ _).trans (h.map d hd)
      profiled := by
        intro id x hx
        change update l.joined devId (some manuName) id = some x at hx
        by_cases hid : id = devId
        · rw [hid, update_self] at hx
          rw [← some.inj hx, hz]
          rfl
        · rw [update_of_ne hid] at hx
          exact h.profiled id x hx
      sent := rfl
      up := by
        rw [Link.collect, hsent]
        exact h.up.append ⟨_, .register devId hz, _, .attribute' item, rfl⟩
      knows := h.knows
      down := h.down }

theorem request (h : Linked profiles charSigned l) :
    Linked profiles charSigned
      (l.collect (l.zigbee.send (hylinkReportDevInfo profiles l.zigbee.hyMap)) l.joined) := by
  refine h.collect h.map fun root hroot => ?_
  rw [Process.send, h.sent, nil_append] at hroot
  obtain ⟨hyDev, -, hroot⟩ := bind_eq_some_iff.mp (mem_toList.mp hroot)
  obtain ⟨zDev, -, hroot⟩ := bind_eq_some_iff.mp hroot
  obtain rfl := some.inj hroot
  exact .devsInfo _

theorem gatewayRecv (h : Linked profiles charSigned l) :
    Spares Dangling (Linked profiles charSigned)
      (LinkAction.act profiles charSigned l .gatewayRecv) := by
  rw [LinkAction.act]
  split
  · exact h
  next root names rest hup =>
    have hcarries := h.up
    rw [hup] at hcarries
    obtain ⟨names', htells, hrest⟩ := hcarries
    obtain rfl : names' = names := by cases htells <;> rfl
    refine (legible_ofOption _).bind fun ⟨devs, os, ok⟩ hrecv _ => ?_
    refine (Spares.mapM fun ds _ => legible_devsInfoJson charSigned ds).bind
      fun answers hanswers _ => ?_
    obtain ⟨hknows, hlists⟩ := htells.knows h.knows (Fault.ofOption_eq_ok.mp hrecv)
    exact {
      map := h.map
      profiled := h.profiled
      sent := h.sent
      up := hrest
      knows := hknows
      down := by
        intro m hm
        rcases mem_append.mp hm with hm | hm
        · exact h.down m hm
        · exact mapM_answers hanswers hlists m hm }

theorem zigbeeRecv (h : Linked profiles charSigned l)
    (hcurrent : LinkAction.Allowed profiles l .zigbeeRecv) :
    Spares Dangling (Linked profiles charSigned)
      (LinkAction.act profiles charSigned l .zigbeeRecv) := by
  rw [LinkAction.act]
  split
  · exact h
  next root names rest hdown =>
    obtain ⟨hanswer, hrest⟩ := forall_mem_cons.mp (hdown ▸ h.down)
    obtain ⟨msg, rfl, hlists⟩ := hanswer.message
    have hcurrent : Current profiles l.joined names :=
      hcurrent (msg.root, names) (by rw [hdown]; rfl)
    have hrecv : Spares Dangling
        (fun z => z.sent = [] ∧ ∀ d ∈ z.hyMap, l.joined d.DeviceId = some d.ModelId)
        (hylinkRecvJson profiles l.zigbee msg.root) := by
      refine msg.spares ⟨h.sent, h.map⟩ ?_
      rintro z r hr calls ⟨hsent, hmap⟩
      refine ⟨hsent, fun d hd => ?_⟩
      rcases Store.mem_put.mp hd with rfl | ⟨hd, -⟩
      · obtain ⟨x, zDev, hx, hz, hmodel⟩ := hlists r hr
        exact (hcurrent r.1 x zDev hx hz).trans (congrArg some hmodel.symm)
      · exact hmap d hd
    refine hrecv.bind fun z _ ⟨hsent, hmap⟩ => ?_
    have hl : Linked profiles charSigned { l with down := rest } :=
      { h with down := hrest }
    exact hl.collect hmap fun root hroot => (by rw [hsent] at hroot; cases hroot)

theorem act (h : Linked profiles charSigned l) {a : LinkAction} (ha : a.Allowed profiles l) :
    Spares Dangling (Linked profiles charSigned) (a.act profiles charSigned l) := by
  cases a with
  | join devId version manuName => exact h.join devId version manuName
  | request => exact h.request
  | gatewayRecv => exact h.gatewayRecv
  | zigbeeRecv => exact h.zigbeeRecv ha

end Linked

/-- Where every answer that is received is current, each device in the map of the Zigbee process
stays under a model id that leads to the profile it joined with. -/
theorem devices_controllable (profiles : List ZigbeeModel) (charSigned : Bool)
    (as : List LinkAction)
    (h : Along (LinkAction.act profiles charSigned) (LinkAction.Allowed profiles) .start as) :
    ∀ bs, bs <+: as → Spares Dangling (Controllable profiles)
      (bs.foldlM (LinkAction.act profiles charSigned) .start) := by
  intro bs hbs
  have hrun := Along.spares (fun l a => Linked.act (a := a)) Linked.start (h.of_prefix hbs)
  exact hrun.mono fun l _ hl => hl.controllable

/-- The gateway's own id joins, so that the devices can be asked for, and they are listed. -/
def exchange : List LinkAction :=
  [.join strGatewayDevId ['1'] ['g'], .gatewayRecv, .gatewayRecv, .request, .gatewayRecv,
    .zigbeeRecv]

/-- A device without an alias stays controllable. -/
theorem devices_controllable_exchange :
    Spares Dangling (Controllable [⟨['g'], []⟩])
      (exchange.foldlM (LinkAction.act [⟨['g'], []⟩] true) .start) := by
  refine devices_controllable [⟨['g'], []⟩] true exchange ?_ exchange (prefix_refl _)
  refine .cons rfl trivial (.cons rfl trivial (.cons rfl trivial (.cons rfl trivial
    (.cons rfl trivial (.cons rfl ?_ trivial)))))
  rintro m hm
  obtain rfl := some.inj hm
  intro id x zDev hx hz
  obtain rfl : zDev = ⟨['g'], []⟩ := mem_singleton.mp (mem_of_find?_eq_some hz)
  exact hx

/-- A device with an alias joins, and is listed: its model id leads to no profile. -/
theorem alias_not_controllable : ∃ l,
    (LinkAction.join ['d'] ['1'] ['x'] :: .gatewayRecv :: .gatewayRecv :: exchange).foldlM
        (LinkAction.act [⟨['g'], []⟩, ⟨['x'], ['y']⟩] true) .start = .ok l ∧
      l.zigbee.hyMap.map (fun d => (d.DeviceId, d.ModelId)) =
        [(['d'], ['y']), (strGatewayDevId, ['g'])] ∧
      zigbeeListGet [⟨['g'], []⟩, ⟨['x'], ['y']⟩] ['y'] = none ∧
      ¬ Controllable [⟨['g'], []⟩, ⟨['x'], ['y']⟩] l := by
  refine ⟨_, rfl, rfl, rfl, fun h => ?_⟩
  obtain ⟨x, zDev, -, -, hz⟩ := h _ mem_cons_self
  cases hz

end Honyar.TyZigbee
