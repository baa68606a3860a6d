import Honyar.Hylink.Elements
import Honyar.Libhylink.Calls

/-!
# The elements of a report

`hyDevId` in `hylinkRecvAnaly` lives as long as the loop over the elements, as it does in
`hylinkRecvJson`.  Here the map is seen as what it holds for an id, and a report about devices as
a loop over elements that change what is held for one id.  The registered calls return; what
they do to a world of their own never comes back to the map.
-/

namespace Honyar.Libhylink

open Hylink Carried Faults Option Function Platform

variable (charSigned : Bool) (hyprofile : CText → Option Json)
variable {type : ReportType}

/-- A device made from the profile of the model an element names, if there is one. -/
def madeDev (devId : CText) (d : Json) : Option (Option HyLinkDev) := do
  match hyprofile (← getStrForJson d strModelId devIdLen []) with
  | none => return none
  | some root => (hyLinkParseJson devId root).toOption

/-- A device that an attribute arrives for is online. -/
def HyLinkDev.woken (dev : HyLinkDev) : HyLinkDev :=
  if dev.online = subdevOffline then { dev with online := subdevOnline } else dev

/-- What an element leaves for the id it is about. -/
def entryAfter (type : ReportType) (devId : CText) (e : Option HyLinkDev) (d : Json) :
    Option (Option HyLinkDev) :=
  match type, e with
  | .register, none => madeDev hyprofile devId d
  | .register, some dev => some (some { dev with online := subdevOnline })
  | .unRegister, _ => some none
  | .onOff, none => do
    let online ← getByteForJson d strValue 0
    if online ≠ 0 ∧ hasObjectItem d strModelId then madeDev hyprofile devId d else return none
  | .onOff, some dev => do
    let online ← getByteForJson d strValue dev.online
    return some { dev with online := online }
  | .attr, none | .event, none | .devAttri, none =>
    if hasObjectItem d strModelId then madeDev hyprofile devId d else some none
  | .attr, some dev | .event, some dev | .devAttri, some dev =>
    (hylinkSubDevAttrUpdate charSigned dev.woken d).toOption.map fun r => some r.1
  | .devsInfo, _ | .localScene, _ | .reFactory, _ => some e

/-- The types of reports whose elements are about one device each. -/
def ReportType.ofDevice : ReportType → Bool
  | .register | .unRegister | .onOff | .attr | .event | .devAttri => true
  | .devsInfo | .localScene | .reFactory => false

variable {χ : Type} (call : List HyLinkDev → Transfer → χ → χ)

/-- A platform whose registered calls return. -/
def Platform.ofCalls : Platform χ where
  charSigned := charSigned
  hyprofile := hyprofile
  transferCb hyMap t w := .ok (call hyMap t w)

/-- What is held for an id after a call. -/
def held (x : Except Fault (HyState χ)) : Option (CText → Option HyLinkDev) :=
  x.toOption.map fun s => hylinkListGetById s.hyMap

/-! ## A report is a loop over its elements -/

section

variable {charSigned hyprofile call} {s : HyState χ} {k : CText} {d : Json}
variable {dev : HyLinkDev}

@[simp] theorem held_ok (s : HyState χ) :
    held (.ok s : Except Fault (HyState χ)) = some (hylinkListGetById s.hyMap) := rfl

@[simp] theorem held_pure (s : HyState χ) :
    held (pure s : Except Fault (HyState χ)) = some (hylinkListGetById s.hyMap) := rfl

@[simp] theorem held_error (f : Fault) : held (.error f : Except Fault (HyState χ)) = none := rfl

theorem runTransferCb_ofCalls (s : HyState χ) (t : Transfer) :
    runTransferCb (.ofCalls charSigned hyprofile call) s t =
      .ok { s with world := call s.hyMap t s.world } := rfl

theorem hylinkListGetById_add_eq_update (m : List HyLinkDev) (h : dev.devId = k) :
    hylinkListGetById (hylinkListAdd m dev) =
      Function.update (hylinkListGetById m) k (some dev) := by
  funext id
  rw [hylinkListGetById_add, update_apply, h]
  simp only [eq_comm]

theorem held_addDev (h : hylinkListGetById s.hyMap k = none) (devAttr : Bool) :
    held (do
      let hyModelId ← Fault.ofOption (getStrForJson d strModelId devIdLen [])
      addDev (.ofCalls charSigned hyprofile call) s k hyModelId devAttr) =
        (madeDev hyprofile k d).map (Function.update (hylinkListGetById s.hyMap) k) := by
  have hsame : update (hylinkListGetById s.hyMap) k none =
      hylinkListGetById s.hyMap := by
    rw [← h, update_eq_self]
  cases hm : getStrForJson d strModelId devIdLen [] with
  | none => simp [madeDev, hm, Fault.ofOption]
  | some modelId =>
    cases hp : hyprofile modelId with
    | none =>
      simp [madeDev, hm, Fault.ofOption, addDev, addProfileDev, ofCalls, hp, hsame]
    | some root =>
      have hid := hyLinkParseJson_spares k root
      cases hparse : hyLinkParseJson k root with
      | error f =>
        simp [madeDev, hm, Fault.ofOption, addDev, addProfileDev, ofCalls, hp,
          hparse, Except.toOption]
      | ok o =>
        rw [hparse, spares_ok] at hid
        cases o with
        | none =>
          simp [madeDev, hm, Fault.ofOption, addDev, addProfileDev, ofCalls, hp,
            hparse, Except.toOption, hsame]
        | some dev =>
          have hupd := hylinkListGetById_add_eq_update s.hyMap (hid dev rfl)
          cases devAttr <;>
            simp [madeDev, hm, Fault.ofOption, addDev, addProfileDev, ofCalls, hp,
              hparse, Except.toOption, hupd, runTransferCb]

theorem HyLinkDev.woken_devId (dev : HyLinkDev) : dev.woken.devId = dev.devId := by
  unfold HyLinkDev.woken
  split <;> rfl

theorem HyLinkDev.woken_online (dev : HyLinkDev) : dev.woken.online ≠ subdevOffline := by
  unfold HyLinkDev.woken
  split
  next => exact (by decide : subdevOnline ≠ subdevOffline)
  next hon => exact hon

theorem held_updateAttr_awake (h : hylinkListGetById s.hyMap k = some dev)
    (hon : dev.online ≠ subdevOffline) :
    held (updateAttr (.ofCalls charSigned hyprofile call) s d dev) =
      ((hylinkSubDevAttrUpdate charSigned dev d).toOption.map fun r => some r.1).map
        (Function.update (hylinkListGetById s.hyMap) k) := by
  have hk : dev.devId = k := hylinkListGetById_devId h
  have hupdate := hylinkSubDevAttrUpdate_spares charSigned dev d
  have hentry : entry s dev.devId = .ok dev := by rw [entry, hk, h]
  have hp : (ofCalls charSigned hyprofile call).charSigned = charSigned := rfl
  unfold updateAttr
  dsimp only
  rw [if_neg hon, hentry, ok_bind, hp]
  cases hr : hylinkSubDevAttrUpdate charSigned dev d with
  | error f => rfl
  | ok r =>
    rw [hr, spares_ok, hk] at hupdate
    have hupd := hylinkListGetById_add_eq_update s.hyMap hupdate
    simp only [ok_bind, Except.toOption, map_some, runTransferCb_ofCalls]
    cases r.2 <;> simp [hupd]

theorem updateAttr_asleep (hoff : dev.online = subdevOffline) :
    ∃ w, updateAttr (.ofCalls charSigned hyprofile call) s d dev =
      updateAttr (.ofCalls charSigned hyprofile call) ⟨hylinkListAdd s.hyMap dev.woken, w⟩ d
        dev.woken := by
  have hwoken : dev.woken = { dev with online := subdevOnline } := if_pos hoff
  unfold updateAttr
  dsimp only
  simp only [if_pos hoff, hwoken, runTransferCb_ofCalls, ok_bind]
  exact ⟨_, rfl⟩

theorem held_updateAttr (h : hylinkListGetById s.hyMap k = some dev) :
    held (updateAttr (.ofCalls charSigned hyprofile call) s d dev) =
      ((hylinkSubDevAttrUpdate charSigned dev.woken d).toOption.map fun r => some r.1).map
        (Function.update (hylinkListGetById s.hyMap) k) := by
  by_cases hoff : dev.online = subdevOffline
  · have hk : dev.woken.devId = k := dev.woken_devId.trans (hylinkListGetById_devId h)
    have hmap := hylinkListGetById_add_eq_update s.hyMap hk
    have hget : hylinkListGetById (hylinkListAdd s.hyMap dev.woken) k = some dev.woken := by
      rw [hmap, update_self]
    have hidem : update (hylinkListGetById (hylinkListAdd s.hyMap dev.woken)) k =
        update (hylinkListGetById s.hyMap) k := by
      funext v
      rw [hmap, update_idem]
    obtain ⟨w, heq⟩ := updateAttr_asleep hoff
    rw [heq, held_updateAttr_awake hget dev.woken_online, hidem]
  · have hwoken : dev.woken = dev := if_neg hoff
    rw [hwoken]
    exact held_updateAttr_awake h hoff

theorem getByteForJson_keeps_or (json : Json) (src : CText) :
    (∀ dst, getByteForJson json src dst = some dst) ∨
      ∃ o, ∀ dst, getByteForJson json src dst = o := by
  unfold getByteForJson
  cases json.getObjectItem src with
  | none => exact .inl fun dst => rfl
  | some v => exact .inr ⟨_, fun dst => rfl⟩

variable (call) in
/-- An element of a report about devices changes what is held for one id. -/
theorem held_recvElement (htype : type.ofDevice = true) :
    held (recvElement (.ofCalls charSigned hyprofile call) type d s k) =
      act (entryAfter charSigned hyprofile type) (hylinkListGetById s.hyMap) k d := by
  have hsame : Function.update (hylinkListGetById s.hyMap) k (hylinkListGetById s.hyMap k) =
      hylinkListGetById s.hyMap := Function.update_eq_self ..
  unfold act
  cases hdev : hylinkListGetById s.hyMap k with
  | none =>
    rw [hdev] at hsame
    have hmodel : held (if hasObjectItem d strModelId then do
          let hyModelId ← Fault.ofOption (getStrForJson d strModelId devIdLen [])
          addDev (.ofCalls charSigned hyprofile call) s k hyModelId true
        else return s) =
        (if hasObjectItem d strModelId then madeDev hyprofile k d else some none).map
          (Function.update (hylinkListGetById s.hyMap) k) := by
      split
      · exact held_addDev hdev true
      · simp [hsame]
    cases type with
    | register =>
      simp only [recvElement, hdev, entryAfter]
      exact held_addDev hdev false
    | unRegister => simp [recvElement, hdev, entryAfter, hsame]
    | onOff =>
      simp only [recvElement, hdev, entryAfter]
      cases getByteForJson d strValue 0 with
      | none => rfl
      | some online =>
        simp only [Fault.ofOption, ok_bind, bind_eq_bind, bind_some]
        split
        · exact held_addDev hdev true
        · simp [hsame]
    | attr | event | devAttri =>
      simp only [recvElement, hdev, entryAfter]
      exact hmodel
    | devsInfo | localScene | reFactory => cases htype
  | some dev =>
    rw [hdev] at hsame
    have hk : dev.devId = k := hylinkListGetById_devId hdev
    have hwrite (online : BitVec 8) :
        hylinkListGetById (hylinkListAdd s.hyMap { dev with online := online }) =
          Function.update (hylinkListGetById s.hyMap) k (some { dev with online := online }) :=
      hylinkListGetById_add_eq_update s.hyMap hk
    cases type with
    | register =>
      simp only [recvElement, hdev, entryAfter, runTransferCb_ofCalls, held_ok, hwrite]
      rfl
    | unRegister =>
      simp only [recvElement, hdev, entryAfter, runTransferCb_ofCalls, ok_bind, entry, hk]
      simp only [held_pure, map_some, some.injEq]
      funext id
      rw [hylinkListGetById_del, Function.update_apply]
      simp only [eq_comm]
    | onOff =>
      have hstay (online : BitVec 8) (h : online = dev.online) :
          Function.update (hylinkListGetById s.hyMap) k (some { dev with online := online }) =
            hylinkListGetById s.hyMap := by
        rw [h]
        exact hsame
      simp only [recvElement, hdev, entryAfter]
      obtain hkeeps | ⟨o, ho⟩ := getByteForJson_keeps_or d strValue
      · simp only [hkeeps, Fault.ofOption, ok_bind, bind_eq_bind, bind_some]
        split
        · simp [hstay]
        · simp [runTransferCb_ofCalls, hwrite]
      · simp only [ho]
        cases o with
        | none => rfl
        | some online =>
          simp only [Fault.ofOption, ok_bind, bind_eq_bind, bind_some]
          split
          next h => simp [hstay _ h]
          next => simp [runTransferCb_ofCalls, hwrite]
    | attr | event | devAttri =>
      simp only [recvElement, hdev, entryAfter]
      exact held_updateAttr hdev
    | devsInfo | localScene | reFactory => cases htype

variable (call) in
theorem held_recvStep (htype : type.ofDevice = true) (ds : List Json) :
    held ((ds.foldlM (recvStep (.ofCalls charSigned hyprofile call) type) (s, k)).map Prod.fst) =
      loop ownDevId (entryAfter charSigned hyprofile type) k (hylinkListGetById s.hyMap) ds := by
  induction ds generalizing s k with
  | nil => rfl
  | cons d ds ih =>
    rw [loop_cons, keyOf_ownDevId, List.foldlM_cons, recvStep]
    cases hk : getStrForJson d strDeviceId devIdLen k with
    | none => rfl
    | some k' =>
      simp only [Fault.ofOption, ok_bind, bind_some]
      rw [← held_recvElement call htype]
      cases recvElement (.ofCalls charSigned hyprofile call) type d s k' with
      | error f => rfl
      | ok s' => exact ih

/-- The report with these elements. -/
def deviceReport (type : ReportType) (ds : List Json) : Json :=
  .object [(strCommand, .string strReport), (strType, .string type.text), (strData, .array ds)]

theorem deviceReport_isReport (type : ReportType) (ds : List Json) :
    IsReport (deviceReport type ds) type ds where
  command := rfl
  type := by cases type <;> rfl
  data := rfl

variable (charSigned hyprofile call) in
/-- What is held after a report. -/
def recvHeld (s : HyState χ) (root : Json) : Option (CText → Option HyLinkDev) :=
  held ((hylinkRecvAnaly (.ofCalls charSigned hyprofile call) s root).map Prod.fst)

variable (charSigned hyprofile call) in
/-- What is held after the elements of a report, each in a report of its own. -/
def recvEach (s : HyState χ) (type : ReportType) (ds : List Json) :
    Option (CText → Option HyLinkDev) :=
  held (ds.foldlM (fun s d =>
    (hylinkRecvAnaly (.ofCalls charSigned hyprofile call) s (deviceReport type [d])).map
      Prod.fst) s)

theorem IsReport.recvHeld_eq {root : Json} {ds : List Json} (h : IsReport root type ds)
    (htype : type.ofDevice = true) :
    recvHeld charSigned hyprofile call s root =
      loop ownDevId (entryAfter charSigned hyprofile type) [] (hylinkListGetById s.hyMap) ds := by
  have hreset : type ≠ .reFactory := by
    rintro rfl
    cases htype
  rw [← held_recvStep call htype, recvHeld, h.hylinkRecvAnaly_eq hreset]
  cases ds.foldlM (recvStep (.ofCalls charSigned hyprofile call) type) (s, []) with
  | error f => rfl
  | ok r => rfl

theorem recvEach_eq (htype : type.ofDevice = true) (ds : List Json) :
    recvEach charSigned hyprofile call s type ds =
      ds.foldlM (alone ownDevId (entryAfter charSigned hyprofile type) [])
        (hylinkListGetById s.hyMap) := by
  induction ds generalizing s with
  | nil => rfl
  | cons d ds ih =>
    have hone : recvHeld charSigned hyprofile call s (deviceReport type [d]) = _ :=
      (deviceReport_isReport type [d]).recvHeld_eq htype
    simp only [loop, bind_eq_bind, bind_fun_some] at hone
    rw [List.foldlM_cons, alone, bind_eq_bind, bind_eq_bind, ← hone]
    simp only [recvEach, List.foldlM_cons, recvHeld]
    cases hylinkRecvAnaly (.ofCalls charSigned hyprofile call) s (deviceReport type [d]) with
    | error f => rfl
    | ok r => exact ih

end

/-! ## Elements without a device id -/

/-- No element without a device id, behind one with an id that is not empty, changes what is held
for that id or for the empty one. -/
def OnOwn (s : HyState χ) (type : ReportType) (ds : List Json) : Prop :=
  Carried.OnOwn ownDevId (entryAfter charSigned hyprofile type) [] []
    (hylinkListGetById s.hyMap) ds

theorem recvHeld_eq_recvEach_iff (s : HyState χ) (htype : type.ofDevice = true) (ds : List Json) :
    (∀ front, front <+: ds → ∀ root, IsReport root type front →
      recvHeld charSigned hyprofile call s root =
        recvEach charSigned hyprofile call s type front) ↔
      OnOwn charSigned hyprofile s type ds := by
  rw [OnOwn, ← loop_eq_alone_iff]
  refine forall₂_congr fun front _ => ?_
  rw [recvEach_eq htype]
  constructor
  · intro h
    have hfront := deviceReport_isReport type front
    rw [← h _ hfront, hfront.recvHeld_eq htype]
  · intro h root hroot
    rw [hroot.recvHeld_eq htype, h]

/-- Of the gateway and of the cloud bridge: a message about devices does, after each of its
elements, what messages with one element do, exactly when no element without a device id comes
behind one with an id and would change the device of that id or of the empty one. -/
theorem elements_alone_iff (ds : List Json) :
    (∀ (g : Gateway) (command : CText) (type : RecvType),
      type.ofDevice = true → command ≠ strTcpBeatHeart →
        ((∀ front, front <+: ds → ∀ root, IsMessage root command type front →
          g.recvView root = g.recvEach command type front) ↔ g.OnOwn type ds)) ∧
    ∀ (charSigned : Bool) (hyprofile : CText → Option Json) (χ : Type)
      (call : List HyLinkDev → Transfer → χ → χ) (s : HyState χ) (type : ReportType),
      type.ofDevice = true →
        ((∀ front, front <+: ds → ∀ root, IsReport root type front →
          recvHeld charSigned hyprofile call s root =
            recvEach charSigned hyprofile call s type front) ↔
          OnOwn charSigned hyprofile s type ds) :=
  ⟨fun g _ _ htype hcommand => g.recvView_eq_recvEach_iff htype hcommand ds,
    fun charSigned hyprofile _ call s _ htype =>
      recvHeld_eq_recvEach_iff charSigned hyprofile call s htype ds⟩

namespace Sample

/-- A device is online. -/
def goesOnline (id : CText) : Json :=
  .object [(strDeviceId, .string id), (strValue, .string ['1'])]

/-- Something is offline, but what is left out. -/
def goesOffline : Json := .object [(strValue, .string ['0'])]

/-- A gateway with a device that is online. -/
def oneDevice : Gateway := ⟨[⟨['a'], ['m'], 1⟩], [(['a'], ['m'])]⟩

/-- A cloud bridge with a device that is online. -/
def oneHyDevice : HyState Unit := ⟨[⟨['a'], ['m'], 1, []⟩], ()⟩

end Sample

open Sample in
/-- Two devices are online. -/
theorem elements_alone_sample :
    oneDevice.recvView (deviceMessage strReport .onoff [goesOnline ['a'], goesOnline ['b']]) =
        oneDevice.recvEach strReport .onoff [goesOnline ['a'], goesOnline ['b']] ∧
      recvHeld true (fun _ => none) (fun _ _ w => w) oneHyDevice
          (deviceReport .onOff [goesOnline ['a'], goesOnline ['b']]) =
        recvEach true (fun _ => none) (fun _ _ w => w) oneHyDevice .onOff
          [goesOnline ['a'], goesOnline ['b']] := by
  have hown : ∀ d ∈ [goesOnline ['a'], goesOnline ['b']], ownDevId d ≠ some none := by
    decide
  exact ⟨((elements_alone_iff _).1 oneDevice strReport .onoff rfl (by decide)).mpr
      (onOwn_of_forall hown) _ (List.prefix_refl _) _ (deviceMessage_isMessage ..),
    ((elements_alone_iff _).2 true (fun _ => none) Unit (fun _ _ w => w) oneHyDevice .onOff
      rfl).mpr (onOwn_of_forall hown) _ (List.prefix_refl _) _ (deviceReport_isReport ..)⟩

open Sample in
/-- An element without a device id turns off the device of the element before. -/
theorem elements_not_alone :
    (¬ ∀ (g : Gateway) (command : CText) (type : RecvType) (ds : List Json),
      type.ofDevice = true → command ≠ strTcpBeatHeart →
        g.recvView (deviceMessage command type ds) = g.recvEach command type ds) ∧
    ¬ ∀ (charSigned : Bool) (hyprofile : CText → Option Json) (χ : Type)
      (call : List HyLinkDev → Transfer → χ → χ) (s : HyState χ) (type : ReportType)
      (ds : List Json), type.ofDevice = true →
        recvHeld charSigned hyprofile call s (deviceReport type ds) =
          recvEach charSigned hyprofile call s type ds := by
  constructor
  · intro h
    have hview := congrArg (Option.map fun v => (v ['a']).1)
      (h oneDevice strReport .onoff [goesOnline ['a'], goesOffline] rfl (by decide))
    revert hview
    decide
  · intro h
    have hheld := congrArg (Option.map fun v => v ['a'])
      (h true (fun _ => none) Unit (fun _ _ w => w) oneHyDevice .onOff
        [goesOnline ['a'], goesOffline] rfl)
    revert hheld
    decide

end Honyar.Libhylink
