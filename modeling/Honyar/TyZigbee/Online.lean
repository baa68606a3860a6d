import Honyar.Lib.Presence
import Honyar.TyZigbee.Control
import Honyar.TyZigbee.Exchange

/-!
# Devices that are online

A device of the Zigbee process is online from a sign of life on (`hylinkOnlineFresh`) up to a
heartbeat (heartbeat.c) that finds the last sign too old; the time of the last sign is zero where it
is not.  What is reported of one device is that of a party that is watched.

Times are whole numbers, and a sum of times does not leave the range of a `long`.
-/

namespace Honyar.TyZigbee

open Faults Except HylinkDev
open Hylink (strType strData strDeviceId strModelId strKey strValue)
open Option List

/-- `HEART_TIMER` and `HEART_AUTO_REPORT`. -/
def heartTimer : Int := 300
def heartAutoReport : BitVec 8 := 1

def strOnOff : CText := "OnOff".toList

namespace HylinkDev

def setVersionText (t : CText) (d : HylinkDev) : HylinkDev := { d with Version := t }
def setVersion (v : BitVec 8) (d : HylinkDev) : HylinkDev := { d with version := v }
def setActiveTime (t : Int) (d : HylinkDev) : HylinkDev := { d with activeTime := t }

@[simp] theorem setVersionText_id (t : CText) (d : HylinkDev) :
    (d.setVersionText t).DeviceId = d.DeviceId := rfl
@[simp] theorem setVersion_id (v : BitVec 8) (d : HylinkDev) :
    (d.setVersion v).DeviceId = d.DeviceId := rfl
@[simp] theorem setActiveTime_id (t : Int) (d : HylinkDev) :
    (d.setActiveTime t).DeviceId = d.DeviceId := rfl

end HylinkDev

/-- Fields of the entry of a device are set. -/
def hylinkListSet (f : HylinkDev → HylinkDev) (key : CText) (hyMap : List HylinkDev) :
    List HylinkDev :=
  hyMap.map fun d => if d.DeviceId = key then f d else d

variable (charSigned : Bool) (python : Python) (unset : Unset) (send : ApsFrame → Int)
variable (profiles : List ZigbeeProfile)

/-- `zigbeeListGet`, with all there is of a profile. -/
def zigbeeProfile (key : CText) : Option ZigbeeProfile := profiles.find? (·.manuName = key)

/-- The profiles, as far as a device is named by them. -/
def models : List ZigbeeModel := profiles.map (·.toZigbeeModel)

theorem zigbeeListGet_models (key : CText) :
    zigbeeListGet (models profiles) key = (zigbeeProfile profiles key).map (·.toZigbeeModel) := by
  rw [zigbeeListGet, models, zigbeeProfile, find?_map]
  rfl

/-- `hylinkOnlineFresh`, at the time `now`. -/
def hylinkOnlineFresh (now : Int) (s : Process) (devId version : CText) : Except Fault Process :=
  match hylinkListGet s.hyMap devId with
  | none => return s
  | some hyDev => do
    let Version ← strcpy textLen version
    let s := { s with hyMap := hylinkListSet (.setVersionText Version) devId s.hyMap }
    let s := if hyDev.activeTime = 0 ∨ 0 < hyDev.version.toInt then
      let s := { s with hyMap := hylinkListSet (.setVersion 0) devId s.hyMap }
      let s := s.send (hylinkSendSingleFunc (models profiles) s.hyMap hyDev.DeviceId strOnOff
        (some strOnline) (some ['1']))
      s.send (hylinkSendSingleFunc (models profiles) s.hyMap hyDev.DeviceId strAttribute
        (some strVersion) (some Version))
    else s
    return { s with hyMap := hylinkListSet (.setActiveTime now) devId s.hyMap }

/-- `zigbeeZclDispatch` of a device, with the frames it sends: a query of the version is noted. -/
def devZclDispatch (s : Process) (devId : CText) (key value : Option CText) :
    Except Fault (Process × List ApsFrame × Int) :=
  match hylinkListGet s.hyMap devId with
  | none => return (s, [], -1)
  | some hyDev =>
    match zigbeeProfile profiles hyDev.ModelId with
    | none => return (s, [], -1)
    | some zDev => do
      let s := if value = none ∧ key = some strVersion then
        { s with hyMap := hylinkListSet (.setVersion 1) devId s.hyMap }
      else s
      let (frames, res) ← zigbeeZclDispatch charSigned python unset send zDev key value
      return (s, frames, res)

/-- The loop of `heartbeat`, of one device. -/
def beatDevice (curTime : Int) (s : Process) (hyDev : HylinkDev) : Except Fault Process :=
  if hyDev.activeTime = 0 then return s
  else
    match zigbeeProfile profiles hyDev.ModelId with
    | none => return s
    | some zDev =>
      if curTime > hyDev.activeTime + zDev.heartbeatTime then
        let s := { s with
          hyMap := hylinkListSet (.setActiveTime 0) hyDev.DeviceId s.hyMap }
        return s.send (hylinkSendSingleFunc (models profiles) s.hyMap hyDev.DeviceId strOnOff
          (some strOnline) (some ['0']))
      else if curTime > hyDev.activeTime + heartTimer then
        if zDev.heart_type ≠ heartAutoReport then do
          let s := s.call
            (.dispatch hyDev.DeviceId (some hyDev.ModelId) (some strVersion) none)
          return (← devZclDispatch charSigned python unset send profiles s hyDev.DeviceId
            (some strVersion) none).1
        else return s
      else return s

/-- `heartbeat`, at the time `curTime`: the devices of the map in the order of its buckets. -/
def heartbeat (curTime : Int) (s : Process) : Except Fault Process :=
  s.hyMap.foldlM (beatDevice charSigned python unset send profiles curTime) s

/-- What happens to the process. -/
inductive Op where
  /-- `hylinkOnlineFresh`. -/
  | fresh (devId version : CText)
  /-- `heartbeat`. -/
  | beat
  /-- `zigbeeZclDispatch`, of the version. -/
  | query (devId : CText)
  /-- `hylinkDevJoin`. -/
  | join (devId version manuName : CText)
deriving DecidableEq, Repr

def step (s : Process) (t : Int) : Op → Except Fault Process
  | .fresh devId version => hylinkOnlineFresh profiles t s devId version
  | .beat => heartbeat charSigned python unset send profiles t s
  | .query devId => do
    return (← devZclDispatch charSigned python unset send profiles s devId (some strVersion)
      none).1
  | .join devId version manuName => hylinkDevJoin (models profiles) s devId version manuName

/-! ## What is seen of a device -/

/-- Whether a message reports a device as online, if it does. -/
def onOffOf (d : CText) (json : Json) : Option Bool := do
  guard ((json.getObjectItem strType).bind Json.valuestring? = some strOnOff)
  let item ← (← json.getObjectItem strData).children.head?
  guard ((item.getObjectItem strDeviceId).bind Json.valuestring? = some d)
  guard ((item.getObjectItem strKey).bind Json.valuestring? = some strOnline)
  let value ← (item.getObjectItem strValue).bind Json.valuestring?
  if value = ['0'] then some false else if value = ['1'] then some true else none

/-- What messages report of a device. -/
def onOffs (d : CText) (sent : List Json) : List Bool := sent.filterMap (onOffOf d)

/-- The time of the last sign of a device, and its model. -/
def view (d : CText) (s : Process) : Presence.View CText :=
  (hylinkListGet s.hyMap d).map fun hyDev => (hyDev.activeTime, hyDev.ModelId)

/-- How long a device of a model may be silent. -/
def limitOf (modelId : CText) : Option ℤ := (zigbeeProfile profiles modelId).map (·.heartbeatTime)

/-- The operation is a sign of life of the device. -/
def Op.refreshes (d : CText) : Op → Bool
  | .fresh devId _ => devId = d
  | _ => false

/-- A step, as it is seen of a device. -/
def observe (d : CText) (s : Process) (t : Int) (op : Op) (s' : Process) : Presence.Event CText :=
  ⟨t, op.refreshes d, view d s, onOffs d (s'.sent.drop s.sent.length), view d s'⟩

/-- The steps of a run, as they are seen of a device. -/
def events (d : CText) : Process → List (Int × Op) → Except Fault (List (Presence.Event CText))
  | _, [] => return []
  | s, (t, op) :: ops => do
    let s' ← step charSigned python unset send profiles s t op
    return observe d s t op s' :: (← events d s' ops)

section

variable {profiles} {d devId : CText} {s s' : Process} {hyMap : List HylinkDev}
variable {key value : Option CText} {hyDev : HylinkDev} {t : Int} {version : CText}

theorem hylinkListGet_hylinkListSet {f : HylinkDev → HylinkDev}
    (hf : ∀ x, (f x).DeviceId = x.DeviceId) (key d : CText) (hyMap : List HylinkDev) :
    hylinkListGet (hylinkListSet f key hyMap) d =
      if key = d then (hylinkListGet hyMap d).map f else hylinkListGet hyMap d := by
  rw [hylinkListGet, hylinkListSet, find?_map]
  have hkey : ((fun x : HylinkDev => decide (x.DeviceId = d)) ∘
      fun x => if x.DeviceId = key then f x else x) = fun x => decide (x.DeviceId = d) := by
    funext x
    simp only [Function.comp_apply]
    split
    · rw [hf]
    · rfl
  rw [hkey]
  cases hget : hylinkListGet hyMap d with
  | none =>
    rw [hylinkListGet] at hget
    rw [hget]
    split <;> rfl
  | some hyDev =>
    have hid : hyDev.DeviceId = d := by simpa using find?_some hget
    rw [hylinkListGet] at hget
    rw [hget, map_some, hid]
    by_cases hk : key = d
    · rw [if_pos hk, if_pos hk.symm, map_some]
    · rw [if_neg hk, if_neg (Ne.symm hk)]

theorem map_hylinkListSet {f : HylinkDev → HylinkDev} (hf : ∀ x, (f x).DeviceId = x.DeviceId)
    (key : CText) (hyMap : List HylinkDev) :
    (hylinkListSet f key hyMap).map HylinkDev.DeviceId = hyMap.map HylinkDev.DeviceId := by
  rw [hylinkListSet, List.map_map]
  refine map_congr_left fun x _ => ?_
  rw [Function.comp_apply]
  split
  · exact hf x
  · rfl

theorem onOffs_append (d : CText) (a b : List Json) :
    onOffs d (a ++ b) = onOffs d a ++ onOffs d b :=
  filterMap_append

theorem hylinkListGet_hylinkListAdd (hyMap : List HylinkDev) (dev : HylinkDev) (d : CText) :
    hylinkListGet (hylinkListAdd hyMap dev) d =
      if dev.DeviceId = d then some dev else hylinkListGet hyMap d :=
  Store.find?_put dev d hyMap

theorem onOffOf_reportJson (type DeviceId ModelId : CText) (key value : Option CText) :
    onOffOf d (reportJson type ([(strDeviceId, .string DeviceId), (strModelId, .string ModelId)] ++
      addString? strKey key ++ addString? strValue value)) =
      if type = strOnOff ∧ DeviceId = d ∧ key = some strOnline then
        value.bind fun v => if v = ['0'] then some false else if v = ['1'] then some true else none
      else none := by
  generalize hitems : [(strDeviceId, Json.string DeviceId), (strModelId, .string ModelId)] ++
    addString? strKey key ++ addString? strValue value = items
  have htype : (reportJson type items).getObjectItem strType = some (.string type) := rfl
  have hdata : (reportJson type items).getObjectItem strData = some (.array [.object items]) := rfl
  have hid : (Json.object items).getObjectItem strDeviceId = some (.string DeviceId) := by
    rw [← hitems]
    rfl
  have hkey : (Json.object items).getObjectItem strKey = key.map .string := by
    rw [← hitems]
    cases key <;> cases value <;> rfl
  have hvalue : (Json.object items).getObjectItem strValue = value.map .string := by
    rw [← hitems]
    cases key <;> cases value <;> rfl
  have hbind (t : Option CText) : (t.map Json.string).bind Json.valuestring? = t := by
    cases t <;> rfl
  have hstring (t : CText) : (Json.string t).valuestring? = some t := rfl
  simp only [onOffOf, htype, hdata, hid, hkey, hvalue, hbind, hstring, Json.children,
    head?_cons, bind_eq_bind, bind_some, some.injEq]
  by_cases hall : type = strOnOff ∧ DeviceId = d ∧ key = some strOnline
  · obtain ⟨rfl, rfl, rfl⟩ := hall
    simp
  · rw [if_neg hall]
    simp only [not_and_or] at hall
    rcases hall with h | h | h <;> simp [h]

theorem onOffs_other {type : CText} (h : devId ≠ d ∨ type ≠ strOnOff) :
    onOffs d (hylinkSendSingleFunc (models profiles) hyMap devId type key value).toList = [] := by
  unfold hylinkSendSingleFunc
  cases hget : hylinkListGet hyMap devId with
  | none => rfl
  | some hyDev =>
    simp only [bind_eq_bind, bind_some]
    cases hz : zigbeeListGet (models profiles) hyDev.ModelId with
    | none => rfl
    | some zDev =>
      rw [bind_some, Option.pure_def, toList_some, onOffs, filterMap_cons,
        onOffOf_reportJson, if_neg]
      · rfl
      · rintro ⟨htype, hid, -⟩
        exact h.elim (fun hne => hne hid) fun hne => hne htype

theorem onOffs_self (hget : hylinkListGet hyMap d = some hyDev) {zDev : ZigbeeProfile}
    (hz : zigbeeProfile profiles hyDev.ModelId = some zDev) (value : CText) :
    onOffs d (hylinkSendSingleFunc (models profiles) hyMap d strOnOff (some strOnline)
      (some value)).toList =
      (if value = ['0'] then some false else if value = ['1'] then some true else none).toList := by
  unfold hylinkSendSingleFunc
  rw [hget]
  simp only [bind_eq_bind, bind_some, zigbeeListGet_models, hz, map_some,
    Option.pure_def, toList_some, onOffs, filterMap_cons, filterMap_nil,
    onOffOf_reportJson, if_true, and_self]
  cases (if value = ['0'] then some false else if value = ['1'] then some true else none :
    Option Bool) <;> rfl

theorem onOffs_none (hget : hylinkListGet hyMap d = some hyDev)
    (hz : zigbeeProfile profiles hyDev.ModelId = none) {type : CText} :
    onOffs d (hylinkSendSingleFunc (models profiles) hyMap d type key value).toList = [] := by
  unfold hylinkSendSingleFunc
  rw [hget]
  simp only [bind_eq_bind, bind_some, zigbeeListGet_models, hz, map_none,
    bind_none]
  rfl

/-! ## Each step is a change -/

/-- Nothing is seen of the device, and its entry stays. -/
structure Untouched (d : CText) (s s' : Process) : Prop where
  get : hylinkListGet s'.hyMap d = hylinkListGet s.hyMap d
  ids : s'.hyMap.map HylinkDev.DeviceId = s.hyMap.map HylinkDev.DeviceId
  sent : ∃ new, s'.sent = s.sent ++ new ∧ onOffs d new = []

/-- What is seen of the device is a change. -/
def Changes (profiles : List ZigbeeProfile) (d : CText) (t : Int) (sign : Bool) (s s' : Process) :
    Prop :=
  ∃ new, s'.sent = s.sent ++ new ∧
    Presence.Change (limitOf profiles) t sign (view d s) (onOffs d new) (view d s')

theorem Untouched.trans {s₁ s₂ s₃ : Process} (h : Untouched d s₁ s₂) (h' : Untouched d s₂ s₃) :
    Untouched d s₁ s₃ := by
  obtain ⟨new, hnew, hout⟩ := h.sent
  obtain ⟨new', hnew', hout'⟩ := h'.sent
  refine ⟨h'.get.trans h.get, h'.ids.trans h.ids, new ++ new', ?_, ?_⟩
  · rw [hnew', hnew, append_assoc]
  · rw [onOffs_append, hout, hout', append_nil]

theorem Changes.around {sign : Bool} {s₁ s₂ s₃ s₄ : Process} (h₁ : Untouched d s₁ s₂)
    (h : Changes profiles d t sign s₂ s₃) (h₂ : Untouched d s₃ s₄) :
    Changes profiles d t sign s₁ s₄ := by
  obtain ⟨a, ha, hout⟩ := h₁.sent
  obtain ⟨b, hb, hchange⟩ := h
  obtain ⟨c, hc, hout'⟩ := h₂.sent
  refine ⟨a ++ b ++ c, ?_, ?_⟩
  · rw [hc, hb, ha, append_assoc, append_assoc, append_assoc]
  · have hreports : onOffs d (a ++ b ++ c) = onOffs d b := by
      rw [onOffs_append, onOffs_append, hout, hout', nil_append, append_nil]
    have hbefore : view d s₂ = view d s₁ := congrArg (Option.map _) h₁.get
    have hafter : view d s₄ = view d s₃ := congrArg (Option.map _) h₂.get
    rw [hreports, hafter, ← hbefore]
    exact hchange

theorem Untouched.changes (h : Untouched d s s') : Changes profiles d t false s s' := by
  obtain ⟨new, hnew, hout⟩ := h.sent
  have hview : view d s' = view d s := congrArg (Option.map _) h.get
  exact ⟨new, hnew, by rw [hout, hview]; exact .keep _⟩

section Dispatch

variable {charSigned : Bool} {python : Python} {unset : Unset} {send : ApsFrame → Int}

/-- A query leaves what is seen of a device, and the other ones altogether. -/
theorem devZclDispatch_spec {r : Process × List ApsFrame × Int}
    (h : devZclDispatch charSigned python unset send profiles s devId key value = .ok r) :
    r.1.sent = s.sent ∧ view d r.1 = view d s ∧
      r.1.hyMap.map HylinkDev.DeviceId = s.hyMap.map HylinkDev.DeviceId ∧
      (devId ≠ d → hylinkListGet r.1.hyMap d = hylinkListGet s.hyMap d) := by
  unfold devZclDispatch at h
  split at h
  next =>
    obtain rfl := ok.inj h
    exact ⟨rfl, rfl, rfl, fun _ => rfl⟩
  next hyDev hget =>
    split at h
    next =>
      obtain rfl := ok.inj h
      exact ⟨rfl, rfl, rfl, fun _ => rfl⟩
    next zDev hz =>
      obtain ⟨⟨frames, res⟩, -, h⟩ := bind_eq_ok.mp h
      obtain rfl := ok.inj h
      dsimp only
      split
      next =>
        refine ⟨rfl, ?_, map_hylinkListSet (setVersion_id 1) _ _, fun hne => ?_⟩
        · simp only [view]
          rw [hylinkListGet_hylinkListSet (setVersion_id 1)]
          split
          · rw [Option.map_map]
            rfl
          · rfl
        · dsimp only
          rw [hylinkListGet_hylinkListSet (setVersion_id 1), if_neg hne]
      next => exact ⟨rfl, rfl, rfl, fun _ => rfl⟩

theorem beatDevice_other (hne : hyDev.DeviceId ≠ d)
    (h : beatDevice charSigned python unset send profiles t s hyDev = .ok s') :
    Untouched d s s' := by
  have hrefl : Untouched d s s := ⟨rfl, rfl, [], (append_nil _).symm, rfl⟩
  unfold beatDevice at h
  split at h
  next => exact ok.inj h ▸ hrefl
  next =>
    split at h
    next => exact ok.inj h ▸ hrefl
    next zDev hz =>
      split at h
      next =>
        obtain rfl := ok.inj h
        refine ⟨?_, map_hylinkListSet (setActiveTime_id 0) _ _, _, rfl,
          onOffs_other (.inl hne)⟩
        exact (hylinkListGet_hylinkListSet (setActiveTime_id 0) _ _ _).trans (if_neg hne)
      next =>
        split at h
        next =>
          split at h
          next =>
            obtain ⟨r, hr, h⟩ := bind_eq_ok.mp h
            obtain rfl := ok.inj h
            obtain ⟨hsent, -, hids, hget⟩ := devZclDispatch_spec (d := d) hr
            exact ⟨hget hne, hids, [], by rw [hsent, append_nil]; rfl, rfl⟩
          next => exact ok.inj h ▸ hrefl
        next => exact ok.inj h ▸ hrefl

theorem beatDevice_self (hget : hylinkListGet s.hyMap d = some hyDev)
    (h : beatDevice charSigned python unset send profiles t s hyDev = .ok s') :
    Changes profiles d t false s s' ∧
      s'.hyMap.map HylinkDev.DeviceId = s.hyMap.map HylinkDev.DeviceId := by
  have hrefl : Untouched d s s := ⟨rfl, rfl, [], (append_nil _).symm, rfl⟩
  have hid : hyDev.DeviceId = d := by simpa using find?_some hget
  unfold beatDevice at h
  split at h
  next => exact ok.inj h ▸ ⟨hrefl.changes, rfl⟩
  next hactive =>
    split at h
    next => exact ok.inj h ▸ ⟨hrefl.changes, rfl⟩
    next zDev hz =>
      split at h
      next hlate =>
        obtain rfl := ok.inj h
        subst hid
        have hget' : hylinkListGet (hylinkListSet (.setActiveTime 0) hyDev.DeviceId s.hyMap)
            hyDev.DeviceId = some (hyDev.setActiveTime 0) := by
          rw [hylinkListGet_hylinkListSet (setActiveTime_id 0), if_pos rfl, hget]
          rfl
        have hbefore : view hyDev.DeviceId s = some (hyDev.activeTime, hyDev.ModelId) :=
          congrArg (Option.map _) hget
        refine ⟨⟨_, rfl, ?_⟩, map_hylinkListSet (setActiveTime_id 0) _ _⟩
        rw [hbefore, onOffs_self hget' hz ['0'],
          show view hyDev.DeviceId _ = _ from congrArg (Option.map _) hget']
        exact .lose hactive (congrArg (Option.map _) hz) hlate
      next =>
        split at h
        next =>
          split at h
          next =>
            obtain ⟨r, hr, h⟩ := bind_eq_ok.mp h
            obtain rfl := ok.inj h
            obtain ⟨hsent, hview, hids, -⟩ := devZclDispatch_spec (d := d) hr
            refine ⟨⟨[], by rw [hsent, append_nil]; rfl, ?_⟩, hids⟩
            rw [hview]
            exact .keep _
          next => exact ok.inj h ▸ ⟨hrefl.changes, rfl⟩
        next => exact ok.inj h ▸ ⟨hrefl.changes, rfl⟩

theorem foldlM_beatDevice_other {devs : List HylinkDev} (hne : ∀ hyDev ∈ devs, hyDev.DeviceId ≠ d)
    (h : devs.foldlM (beatDevice charSigned python unset send profiles t) s = .ok s') :
    Untouched d s s' := by
  induction devs generalizing s with
  | nil =>
    obtain rfl := ok.inj h
    exact ⟨rfl, rfl, [], (append_nil _).symm, rfl⟩
  | cons hyDev devs ih =>
    rw [foldlM_cons] at h
    obtain ⟨s₁, hs₁, h⟩ := bind_eq_ok.mp h
    exact (beatDevice_other (hne hyDev mem_cons_self) hs₁).trans
      (ih (fun x hx => hne x (mem_cons_of_mem _ hx)) h)

theorem heartbeat_changes (hids : (s.hyMap.map HylinkDev.DeviceId).Nodup)
    (h : heartbeat charSigned python unset send profiles t s = .ok s') :
    Changes profiles d t false s s' ∧
      s'.hyMap.map HylinkDev.DeviceId = s.hyMap.map HylinkDev.DeviceId := by
  unfold heartbeat at h
  cases hget : hylinkListGet s.hyMap d with
  | none =>
    have hne : ∀ hyDev ∈ s.hyMap, hyDev.DeviceId ≠ d := fun hyDev hmem heq =>
      find?_eq_none.mp hget hyDev hmem (decide_eq_true heq)
    have huntouched := foldlM_beatDevice_other hne h
    exact ⟨huntouched.changes, huntouched.ids⟩
  | some hyDev =>
    have hid : hyDev.DeviceId = d := by simpa using find?_some hget
    obtain ⟨front, back, hmap⟩ := append_of_mem (mem_of_find?_eq_some hget)
    -- no other entry has the id
    rw [hmap, map_append, map_cons, hid, nodup_append] at hids
    obtain ⟨-, hback, hfront⟩ := hids
    have hne₁ : ∀ x ∈ front, x.DeviceId ≠ d := fun x hx heq =>
      hfront _ (List.mem_map_of_mem hx) d mem_cons_self heq
    have hne₂ : ∀ x ∈ back, x.DeviceId ≠ d := fun x hx heq =>
      (nodup_cons.mp hback).1 (heq ▸ List.mem_map_of_mem hx)
    rw [hmap, foldlM_append] at h
    obtain ⟨s₁, hs₁, h⟩ := bind_eq_ok.mp h
    rw [foldlM_cons] at h
    obtain ⟨s₂, hs₂, h⟩ := bind_eq_ok.mp h
    have hbefore := foldlM_beatDevice_other hne₁ hs₁
    obtain ⟨hchange, hids₂⟩ := beatDevice_self (hbefore.get.trans hget) hs₂
    have hafter := foldlM_beatDevice_other hne₂ h
    exact ⟨.around hbefore hchange hafter, hafter.ids.trans (hids₂.trans hbefore.ids)⟩

end Dispatch

theorem hylinkOnlineFresh_other (hne : devId ≠ d)
    (h : hylinkOnlineFresh profiles t s devId version = .ok s') : Untouched d s s' := by
  unfold hylinkOnlineFresh at h
  split at h
  next =>
    obtain rfl := ok.inj h
    exact ⟨rfl, rfl, [], (append_nil _).symm, rfl⟩
  next hyDev hget =>
    have hid : hyDev.DeviceId = devId := by simpa using find?_some hget
    obtain ⟨Version, -, h⟩ := bind_eq_ok.mp h
    obtain rfl := ok.inj h
    have hset {f : HylinkDev → HylinkDev} (hf : ∀ x, (f x).DeviceId = x.DeviceId)
        (hyMap : List HylinkDev) :
        hylinkListGet (hylinkListSet f devId hyMap) d = hylinkListGet hyMap d := by
      rw [hylinkListGet_hylinkListSet hf, if_neg hne]
    split
    next =>
      refine ⟨?_, ?_, _, append_assoc .., ?_⟩
      · exact (hset (setActiveTime_id t) _).trans
          ((hset (setVersion_id 0) _).trans
          (hset (setVersionText_id Version) _))
      · exact (map_hylinkListSet (setActiveTime_id t) _ _).trans
          ((map_hylinkListSet (setVersion_id 0) _ _).trans
            (map_hylinkListSet (setVersionText_id Version) _ _))
      · have hne' : hyDev.DeviceId ≠ d := hid.symm ▸ hne
        rw [onOffs_append, onOffs_other (.inl hne'), onOffs_other (.inl hne'), append_nil]
    next =>
      refine ⟨?_, ?_, [], (append_nil _).symm, rfl⟩
      · exact (hset (setActiveTime_id t) _).trans
          (hset (setVersionText_id Version) _)
      · exact (map_hylinkListSet (setActiveTime_id t) _ _).trans
            (map_hylinkListSet (setVersionText_id Version) _ _)

theorem hylinkOnlineFresh_self (h : hylinkOnlineFresh profiles t s d version = .ok s') :
    Changes profiles d t true s s' ∧
      s'.hyMap.map HylinkDev.DeviceId = s.hyMap.map HylinkDev.DeviceId := by
  unfold hylinkOnlineFresh at h
  split at h
  next hget =>
    obtain rfl := ok.inj h
    refine ⟨⟨[], (append_nil _).symm, ?_⟩, rfl⟩
    have hview : view d s = none := congrArg (Option.map _) hget
    rw [hview]
    exact .unknown
  next hyDev hget =>
    have hid : hyDev.DeviceId = d := by simpa using find?_some hget
    subst hid
    obtain ⟨Version, -, h⟩ := bind_eq_ok.mp h
    obtain rfl := ok.inj h
    have hbefore : view hyDev.DeviceId s = some (hyDev.activeTime, hyDev.ModelId) :=
      congrArg (Option.map _) hget
    have hset {f : HylinkDev → HylinkDev} (hf : ∀ x, (f x).DeviceId = x.DeviceId)
        {hyMap : List HylinkDev} {x : HylinkDev}
        (hx : hylinkListGet hyMap hyDev.DeviceId = some x) :
        hylinkListGet (hylinkListSet f hyDev.DeviceId hyMap) hyDev.DeviceId = some (f x) := by
      rw [hylinkListGet_hylinkListSet hf, if_pos rfl, hx]
      rfl
    have hget₁ := hset (setVersionText_id Version) hget
    split
    next =>
      have hget₂ := hset (setVersion_id 0) hget₁
      have hget₃ := hset (setActiveTime_id t) hget₂
      refine ⟨⟨_, append_assoc .., ?_⟩, ?_⟩
      · rw [onOffs_append, onOffs_other (.inr (show strAttribute ≠ strOnOff by decide)), append_nil,
          hbefore, show view hyDev.DeviceId _ = _ from congrArg (Option.map _) hget₃]
        cases hz : zigbeeProfile profiles hyDev.ModelId with
        | none =>
          rw [onOffs_none hget₂ hz]
          refine .sign (.inl rfl) fun _ hlimit => ?_
          rw [limitOf, hz] at hlimit
          cases hlimit
        | some zDev =>
          rw [onOffs_self hget₂ hz]
          exact .sign (.inr rfl) fun _ _ => rfl
      · exact (map_hylinkListSet (setActiveTime_id t) _ _).trans
          ((map_hylinkListSet (setVersion_id 0) _ _).trans
            (map_hylinkListSet (setVersionText_id Version) _ _))
    next hquiet =>
      have hget₂ := hset (setActiveTime_id t) hget₁
      refine ⟨⟨[], (append_nil _).symm, ?_⟩, ?_⟩
      · rw [hbefore, show view hyDev.DeviceId _ = _ from congrArg (Option.map _) hget₂]
        exact .sign (.inl rfl) fun hzero => absurd (.inl hzero) hquiet
      · exact (map_hylinkListSet (setActiveTime_id t) _ _).trans
          (map_hylinkListSet (setVersionText_id Version) _ _)

theorem hylinkDevJoin_changes {manuName : CText} (hids : (s.hyMap.map HylinkDev.DeviceId).Nodup)
    (h : hylinkDevJoin (models profiles) s devId version manuName = .ok s') :
    Changes profiles d t false s s' ∧ (s'.hyMap.map HylinkDev.DeviceId).Nodup := by
  unfold hylinkDevJoin at h
  split at h
  next =>
    obtain rfl := ok.inj h
    exact ⟨⟨[], (append_nil _).symm, .keep _⟩, hids⟩
  next z hz =>
    obtain ⟨hyDev, hdev, h⟩ := bind_eq_ok.mp h
    obtain rfl := newDev_eq_ok hdev
    obtain rfl := ok.inj h
    refine ⟨⟨_, append_assoc .., ?_⟩, Store.nodup_put hids _⟩
    rw [onOffs_append, onOffs_other (.inr (by decide)), onOffs_other (.inr (by decide)),
      append_nil]
    have hget := hylinkListGet_hylinkListAdd s.hyMap ⟨devId, manuName, version, 0, 0⟩ d
    change Presence.Change (limitOf profiles) t false (view d s) []
      ((hylinkListGet (hylinkListAdd s.hyMap _) d).map fun x => (x.activeTime, x.ModelId))
    rw [hget]
    split
    next =>
      refine .join _ ?_
      rw [zigbeeListGet_models] at hz
      obtain ⟨zDev, hz, -⟩ := map_eq_some_iff.mp hz
      rw [limitOf, hz]
      rfl
    next => exact .keep _

/-- Every step changes what is seen of a device as that of a party that is watched may change. -/
theorem step_changes {charSigned : Bool} {python : Python} {unset : Unset} {send : ApsFrame → Int}
    {op : Op} (hids : (s.hyMap.map HylinkDev.DeviceId).Nodup)
    (h : step charSigned python unset send profiles s t op = .ok s') :
    Changes profiles d t (op.refreshes d) s s' ∧ (s'.hyMap.map HylinkDev.DeviceId).Nodup := by
  cases op with
  | fresh devId version =>
    by_cases hid : devId = d
    · subst hid
      obtain ⟨hchange, hids'⟩ := hylinkOnlineFresh_self h
      rw [Op.refreshes, decide_eq_true rfl]
      exact ⟨hchange, hids' ▸ hids⟩
    · have huntouched := hylinkOnlineFresh_other hid h
      rw [Op.refreshes, decide_eq_false hid]
      exact ⟨huntouched.changes, huntouched.ids ▸ hids⟩
  | beat =>
    obtain ⟨hchange, hids'⟩ := heartbeat_changes hids h
    exact ⟨hchange, hids' ▸ hids⟩
  | query devId =>
    obtain ⟨r, hr, h⟩ := bind_eq_ok.mp h
    obtain rfl := ok.inj h
    obtain ⟨hsent, hview, hids', -⟩ := devZclDispatch_spec (d := d) hr
    refine ⟨⟨[], by rw [hsent, append_nil], ?_⟩, hids' ▸ hids⟩
    rw [hview]
    exact .keep _
  | join devId version manuName => exact hylinkDevJoin_changes hids h

theorem events_history {charSigned : Bool} {python : Python} {unset : Unset}
    {send : ApsFrame → Int} {v₀ : Presence.View CText} {ops : List (Int × Op)}
    {es₀ es : List (Presence.Event CText)} (hids : (s.hyMap.map HylinkDev.DeviceId).Nodup)
    (h₀ : Presence.History (limitOf profiles) v₀ es₀ (view d s))
    (h : events charSigned python unset send profiles d s ops = .ok es) :
    ∃ v, Presence.History (limitOf profiles) v₀ (es₀ ++ es) v := by
  induction ops generalizing s es₀ es with
  | nil =>
    obtain rfl := ok.inj h
    exact ⟨_, (append_nil es₀).symm ▸ h₀⟩
  | cons op ops ih =>
    obtain ⟨t, op⟩ := op
    obtain ⟨s', hs', h⟩ := bind_eq_ok.mp h
    obtain ⟨rest, hrest, h⟩ := bind_eq_ok.mp h
    obtain rfl := ok.inj h
    obtain ⟨⟨new, hnew, hchange⟩, hids'⟩ := step_changes (d := d) hids hs'
    have hevent : observe d s t op s' =
        ⟨t, op.refreshes d, view d s, onOffs d new, view d s'⟩ := by
      rw [observe, hnew, drop_left]
    obtain ⟨v, hv⟩ := ih hids' (hevent ▸ h₀.snoc hchange) hrest
    rw [append_assoc] at hv
    exact ⟨v, hv⟩

end

/-- In every run from a state where the device is not known, or is not online, what is reported of
it is sound. -/
theorem online_sound (d : CText) (s : Process) (ops : List (Int × Op))
    (es : List (Presence.Event CText)) (hids : (s.hyMap.map HylinkDev.DeviceId).Nodup)
    (hnew : ∀ hyDev, hylinkListGet s.hyMap d = some hyDev → hyDev.activeTime = 0)
    (h : events charSigned python unset send profiles d s ops = .ok es) :
    Presence.Sound (limitOf profiles) es := by
  obtain ⟨v, hv⟩ := events_history hids .nil h
  refine hv.sound fun r k hview => ?_
  obtain ⟨hyDev, hget, heq⟩ := map_eq_some_iff.mp hview
  exact (Prod.mk.inj heq).1 ▸ hnew hyDev hget

namespace Sample

def mirror : ZigbeeProfile := ⟨⟨"m".toList, []⟩, 0, 960, [], []⟩

/-- A device that has joined. -/
def joined : Process := ⟨[⟨"d".toList, "m".toList, [], 0, 0⟩], [], [], []⟩

/-- It gives a sign, is silent for too long, and gives a sign again. -/
def silence : List (Int × Op) :=
  [(100, .fresh "d".toList "1".toList), (2000, .beat), (2100, .fresh "d".toList "1".toList)]

end Sample

open Sample in
theorem online_sound_silence : Presence.Sound (limitOf [mirror])
    [⟨100, true, some (0, "m".toList), [true], some (100, "m".toList)⟩,
      ⟨2000, false, some (100, "m".toList), [false], some (0, "m".toList)⟩,
      ⟨2100, true, some (0, "m".toList), [true], some (2100, "m".toList)⟩] :=
  online_sound true (fun _ _ _ _ => none) ⟨0, 0, 0⟩ (fun _ => 0) [mirror] "d".toList joined
    silence _
    (by decide) (fun _ h => some.inj h ▸ rfl) rfl

end Honyar.TyZigbee
