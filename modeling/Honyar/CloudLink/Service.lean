import Honyar.Lib.Base64
import Honyar.CloudLink.Devices

/-!
# Service requests

`cloudLinkServicCtrl` (cloudLinkCtrl.c) hands a request to one of four functions, or makes a
message of the entry of the profile that stands for the service.  Each comparison of the service id
stops at the length of the id, so it asks whether the id is how a name begins.
-/

namespace Honyar.CloudLink

open CText Hylink Libhylink List

/-! ## The code -/

/-- What the first five comparisons lead to. -/
inductive Handler where
  | localScene
  | addModMoreControl
  | queryMoreControl
  | deleteMoreControl
deriving DecidableEq

/-- The names the service id is compared with, in their order. -/
def services : List (CText × Handler) :=
  [("TriggerGatewayService".toList, .localScene),
    ("AddBindSwitch".toList, .addModMoreControl),
    ("ModifyBindSwitch".toList, .addModMoreControl),
    ("QueryBindSwitch".toList, .queryMoreControl),
    ("DeleteBindSwitch".toList, .deleteMoreControl)]

/-- What a request comes to. -/
inductive ServicRun where
  /-- The function is called, with the arguments of the request. -/
  | handler (h : Handler)
  /-- The message of an entry is put together and sent. -/
  | control (attr : CloudLinkServerAttr) (out : Except Fault (Int × CloudState))
  /-- `-1`. -/
  | failed

/-- The product whose keys are numbered from 0. -/
def numberedProduct : CText := "a1aqqjEXCWa".toList

/-- `Data.Value` for this product: of the words that are decoded, of a picture, or nothing. -/
def numberedValue (serviceid : CText) (serviceid_len : Nat) (cloud_value : Option Json) :
    Except Fault CText := do
  if strncmpEq serviceid_len serviceid "WordsCfg".toList then
    -- `char buf[24]`
    let buf ← cjsonToStr 24 (← Fault.ofOption cloud_value)
    let decodeOut := (Base64.decode buf).map fun b => Char.ofNat b.toNat
    strcpy valueLen (decodeOut.takeWhile (· ≠ Char.ofNat 0))
  else if strncmpEq serviceid_len serviceid "PictureCfg".toList then
    cjsonToStr valueLen (← Fault.ofOption cloud_value)
  else return []

/-- The message for an entry. -/
def serverMessage (dev : CloudLinkDev) (serviceid : CText) (serviceid_len : Nat) (root : Json)
    (attr : CloudLinkServerAttr) : Except Fault HylinkDevSendData := do
  let key := root.getObjectItem attr.key
  let cloud_value := root.getObjectItem attr.value
  let DeviceId ← strcpy deviceIdLen dev.device_name
  let ModelId ← strcpy deviceIdLen dev.modelId
  let Key ← strcpy deviceIdLen attr.hyKey
  if dev.alinkInfo.product_key = numberedProduct then
    let keyNum := (← Fault.ofOption key).valueint - 1
    let Key ← strcpy deviceIdLen (Key ++ ofInt keyNum)
    let Value ← numberedValue serviceid serviceid_len cloud_value
    return ⟨strCtrl, DeviceId, ModelId, Key, Value⟩
  else
    let Key ← match key with
      | none => .ok Key
      | some key => do strcpy deviceIdLen (Key ++ (← cjsonToStr 24 key))
    let Value ← cjsonToStr valueLen (← Fault.ofOption cloud_value)
    return ⟨strCtrl, DeviceId, ModelId, Key, Value⟩

variable (k : Cloud)

/-- What is done for an entry. -/
def serveAttr (dev : CloudLinkDev) (serviceid : CText) (serviceid_len : Nat) (root : Json)
    (w : CloudState) (attr : CloudLinkServerAttr) : Except Fault (Int × CloudState) := do
  return dispatch k (← serverMessage dev serviceid serviceid_len root attr) w

/-- `cloudLinkServicCtrl`, with the value of the request, if it is one. -/
def cloudLinkServicCtrl (devid : Int) (serviceid : CText) (serviceid_len : Nat)
    (request : Option Json) (w : CloudState) : ServicRun :=
  match services.find? fun s => strncmpEq serviceid_len serviceid s.1 with
  | some s => .handler s.2
  | none =>
    match request with
    | some (.object ms) =>
      match cloudLinkListGetBySn w.cloudMap devid with
      | none => .failed
      | some dev =>
        match dev.serverAttr.find? fun a =>
          strncmpEq serviceid_len serviceid a.serverId with
        | none => .failed
        | some a =>
          .control a (serveAttr k dev serviceid serviceid_len (.object ms) w a)
    | _ => .failed

/-! ## Routes -/

/-- The names a service id may have on a device, in the order they are compared. -/
def names (dev : CloudLinkDev) : List CText :=
  services.map Prod.fst ++ dev.serverAttr.map CloudLinkServerAttr.serverId

/-- What is run is what has the service id for its name, and nothing where nothing has. -/
inductive Routed (dev : CloudLinkDev) (serviceid : CText) (root : Json) (w : CloudState) :
    ServicRun → Prop
  | handler {h : Handler} (hs : (serviceid, h) ∈ services) :
      Routed dev serviceid root w (.handler h)
  | control {a : CloudLinkServerAttr} (hno : serviceid ∉ services.map Prod.fst)
      (ha : a ∈ dev.serverAttr) (hname : a.serverId = serviceid) :
      Routed dev serviceid root w
        (.control a (serveAttr k dev serviceid serviceid.length root w a))
  | failed (hno : serviceid ∉ names dev) : Routed dev serviceid root w .failed

/-- A name the service id is only a part of stands behind the service id itself. -/
def Foremost (serviceid : CText) (names : List CText) : Prop :=
  ∀ front name back, names = front ++ name :: back → serviceid <+: name →
    serviceid ∈ front ++ [name]

theorem strncmpEq_length_iff {s t : CText} : strncmpEq s.length s t = true ↔ s <+: t := by
  rw [strncmpEq_iff, take_length, prefix_iff_eq_take]

/-- The first name that begins with the service id, if there is one, is the service id. -/
theorem foremost_iff {serviceid : CText} {names : List CText} :
    Foremost serviceid names ↔
      ∀ name, names.find? (fun name => strncmpEq serviceid.length serviceid name) = some name →
        name = serviceid := by
  constructor
  · intro h name hfind
    obtain ⟨hname, front, back, rfl, hfront⟩ := find?_eq_some_iff_append.mp hfind
    have hmem := h front name back rfl (strncmpEq_length_iff.mp hname)
    rw [mem_append, mem_singleton] at hmem
    rcases hmem with hmem | rfl
    · have hself : strncmpEq serviceid.length serviceid serviceid = true :=
        strncmpEq_length_iff.mpr prefix_rfl
      have hno := hfront serviceid hmem
      rw [hself] at hno
      cases hno
    · rfl
  · rintro h front name back rfl hname
    rw [mem_append, mem_singleton]
    rw [find?_append, find?_cons_of_pos (strncmpEq_length_iff.mpr hname)] at h
    cases hfront : front.find? fun name => strncmpEq serviceid.length serviceid name with
    | none =>
      rw [hfront] at h
      exact .inr (h name rfl).symm
    | some first =>
      rw [hfront] at h
      exact .inl (h first rfl ▸ mem_of_find?_eq_some hfront)

theorem services_apart : ∀ s ∈ services, ∀ t ∈ services, s.1 <+: t.1 → s.1 = t.1 := by
  decide +kernel

variable {k} {devid : Int} {w : CloudState} {dev : CloudLinkDev}

/-- What is run has the service id for its name exactly when each name that only begins with the
service id stands behind the service id. -/
theorem cloudLinkServicCtrl_routed_iff
    (hdev : cloudLinkListGetBySn w.cloudMap devid = some dev) (serviceid : CText)
    (ms : List (CText × Json)) :
    Routed k dev serviceid (.object ms) w
        (cloudLinkServicCtrl k devid serviceid serviceid.length (some (.object ms)) w) ↔
      Foremost serviceid (names dev) := by
  have hself : strncmpEq serviceid.length serviceid serviceid = true :=
    strncmpEq_length_iff.mpr prefix_rfl
  rw [foremost_iff, names, find?_append, find?_map, find?_map]
  unfold cloudLinkServicCtrl
  cases hservice : services.find? fun s => strncmpEq serviceid.length serviceid s.1 with
  | some s =>
    have hs := mem_of_find?_eq_some hservice
    have hprefix : serviceid <+: s.1 :=
      strncmpEq_length_iff.mp (by simpa using find?_some hservice)
    have hfirst : (services.find? ((fun name => strncmpEq serviceid.length serviceid name) ∘
        Prod.fst)).map Prod.fst = some s.1 := congrArg (Option.map Prod.fst) hservice
    rw [hfirst]
    constructor
    · intro hrun name hname
      obtain rfl := Option.some.inj hname
      cases hrun with
      | handler ht => exact (services_apart _ ht _ hs hprefix).symm
    · intro h
      have hname : s.1 = serviceid := h s.1 rfl
      exact .handler (hname ▸ hs)
  | none =>
    have hno : serviceid ∉ services.map Prod.fst := by
      intro hmem
      obtain ⟨s, hs, rfl⟩ := mem_map.mp hmem
      exact find?_eq_none.mp hservice s hs hself
    have hfirst : (services.find? ((fun name => strncmpEq serviceid.length serviceid name) ∘
        Prod.fst)).map Prod.fst = none := congrArg (Option.map Prod.fst) hservice
    rw [hfirst, Option.none_or]
    simp only [hdev]
    cases hattr : dev.serverAttr.find? fun a =>
        strncmpEq serviceid.length serviceid a.serverId with
    | some a =>
      have ha := mem_of_find?_eq_some hattr
      have hfound : (dev.serverAttr.find? ((fun name => strncmpEq serviceid.length serviceid
          name) ∘ CloudLinkServerAttr.serverId)).map CloudLinkServerAttr.serverId =
          some a.serverId := congrArg (Option.map CloudLinkServerAttr.serverId) hattr
      rw [hfound]
      constructor
      · intro hrun name hname
        obtain rfl := Option.some.inj hname
        cases hrun with
        | control _ _ hname => exact hname
      · intro h
        exact .control hno ha (h a.serverId rfl)
    | none =>
      have hfound : (dev.serverAttr.find? ((fun name => strncmpEq serviceid.length serviceid
          name) ∘ CloudLinkServerAttr.serverId)).map CloudLinkServerAttr.serverId = none :=
        congrArg (Option.map CloudLinkServerAttr.serverId) hattr
      rw [hfound]
      refine iff_of_true (.failed ?_) (by simp)
      rw [names, mem_append]
      rintro (hmem | hmem)
      · exact hno hmem
      · obtain ⟨a, ha, rfl⟩ := mem_map.mp hmem
        exact find?_eq_none.mp hattr a ha hself

/-! ### A device with two services -/

namespace Sample

/-- The id of one of its services is how that of the other begins. -/
def display : CloudLinkDev :=
  ⟨['m'], 1, ⟨['p'], [], ['d'], []⟩, [],
    [⟨"SetTimer".toList, ['t'], ['k'], ['v']⟩, ⟨"Set".toList, ['s'], ['k'], ['v']⟩], []⟩

def server : Cloud := ⟨true, fun _ => none, 0, fun _ _ => 0⟩

end Sample

theorem cloudLinkServicCtrl_routed_display :
    Routed Sample.server Sample.display "SetTimer".toList (.object [])
        ⟨[Sample.display], [], []⟩
        (cloudLinkServicCtrl Sample.server 1 "SetTimer".toList "SetTimer".toList.length
          (some (.object [])) ⟨[Sample.display], [], []⟩) ↔
      Foremost "SetTimer".toList (names Sample.display) :=
  cloudLinkServicCtrl_routed_iff rfl _ _

/-- The service that is set comes to the one whose id begins as its own, and a part of a name to
its function. -/
theorem cloudLinkServicCtrl_not_routed :
    (Sample.display.serverAttr.map CloudLinkServerAttr.serverId).Nodup ∧
      ¬ Routed Sample.server Sample.display "Set".toList (.object []) ⟨[Sample.display], [], []⟩
        (cloudLinkServicCtrl Sample.server 1 "Set".toList "Set".toList.length
          (some (.object [])) ⟨[Sample.display], [], []⟩) ∧
      ¬ Routed Sample.server Sample.display "Query".toList (.object [])
        ⟨[Sample.display], [], []⟩
        (cloudLinkServicCtrl Sample.server 1 "Query".toList "Query".toList.length
          (some (.object [])) ⟨[Sample.display], [], []⟩) := by
  refine ⟨by decide, ?_, ?_⟩
  · have hrun : cloudLinkServicCtrl Sample.server 1 "Set".toList "Set".toList.length
        (some (.object [])) ⟨[Sample.display], [], []⟩ =
      .control ⟨"SetTimer".toList, ['t'], ['k'], ['v']⟩ (serveAttr Sample.server Sample.display
        "Set".toList 3 (.object []) ⟨[Sample.display], [], []⟩
        ⟨"SetTimer".toList, ['t'], ['k'], ['v']⟩) := rfl
    rw [hrun]
    intro h
    cases h with
    | control _ _ hname => exact absurd hname (by decide)
  · have hrun : cloudLinkServicCtrl Sample.server 1 "Query".toList "Query".toList.length
        (some (.object [])) ⟨[Sample.display], [], []⟩ = .handler .queryMoreControl := rfl
    rw [hrun]
    intro h
    cases h with
    | handler hs => exact absurd hs (by decide)

end Honyar.CloudLink
