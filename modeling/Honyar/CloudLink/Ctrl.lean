import Honyar.CloudLink.Devices

/-!
# Requests to set properties

`cloudLinkCtrl` (cloudLinkCtrl.c) walks over the attributes of a device and leaves its loop with
the first one that the payload has a property for.  What is wanted is a message for each property
and each attribute that has the property's name for its cloud key.  Names are compared as cJSON
compares them, with their case ignored.
-/

namespace Honyar.CloudLink

open Hylink Libhylink Option List

variable {dev : CloudLinkDev} {ms : List (CText × Json)}

/-- The properties of a payload, each with an attribute the profile maps it to. -/
def mapped (dev : CloudLinkDev) (properties : List (CText × Json)) :
    List ((CText × Json) × CloudLinkDevAttr) :=
  properties.flatMap fun m =>
    (dev.attr.filter fun a => Json.sameName a.cloudKey m.1).map fun a => (m, a)

/-- The text of a value, whatever its length. -/
def valueText (item : Json) : CText :=
  match item.valuestring? with
  | some t => t
  | none => CText.ofInt item.valueint

/-- The message for a property and its attribute. -/
def controlMessage (dev : CloudLinkDev) (p : (CText × Json) × CloudLinkDevAttr) :
    HylinkDevSendData :=
  ⟨if p.2.hyType = [] then strCtrl else p.2.hyType,
    ⟨dev.device_name, dev.modelId, p.2.hyKey, valueText p.1.2⟩⟩

/-- Its texts fit the arrays they are put together in. -/
structure ControlFits (dev : CloudLinkDev) (p : (CText × Json) × CloudLinkDevAttr) : Prop where
  deviceId : dev.device_name.length < deviceIdLen
  modelId : dev.modelId.length < deviceIdLen
  type : p.2.hyType.length < typeLen
  key : p.2.hyKey.length < deviceIdLen
  value : (valueText p.1.2).length < valueLen

theorem mem_mapped {p : (CText × Json) × CloudLinkDevAttr} :
    p ∈ mapped dev ms ↔ p.1 ∈ ms ∧ p.2 ∈ dev.attr ∧ Json.sameName p.2.cloudKey p.1.1 = true := by
  simp only [mapped, mem_flatMap, List.mem_map, mem_filter]
  constructor
  · rintro ⟨m, hm, a, ⟨ha, hname⟩, rfl⟩
    exact ⟨hm, ha, hname⟩
  · rintro ⟨hm, ha, hname⟩
    exact ⟨p.1, hm, p.2, ⟨ha, hname⟩, rfl⟩

theorem mapped_of_find {a : CloudLinkDevAttr}
    (h : dev.attr.find? (fun a => hasObjectItem (.object ms) a.cloudKey) = some a) :
    ∃ m, (Json.object ms).getObjectItem a.cloudKey = some m.2 ∧ (m, a) ∈ mapped dev ms := by
  have hhas := find?_some h
  obtain ⟨v, hv⟩ := isSome_iff_exists.mp hhas
  obtain ⟨m, hm, rfl⟩ := map_eq_some_iff.mp hv
  have hname : Json.sameName a.cloudKey m.1 = true := by simpa using find?_some hm
  exact ⟨m, hv, mem_mapped.mpr
    ⟨mem_of_find?_eq_some hm, mem_of_find?_eq_some h, hname⟩⟩

theorem find_eq_none_iff :
    dev.attr.find? (fun a => hasObjectItem (.object ms) a.cloudKey) = none ↔
      mapped dev ms = [] := by
  rw [find?_eq_none, eq_nil_iff_forall_not_mem]
  constructor
  · intro h p hp
    obtain ⟨hm, ha, hname⟩ := mem_mapped.mp hp
    refine h p.2 ha ?_
    rw [hasObjectItem, Json.getObjectItem, isSome_map, find?_isSome]
    exact ⟨p.1, hm, hname⟩
  · intro h a ha hhas
    rw [hasObjectItem, Json.getObjectItem, isSome_map, find?_isSome] at hhas
    obtain ⟨m, hm, hname⟩ := hhas
    exact h (m, a) (mem_mapped.mpr ⟨hm, ha, hname⟩)

theorem cjsonToStr_eq (size : Nat) (item : Json) :
    cjsonToStr size item = strcpy size (valueText item) := by
  unfold cjsonToStr valueText
  cases item.valuestring? <;> rfl

theorem hyCloudCtrlSend_eq_ok {m : CText × Json} {a : CloudLinkDevAttr} {root : Json}
    (h : root.getObjectItem a.cloudKey = some m.2) (data : HylinkDevSendData) :
    hyCloudCtrlSend dev.device_name dev.modelId a.hyType a.hyKey root a.cloudKey = .ok data ↔
      ControlFits dev (m, a) ∧ data = controlMessage dev (m, a) := by
  have htype : ∀ {f : CText → Except Fault HylinkDevSendData},
      ((if a.hyType = [] then .ok strCtrl else strcpy typeLen a.hyType) >>= f) = .ok data ↔
        a.hyType.length < typeLen ∧
          f (if a.hyType = [] then strCtrl else a.hyType) = .ok data := by
    intro f
    by_cases hnil : a.hyType = []
    · rw [if_pos hnil, if_pos hnil, hnil]
      exact (and_iff_right (by decide)).symm
    · rw [if_neg hnil, if_neg hnil, strcpy_bind_eq_ok]
  unfold hyCloudCtrlSend
  rw [strcpy_bind_eq_ok, strcpy_bind_eq_ok, htype, strcpy_bind_eq_ok, member, h, Fault.ofOption,
    Faults.ok_bind, cjsonToStr_eq, strcpy_bind_eq_ok]
  constructor
  · rintro ⟨hid, hmodel, hty, hkey, hvalue, hdata⟩
    exact ⟨⟨hid, hmodel, hty, hkey, hvalue⟩, (Except.ok.inj hdata).symm⟩
  · rintro ⟨hfits, rfl⟩
    exact ⟨hfits.deviceId, hfits.modelId, hfits.type, hfits.key, hfits.value, rfl⟩

/-- The messages a call of `cloudLinkCtrl` writes. -/
def Writes (k : Cloud) (sn : Int) (payload : Json) (w : CloudState) (sent : List Json) : Prop :=
  ∃ res w', cloudLinkCtrl k sn (some payload) w = .ok (res, w') ∧
    w'.calls = w.calls ++ sent.map RemoteCall.write

/-- Nothing is written where nothing is mapped, and otherwise the message of one pair. -/
theorem writes_iff {k : Cloud} {sn : Int} {w : CloudState}
    (hdev : cloudLinkListGetBySn w.cloudMap sn = some dev) (ms : List (CText × Json))
    (sent : List Json) :
    Writes k sn (.object ms) w sent ↔
      (mapped dev ms = [] ∧ sent = []) ∨
      ∃ m a, dev.attr.find? (fun a => hasObjectItem (.object ms) a.cloudKey) = some a ∧
        (Json.object ms).getObjectItem a.cloudKey = some m.2 ∧ (m, a) ∈ mapped dev ms ∧
        ControlFits dev (m, a) ∧ sent = [(controlMessage dev (m, a)).json] := by
  have hwrite : Function.Injective RemoteCall.write := fun _ _ h => RemoteCall.write.inj h
  unfold Writes cloudLinkCtrl
  simp only [hdev]
  cases hfind : dev.attr.find? fun a => hasObjectItem (.object ms) a.cloudKey with
  | none =>
    have hnil := find_eq_none_iff.mp hfind
    constructor
    · rintro ⟨res, w', hok, hcalls⟩
      obtain ⟨-, rfl⟩ := Prod.mk.inj (Except.ok.inj hok)
      refine .inl ⟨hnil, map_eq_nil_iff.mp (self_eq_append_right.mp hcalls)⟩
    · rintro (⟨-, rfl⟩ | ⟨m, a, hsome, -⟩)
      · exact ⟨-1, w, rfl, (append_nil _).symm⟩
      · cases hsome
  | some a =>
    obtain ⟨m, hm, hmem⟩ := mapped_of_find hfind
    constructor
    · rintro ⟨res, w', hok, hcalls⟩
      obtain ⟨data, hdata, hdispatch⟩ := Faults.bind_eq_ok.mp hok
      obtain ⟨hfits, rfl⟩ := (hyCloudCtrlSend_eq_ok hm data).mp hdata
      obtain ⟨-, rfl⟩ := Prod.mk.inj (Except.ok.inj hdispatch)
      have hsent : [RemoteCall.write (controlMessage dev (m, a)).json] =
          sent.map RemoteCall.write := append_cancel_left hcalls
      refine .inr ⟨m, a, rfl, hm, hmem, hfits, ?_⟩
      exact hwrite.list_map hsent.symm
    · rintro (⟨hnil, -⟩ | ⟨m', a', ha', hm', -, hfits, rfl⟩)
      · rw [hnil] at hmem
        cases hmem
      · obtain rfl := some.inj ha'
        refine ⟨_, _, Faults.bind_eq_ok.mpr ⟨_, (hyCloudCtrlSend_eq_ok hm' _).mpr ⟨hfits, rfl⟩,
          rfl⟩, rfl⟩

/-- A request writes exactly one message for each property and attribute the profile maps, and
no other, exactly when there is at most one such pair and its texts fit. -/
theorem cloudLinkCtrl_all_iff {k : Cloud} {sn : Int} {w : CloudState} {dev : CloudLinkDev}
    (hdev : cloudLinkListGetBySn w.cloudMap sn = some dev) (ms : List (CText × Json)) :
    (∃ sent, Writes k sn (.object ms) w sent ∧
        sent.Perm ((mapped dev ms).map fun p => (controlMessage dev p).json)) ↔
      (mapped dev ms).length ≤ 1 ∧ ∀ p ∈ mapped dev ms, ControlFits dev p := by
  constructor
  · rintro ⟨sent, hsent, hperm⟩
    have hlen := hperm.length_eq
    rw [length_map] at hlen
    rcases (writes_iff hdev ms sent).mp hsent with ⟨hnil, rfl⟩ | ⟨m, a, -, -, hmem, hfits, rfl⟩
    · simp [hnil]
    · obtain ⟨p, hp⟩ := length_eq_one_iff.mp hlen.symm
      rw [hp] at hmem ⊢
      obtain rfl := mem_singleton.mp hmem
      exact ⟨Nat.le_refl 1, forall_mem_singleton.mpr hfits⟩
  · rintro ⟨hlen, hfits⟩
    cases hfind : dev.attr.find? fun a => hasObjectItem (.object ms) a.cloudKey with
    | none =>
      have hnil := find_eq_none_iff.mp hfind
      refine ⟨[], (writes_iff hdev ms []).mpr (.inl ⟨hnil, rfl⟩), ?_⟩
      rw [hnil]
      exact .refl _
    | some a =>
      obtain ⟨m, hm, hmem⟩ := mapped_of_find hfind
      have hone : mapped dev ms = [(m, a)] := by
        have hpos := length_pos_of_mem hmem
        obtain ⟨p, hp⟩ := length_eq_one_iff.mp (Nat.le_antisymm hlen hpos)
        rw [hp] at hmem ⊢
        rw [mem_singleton.mp hmem]
      refine ⟨[(controlMessage dev (m, a)).json], (writes_iff hdev ms _).mpr
        (.inr ⟨m, a, hfind, hm, hmem, hfits _ hmem, rfl⟩), ?_⟩
      rw [hone]
      exact .refl _

/-! ### A device with two attributes -/

namespace Sample

def device : CloudLinkDev :=
  ⟨['m'], 1, ⟨['p'], [], ['d'], []⟩, [⟨['k'], [], ['a'], 0⟩, ⟨['l'], [], ['b'], 0⟩], [], []⟩

def cloud : Cloud := ⟨true, fun _ => none, 0, fun _ _ => 0⟩

end Sample

theorem cloudLinkCtrl_all_sample :
    (∃ sent, Writes Sample.cloud 1 (.object [(['a'], .string ['1'])]) ⟨[Sample.device], [], []⟩
        sent ∧
      sent.Perm ((mapped Sample.device [(['a'], .string ['1'])]).map fun p =>
        (controlMessage Sample.device p).json)) ↔
      (mapped Sample.device [(['a'], .string ['1'])]).length ≤ 1 ∧
        ∀ p ∈ mapped Sample.device [(['a'], .string ['1'])], ControlFits Sample.device p :=
  cloudLinkCtrl_all_iff rfl _

/-- Of two properties the profile maps to different attributes, one is not sent. -/
theorem cloudLinkCtrl_not_all :
    (Sample.device.attr.map CloudLinkDevAttr.cloudKey).Nodup ∧
    ¬ ∃ sent, Writes Sample.cloud 1 (.object [(['a'], .string ['1']), (['b'], .string ['1'])])
        ⟨[Sample.device], [], []⟩ sent ∧
      sent.Perm ((mapped Sample.device [(['a'], .string ['1']), (['b'], .string ['1'])]).map
        fun p => (controlMessage Sample.device p).json) := by
  refine ⟨by decide, ?_⟩
  rintro ⟨sent, ⟨res, w', hok, hcalls⟩, hperm⟩
  have hrun : cloudLinkCtrl Sample.cloud 1
      (some (.object [(['a'], .string ['1']), (['b'], .string ['1'])]))
      ⟨[Sample.device], [], []⟩ = .ok (0, ⟨[Sample.device],
        [.write (controlMessage Sample.device
          ((['a'], .string ['1']), ⟨['k'], [], ['a'], 0⟩)).json], []⟩) := rfl
  obtain ⟨-, rfl⟩ := Prod.mk.inj (Except.ok.inj (hrun.symm.trans hok))
  have hone : sent.length = 1 := by
    have hlen := congrArg List.length hcalls
    simpa using hlen.symm
  have htwo : sent.length = 2 := hperm.length_eq
  omega

end Honyar.CloudLink
