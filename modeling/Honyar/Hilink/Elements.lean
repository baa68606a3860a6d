import Honyar.Hilink.Receive
import Mathlib.Data.List.Dedup

/-!
# All messages and all their elements

What of a chunk reaches `read_from_local`, and what of a message reaches the devices it names.

A chunk is worked through to its end as long as the list of devices was asked for fewer than three
times; afterwards a message that was accepted is the last one.  And of a message about several
devices only the first one is seen.
-/

namespace Honyar.Hilink

open Hylink (stx etx Message stream strCommand strReport strType strData strDeviceId strModelId)
open Faults Option List Except Bridge

variable {α : Type} {devid : CText} {dev dev' : LocalNode} {Data : Json}

/-! ## Frames -/

section

variable {σ J : Type} {read : σ → J → Except Ended (σ × Bool)} {parse : CText → Option J}
variable {getDevListFlag : Nat} {s s' : σ}

/-- No message before the last one ends the process. -/
def Lasts (read : σ → J → Except Ended (σ × Bool)) : σ → List J → Prop
  | s, j :: j' :: js => ∃ r, read s j = .ok r ∧ Lasts read r.1 (j' :: js)
  | _, _ => True

theorem recvToLocal_append {t : CText} (ht : stx ∉ t) (c : CText) :
    recvToLocal read parse getDevListFlag s (t ++ c) =
      recvToLocal read parse getDevListFlag s c := by
  induction t with
  | nil => rfl
  | cons b t ih =>
    obtain ⟨hb, ht⟩ := not_or.mp (mem_cons.not.mp ht)
    rw [cons_append, recvToLocal, if_neg (Ne.symm hb), ih ht]

/-- Every frame of a chunk is read exactly when nothing ends the loop before the last one. -/
theorem recvToLocal_stream_iff {accepts : J → Bool}
    (hread : ∀ s j r, read s j = .ok r → r.2 = accepts j) (ms : List (Message parse)) :
    (recvToLocal read parse getDevListFlag s (stream ms)).1.map parse =
        ms.map (fun m => some m.value) ↔
      Lasts read s (ms.map (·.value)) ∧
        (getDevListFlag < 3 ∨ ∀ m ∈ ms.dropLast, accepts m.value = false) := by
  induction ms generalizing s with
  | nil => simp [stream, recvToLocal, Lasts]
  | cons m ms ih =>
    have hstream : stream (m :: ms) = stx :: (m.text ++ ([etx] ++ stream ms)) := by simp [stream]
    have hparse : parse (m.text ++ ([etx] ++ stream ms)) = some m.value := m.parse_append _
    have htext : readText read parse s (m.text ++ ([etx] ++ stream ms)) = read s m.value := by
      rw [readText, hparse]
    have hskip (s' : σ) : recvToLocal read parse getDevListFlag s'
        (m.text ++ ([etx] ++ stream ms)) =
          recvToLocal read parse getDevListFlag s' (stream ms) := by
      rw [recvToLocal_append m.stx_notMem, recvToLocal_append (by decide)]
    -- the loop ends with this frame
    have hstop (hms : ms ≠ []) : [parse (m.text ++ ([etx] ++ stream ms))] ≠
        (m :: ms).map fun m => some m.value := by
      intro h
      have hlen := congrArg length h
      rw [length_map, length_cons] at hlen
      exact hms (length_eq_zero_iff.mp (by simpa using hlen.symm))
    rw [hstream, recvToLocal, if_pos rfl, htext]
    generalize m.text ++ ([etx] ++ stream ms) = data at hparse hskip hstop ⊢
    cases ms with
    | nil =>
      cases hr : read s m.value with
      | error e => simp [hparse, Lasts]
      | ok r =>
        dsimp only
        split
        · simp [hparse, Lasts]
        · rw [hskip]
          simp [hparse, Lasts, stream, recvToLocal]
    | cons m' ms =>
      cases hr : read s m.value with
      | error e =>
        refine iff_of_false (hstop (cons_ne_nil _ _)) fun h => ?_
        obtain ⟨r, hok, -⟩ := h.1
        rw [hr] at hok
        cases hok
      | ok r =>
        dsimp only
        split
        next hlast =>
          refine iff_of_false (hstop (cons_ne_nil _ _)) fun h => ?_
          rcases h.2 with hflag | hnone
          · exact absurd hlast.2 (by omega)
          · have hacc := hnone m (by simp)
            rw [← hread _ _ _ hr, hlast.1] at hacc
            cases hacc
        next hgo =>
          have hlasts : Lasts read s ((m :: m' :: ms).map (·.value)) ↔
              Lasts read r.1 ((m' :: ms).map (·.value)) := by
            constructor
            · rintro ⟨r', hr', h⟩
              rwa [← ok.inj (hr.symm.trans hr')] at h
            · exact fun h => ⟨r, hr, h⟩
          have hacc : getDevListFlag < 3 ∨ accepts m.value = false := by
            rw [hread _ _ _ hr] at hgo
            by_cases hflag : getDevListFlag < 3
            · exact .inl hflag
            · exact .inr (by simpa using fun h => hgo ⟨h, by omega⟩)
          rw [hskip, hlasts, map_cons, map_cons (l := m' :: ms), hparse]
          simp only [cons.injEq, true_and, ih, dropLast_cons_cons, forall_mem_cons]
          refine and_congr_right fun _ => ?_
          rcases hacc with hflag | hacc
          · simp [hflag]
          · simp [hacc]

end

/-- What `read_from_local` returns for a message that does not end the process. -/
def accepted (root : Json) : Bool :=
  match (root.getObjectItem strCommand).bind Json.valuestring? with
  | none => false
  | some t =>
    t == strBeatHeartResponse ||
      (((root.getObjectItem strType).bind fun j => j.valuestring?.bind LocalType.find?).isSome &&
        (root.getObjectItem strData).any fun Data => !Data.children.isEmpty)

variable {charSigned : Bool} {s s' : Bridge} {root d : Json} {ds : List Json}

theorem defined_eq_ok {x : Except Fault α} {a : α} : defined x = .ok a ↔ x = .ok a := by
  cases x with
  | error e => simp [defined, Except.mapError]
  | ok a => simp [defined, Except.mapError]

@[simp] theorem defined_ok (a : α) : defined (.ok a) = .ok a := rfl

theorem readFromLocal_accepted {r : Bridge × Bool} (h : readFromLocal charSigned s root = .ok r) :
    r.2 = accepted root := by
  unfold readFromLocal at h
  unfold accepted
  cases hc : root.getObjectItem strCommand with
  | none =>
    rw [hc] at h
    obtain rfl := ok.inj h
    rfl
  | some Command =>
    rw [hc] at h
    dsimp only at h
    obtain ⟨t, ht, h⟩ := bind_eq_ok.mp h
    rw [defined_eq_ok, valuestring_eq_ok] at ht
    rw [bind_some, ht]
    dsimp only
    split at h
    next heart =>
      obtain rfl := ok.inj h
      simp [heart]
    next hreport =>
      rw [beq_eq_false_iff_ne.mpr hreport, Bool.false_or]
      cases htype : root.getObjectItem strType with
      | none =>
        rw [htype] at h
        obtain rfl := ok.inj h
        rfl
      | some typeJson =>
        cases hdata : root.getObjectItem strData with
        | none =>
          rw [htype, hdata] at h
          obtain rfl := ok.inj h
          simp
        | some Data =>
          rw [htype, hdata] at h
          dsimp only at h
          obtain ⟨u, hu, h⟩ := bind_eq_ok.mp h
          rw [defined_eq_ok, valuestring_eq_ok] at hu
          rw [bind_some, hu, bind_some, any_some]
          cases hfind : LocalType.find? u with
          | none =>
            rw [hfind] at h
            obtain rfl := ok.inj h
            rfl
          | some type =>
            cases hds : Data.children with
            | nil =>
              rw [hfind, hds] at h
              obtain rfl := ok.inj h
              rfl
            | cons d ds =>
              rw [hfind, hds] at h
              dsimp only at h
              obtain ⟨devid, -, h⟩ := bind_eq_ok.mp h
              obtain ⟨s', -, h⟩ := bind_eq_ok.mp h
              obtain rfl := ok.inj h
              rfl

/-! ## Messages about devices -/

/-- The messages that are about devices. -/
inductive DevReport where
  | register
  | unRegister
  | onOff
  | attribute'
deriving DecidableEq, Repr

def DevReport.type : DevReport → LocalType
  | register => .register
  | unRegister => .unRegister
  | onOff => .onOff
  | attribute' => .attribute'

/-- The text of a member, empty if it has none. -/
def textOf (name : CText) (d : Json) : CText :=
  ((d.getObjectItem name).bind Json.valuestring?).getD []

/-- The device an element names. -/
def namedDev (d : Json) : CText := textOf strDeviceId d

/-- A member that is there has a text of fewer than `size` bytes. -/
def Fits (name : CText) (size : Nat) (d : Json) : Prop :=
  ∀ v, d.getObjectItem name = some v → ∃ t, v.valuestring? = some t ∧ t.length < size

/-- An element of `Data` names a device, and its members are texts. -/
structure IsElement (d : Json) : Prop where
  deviceId : ∃ v t, d.getObjectItem strDeviceId = some v ∧ v.valuestring? = some t ∧
    t.length < deviceIdLen
  modelId : Fits strModelId deviceIdLen d
  key : ∀ v, d.getObjectItem strKey = some v → ∃ t, v.valuestring? = some t
  value : ∀ v, d.getObjectItem strValue = some v → ∃ t, v.valuestring? = some t

/-- A message about devices. -/
structure IsMessage (root : Json) (report : DevReport) (ds : List Json) : Prop where
  command : root.getObjectItem strCommand = some (.string strReport)
  type : root.getObjectItem strType = some (.string report.type.text)
  data : root.getObjectItem strData = some (.array ds)
  gatewayId : Fits strGatewayId gatewayIdLen root
  elements : ∀ d ∈ ds, IsElement d

variable (charSigned) in
/-- What a message does to the devices that `Data` names: each element on its own, the attributes
of a device together. -/
def eachElement (report : DevReport) (root : Json) (ds : List Json) (s : Bridge) :
    Except Ended Bridge :=
  match report with
  | .register => ds.foldlM (fun s d => registerDev root s (namedDev d) d) s
  | .unRegister => ds.foldlM (fun s d => unRegisterDev s (namedDev d)) s
  | .onOff => ds.foldlM (fun s d => onOffDev charSigned s (namedDev d) d) s
  | .attribute' =>
    (ds.map namedDev).dedup.foldlM (fun s devid =>
      attributeDev charSigned s devid (.array (ds.filter (namedDev · = devid)))) s

/-- The model of an element is known. -/
def Known (d : Json) : Prop := (strSearch (textOf strModelId d) localModel).isSome

instance Known.instDecidable (d : Json) : Decidable (Known d) :=
  inferInstanceAs (Decidable (_ = true))

/-- The elements behind the first one leave nothing to do. -/
def NoMore (report : DevReport) (d : Json) (ds : List Json) : Prop :=
  match report with
  | .register => ∀ d' ∈ ds, Known d' →
      namedDev d' = hostGatewayId ∨ (namedDev d' = namedDev d ∧ Known d)
  | .unRegister => namedDev d = hostGatewayId ∨ ∀ d' ∈ ds, namedDev d' = namedDev d
  | .onOff => ∀ d' ∈ ds, textOf strKey d' ≠ strOnline
  | .attribute' => ∀ d' ∈ ds, namedDev d' = namedDev d

/-- Each device is in the list once, the gateway is not in it, and its devices are of known
models. -/
structure Bridge.Wf (s : Bridge) : Prop where
  nodup : (s.locals.map (·.DeviceId)).Nodup
  not_gateway : ∀ dev ∈ s.locals, dev.DeviceId ≠ hostGatewayId
  known : ∀ dev ∈ s.locals, (strSearch dev.ModelId localModel).isSome

variable (charSigned) in
/-- What `read_from_local` does with a message about devices. -/
def firstElement (report : DevReport) (root d : Json) (ds : List Json) (s : Bridge) :
    Except Ended Bridge :=
  match report with
  | .register => registerDev root s (namedDev d) d
  | .unRegister => unRegisterDev s (namedDev d)
  | .onOff => onOffDev charSigned s (namedDev d) d
  | .attribute' => attributeDev charSigned s (namedDev d) (.array (d :: ds))

theorem readFromLocal_message {report : DevReport} (h : IsMessage root report (d :: ds))
    (s : Bridge) :
    readFromLocal charSigned s root =
      (firstElement charSigned report root d ds s).map fun s => (s, true) := by
  obtain ⟨v, t, hv, ht, hlen⟩ := (h.elements d mem_cons_self).deviceId
  have hname : namedDev d = t := by simp [namedDev, textOf, hv, ht]
  have hcommand : strReport ≠ strBeatHeartResponse := by decide
  have hcopy : (do return some (← strcpy deviceIdLen (← valuestring v)) :
      Except Fault (Option CText)) = .ok (some (namedDev d)) := by
    simp [valuestring, ht, hname, Fault.ofOption, strcpy, hlen]
  have htype : readType charSigned s report.type root d (.array (d :: ds)) (some (namedDev d)) =
      firstElement charSigned report root d ds s := by
    cases report <;> rfl
  have hstring (t : CText) : valuestring (.string t) = .ok t := rfl
  simp only [readFromLocal, h.command, h.type, h.data, hstring, defined_ok, ok_bind, hcommand,
    if_false, LocalType.find?_text, Json.children, hv, hcopy, htype]
  cases firstElement charSigned report root d ds s with
  | error e => rfl
  | ok s' => rfl

/-! ## Writing to a device -/

theorem find?_modify_findIdx {devs : List LocalNode} (hdev : dev.DeviceId = devid) (k : CText) :
    (devs.modify (devs.findIdx (·.DeviceId = devid)) fun _ => dev).find? (·.DeviceId = k) =
      if k = devid then (devs.find? (·.DeviceId = devid)).map fun _ => dev
      else devs.find? (·.DeviceId = k) := by
  induction devs with
  | nil => simp
  | cons x xs ih =>
    by_cases hx : x.DeviceId = devid
    · rw [findIdx_cons, decide_eq_true hx, cond_true, modify_zero_cons]
      by_cases hk : k = devid
      · subst hk
        simp [hdev, hx]
      · have hxk : x.DeviceId ≠ k := hx ▸ Ne.symm hk
        have hdk : dev.DeviceId ≠ k := hdev ▸ Ne.symm hk
        simp [hk, hxk, hdk]
    · rw [findIdx_cons, decide_eq_false hx, cond_false, modify_succ_cons,
        find?_cons, ih]
      by_cases hk : k = devid
      · subst hk
        simp [hx]
      · simp [hk, find?_cons]

theorem get_put (hdev : dev.DeviceId = devid ∨ devid = hostGatewayId) (k : CText) :
    (s.put devid dev).listGetByIdLocal k =
      if k = devid then (s.listGetByIdLocal devid).map fun _ => dev
      else s.listGetByIdLocal k := by
  unfold put listGetByIdLocal
  by_cases hid : devid = hostGatewayId
  · subst hid
    by_cases hk : k = hostGatewayId <;> simp [hk]
  · by_cases hk : k = hostGatewayId
    · have hne : k ≠ devid := hk ▸ Ne.symm hid
      simp [hk, hid, Ne.symm hid]
    · rw [if_neg hid]
      simp only [if_neg hk, if_neg hid]
      exact find?_modify_findIdx (hdev.resolve_right hid) k

theorem get_deviceId (h : s.listGetByIdLocal devid = some dev) :
    dev.DeviceId = devid ∨ devid = hostGatewayId := by
  unfold listGetByIdLocal at h
  split at h
  next hid => exact .inr hid
  next hid => exact .inl (by simpa using find?_some h)

theorem get_put_self (hget : s.listGetByIdLocal devid = some dev') (dev : LocalNode)
    (hdev : dev.DeviceId = dev'.DeviceId) :
    (s.put devid dev).listGetByIdLocal devid = some dev := by
  have hid := get_deviceId hget
  rw [← hdev] at hid
  rw [get_put hid, if_pos rfl, hget]
  rfl

theorem told_hyLinkDevStatus_lt (devid : CText) (dev : LocalNode) (status : Int) :
    s.told.length < ((s.put devid dev).hyLinkDevStatus dev status).told.length := by
  have hput : (s.put devid dev).told = s.told := by
    unfold put
    split <;> rfl
  simp [hyLinkDevStatus, hput]

@[simp] theorem get_hyLinkDevStatus (src : LocalNode) (status : Int) (k : CText) :
    (s.hyLinkDevStatus src status).listGetByIdLocal k = s.listGetByIdLocal k := rfl

/-! ## Registrations -/

theorem strCopyFromJson_of_fits {name : CText} {size : Nat} (h : Fits name size d) :
    strCopyFromJson size d name [] = .ok (textOf name d) := by
  unfold strCopyFromJson textOf
  cases hv : d.getObjectItem name with
  | none => rfl
  | some v =>
    obtain ⟨t, ht, hlen⟩ := h v hv
    simp [valuestring, ht, Fault.ofOption, strcpy, hlen]

theorem IsElement.fits_deviceId (h : IsElement d) : Fits strDeviceId deviceIdLen d := by
  obtain ⟨v, t, hv, ht, hlen⟩ := h.deviceId
  intro v' hv'
  obtain rfl := some.inj (hv.symm.trans hv')
  exact ⟨t, ht, hlen⟩

theorem registerDev_eq (hroot : Fits strGatewayId gatewayIdLen root) (hd : IsElement d) :
    registerDev root s (namedDev d) d =
      .ok (if (s.listGetByIdLocal (namedDev d)).isSome then s
        else { s with locals := (attributeRegister ⟨⟨namedDev d, textOf strModelId d, none⟩,
          textOf strGatewayId root, [], intOnLink⟩).toList ++ s.locals }) := by
  unfold registerDev
  cases hget : s.listGetByIdLocal (namedDev d) with
  | some dev => rfl
  | none =>
    rw [strCopyFromJson_of_fits hroot, strCopyFromJson_of_fits hd.fits_deviceId,
      strCopyFromJson_of_fits hd.modelId]
    simp only [defined_ok, ok_bind]
    rw [namedDev]
    cases attributeRegister ⟨⟨textOf strDeviceId d, textOf strModelId d, none⟩,
      textOf strGatewayId root, [], intOnLink⟩ with
    | none => rfl
    | some dev => rfl

theorem registerDev_idle (hroot : Fits strGatewayId gatewayIdLen root) (hd : IsElement d)
    (h : Known d → (s.listGetByIdLocal (namedDev d)).isSome) :
    registerDev root s (namedDev d) d = .ok s := by
  rw [registerDev_eq hroot hd]
  by_cases hget : (s.listGetByIdLocal (namedDev d)).isSome
  · rw [if_pos hget]
  · have hnone : strSearch (textOf strModelId d) localModel = none := by
      simpa [Known] using mt h hget
    rw [if_neg hget, attributeRegister, hnone]
    rfl

theorem registerDev_isSome (hroot : Fits strGatewayId gatewayIdLen root) (hd : IsElement d)
    (h : registerDev root s (namedDev d) d = .ok s') (k : CText) :
    (s'.listGetByIdLocal k).isSome ↔
      (s.listGetByIdLocal k).isSome ∨ (k = namedDev d ∧ Known d) := by
  rw [registerDev_eq hroot hd] at h
  obtain rfl := ok.inj h
  by_cases hget : (s.listGetByIdLocal (namedDev d)).isSome
  · rw [if_pos hget]
    exact ⟨.inl, fun h => h.elim id fun ⟨hk, _⟩ => hk ▸ hget⟩
  · rw [if_neg hget]
    have hgateway : namedDev d ≠ hostGatewayId := by
      intro hid
      rw [listGetByIdLocal, if_pos hid] at hget
      exact hget rfl
    cases hindex : strSearch (textOf strModelId d) localModel with
    | none =>
      have hknown : ¬ Known d := by simp [Known, hindex]
      simp [attributeRegister, hindex, hknown]
    | some index =>
      have hknown : Known d := by simp [Known, hindex]
      simp only [attributeRegister, hindex, map_some, toList_some,
        singleton_append, hknown, and_true]
      unfold listGetByIdLocal
      by_cases hk : k = hostGatewayId
      · simp [hk]
      · simp only [if_neg hk]
        by_cases hkd : namedDev d = k
        · simp [hkd]
        · simp [hkd, Ne.symm hkd]

/-- A bridge with the gateway and some devices. -/
def bridgeOf (Online : BitVec 8) (locals : List LocalNode) : Bridge :=
  ⟨⟨⟨hostGatewayId, [], none⟩, [], [], Online⟩, 0, locals, [], []⟩

/-- A device of the first model, offline. -/
def nodeOf (DeviceId : CText) : LocalNode :=
  ⟨⟨DeviceId, "_TYZB01_mq6qwmfy".toList, Private.zero 0⟩, [], [], intOffLink⟩

theorem bridgeOf_nil_wf (Online : BitVec 8) : (bridgeOf Online []).Wf where
  nodup := nodup_nil
  not_gateway := by simp [bridgeOf]
  known := by simp [bridgeOf]

theorem bridgeOf_wf (h : devid ≠ hostGatewayId) (Online : BitVec 8) :
    (bridgeOf Online [nodeOf devid]).Wf where
  nodup := nodup_singleton _
  not_gateway := by
    rintro dev hdev
    obtain rfl := mem_singleton.mp hdev
    exact h
  known := by
    rintro dev hdev
    obtain rfl := mem_singleton.mp hdev
    exact isSome_iff_exists.mpr ⟨0, rfl⟩

theorem get_bridgeOf (h : devid ≠ hostGatewayId) (Online : BitVec 8) (k : CText) :
    (bridgeOf Online [nodeOf devid]).listGetByIdLocal k =
      if k = hostGatewayId then some (bridgeOf Online []).gateway
      else if k = devid then some (nodeOf devid) else none := by
  unfold listGetByIdLocal
  by_cases hk : k = hostGatewayId
  · rw [if_pos hk, if_pos hk]
    rfl
  · by_cases hkd : k = devid
    · simp [hkd, h, bridgeOf, nodeOf]
    · simp [hk, hkd, bridgeOf, nodeOf, Ne.symm hkd]

theorem registerDev_noMore_iff (hroot : Fits strGatewayId gatewayIdLen root)
    (hds : ∀ d' ∈ d :: ds, IsElement d') :
    (∀ s : Bridge, s.Wf → registerDev root s (namedDev d) d =
        (d :: ds).foldlM (fun s d => registerDev root s (namedDev d) d) s) ↔
      NoMore .register d ds := by
  obtain ⟨hd, hds⟩ := forall_mem_cons.mp hds
  constructor
  · intro h d' hd' hknown
    rcases eq_or_ne (namedDev d') hostGatewayId with hgateway | hgateway
    · exact .inl hgateway
    refine .inr ?_
    -- in a bridge without devices
    have hs₀ := h _ (bridgeOf_nil_wf intOnLink)
    obtain ⟨s₁, h₁⟩ : ∃ s₁, registerDev root (bridgeOf intOnLink []) (namedDev d) d = .ok s₁ :=
      ⟨_, registerDev_eq hroot hd⟩
    rw [foldlM_cons, h₁, ok_bind] at hs₀
    have hthere : (s₁.listGetByIdLocal (namedDev d')).isSome :=
      foldlM_reaches (K := fun _ => True)
        (L := fun s => (s.listGetByIdLocal (namedDev d')).isSome) (fun _ _ _ _ _ _ => trivial)
        (fun a ha t t' hL ht => (registerDev_isSome hroot (hds a ha) ht _).mpr (.inl hL))
        (fun t t' _ ht => (registerDev_isSome hroot (hds d' hd') ht _).mpr (.inr ⟨rfl, hknown⟩))
        hd' hs₀.symm trivial
    have hnone : (bridgeOf intOnLink []).listGetByIdLocal (namedDev d') = none := by
      rw [listGetByIdLocal, if_neg hgateway]
      rfl
    have hone := (registerDev_isSome hroot hd h₁ _).mp hthere
    rw [hnone] at hone
    simpa using hone
  · intro h s _
    rw [foldlM_cons]
    cases hs' : registerDev root s (namedDev d) d with
    | error e => rfl
    | ok s' =>
      rw [ok_bind, foldlM_idle]
      intro d' hd'
      refine registerDev_idle hroot (hds d' hd') fun hknown => ?_
      rcases h d' hd' hknown with hgateway | ⟨hid, hknown⟩
      · rw [hgateway]
        simp [listGetByIdLocal]
      · exact (registerDev_isSome hroot hd hs' _).mpr (.inr ⟨hid, hknown⟩)

/-! ## Devices that leave -/

theorem find?_eraseP_deviceId {devs : List LocalNode} (hnd : (devs.map (·.DeviceId)).Nodup)
    (devid k : CText) :
    (devs.eraseP (·.DeviceId = devid)).find? (·.DeviceId = k) =
      if k = devid then none else devs.find? (·.DeviceId = k) := by
  induction devs with
  | nil => simp
  | cons x xs ih =>
    obtain ⟨hx, hnd⟩ := nodup_cons.mp hnd
    by_cases hid : x.DeviceId = devid
    · rw [eraseP_cons_of_pos (by simpa using hid)]
      by_cases hk : k = devid
      · rw [if_pos hk, find?_eq_none]
        intro y hy
        have hne : y.DeviceId ≠ x.DeviceId := fun h => hx (mem_map.mpr ⟨y, hy, h⟩)
        simpa [hk, ← hid] using hne
      · have hxk : x.DeviceId ≠ k := hid ▸ Ne.symm hk
        rw [if_neg hk, find?_cons_of_neg (by simpa using hxk)]
    · rw [eraseP_cons_of_neg (by simpa using hid), find?_cons, ih hnd, find?_cons]
      by_cases hk : k = devid
      · simp [hk, hid]
      · simp [hk]

theorem unRegisterDev_gateway (s : Bridge) :
    unRegisterDev s hostGatewayId = .error (.undefined .memory) := by
  simp [unRegisterDev, listGetByIdLocal]

theorem unRegisterDev_idle (h : s.listGetByIdLocal devid = none) :
    unRegisterDev s devid = .ok s := by
  rw [unRegisterDev, h]
  rfl

theorem unRegisterDev_spec (hs : s.Wf) (h : unRegisterDev s devid = .ok s') :
    s'.Wf ∧ ∀ k, s'.listGetByIdLocal k = if k = devid then none else s.listGetByIdLocal k := by
  have hid : devid ≠ hostGatewayId := by
    rintro rfl
    rw [unRegisterDev_gateway] at h
    cases h
  unfold unRegisterDev at h
  cases hget : s.listGetByIdLocal devid with
  | none =>
    rw [hget] at h
    obtain rfl := ok.inj h
    refine ⟨hs, fun k => ?_⟩
    split
    next hk => rw [hk, hget]
    next => rfl
  | some dev =>
    rw [hget] at h
    simp only [if_neg hid] at h
    obtain rfl := ok.inj h
    refine ⟨⟨(eraseP_sublist.map _).nodup hs.nodup,
      fun dev hdev => hs.not_gateway dev (mem_of_mem_eraseP hdev),
      fun dev hdev => hs.known dev (mem_of_mem_eraseP hdev)⟩, fun k => ?_⟩
    unfold listGetByIdLocal
    by_cases hk : k = hostGatewayId
    · rw [if_pos hk, if_pos hk, if_neg (hk ▸ Ne.symm hid)]
      rfl
    · rw [if_neg hk, if_neg hk]
      exact find?_eraseP_deviceId hs.nodup devid k

theorem unRegisterDev_noMore_iff (d : Json) (ds : List Json) :
    (∀ s : Bridge, s.Wf → unRegisterDev s (namedDev d) =
        (d :: ds).foldlM (fun s d => unRegisterDev s (namedDev d)) s) ↔
      NoMore .unRegister d ds := by
  constructor
  · intro h
    refine or_iff_not_imp_left.mpr fun hgateway d' hd' => ?_
    by_contra hne
    rcases eq_or_ne (namedDev d') hostGatewayId with hid | hid
    · -- the gateway, which the code does not come to
      have hs := h _ (bridgeOf_nil_wf intOnLink)
      have hnone : (bridgeOf intOnLink []).listGetByIdLocal (namedDev d) = none := by
        rw [listGetByIdLocal, if_neg hgateway]
        rfl
      rw [foldlM_cons, unRegisterDev_idle hnone, ok_bind] at hs
      refine foldlM_reaches (K := fun _ => True) (L := fun _ => False)
        (fun _ _ _ _ _ _ => trivial) (fun _ _ _ _ hL _ => hL) (fun t t' _ ht => ?_) hd' hs.symm
        trivial
      rw [hid, unRegisterDev_gateway] at ht
      cases ht
    · have hs := h _ (bridgeOf_wf hid intOnLink)
      have hnone : (bridgeOf intOnLink [nodeOf (namedDev d')]).listGetByIdLocal (namedDev d) =
          none := by
        rw [get_bridgeOf hid, if_neg hgateway, if_neg (Ne.symm hne)]
      rw [foldlM_cons, unRegisterDev_idle hnone, ok_bind] at hs
      have hgone := foldlM_reaches (K := Bridge.Wf)
        (L := fun s => s.Wf ∧ s.listGetByIdLocal (namedDev d') = none)
        (fun a _ t t' ht hstep => (unRegisterDev_spec ht hstep).1)
        (fun a _ t t' ⟨hw, hL⟩ hstep => by
          obtain ⟨hw', hget⟩ := unRegisterDev_spec hw hstep
          refine ⟨hw', ?_⟩
          rw [hget, hL, ite_self])
        (fun t t' ht hstep => by
          obtain ⟨hw', hget⟩ := unRegisterDev_spec ht hstep
          exact ⟨hw', by rw [hget, if_pos rfl]⟩)
        hd' hs.symm (bridgeOf_wf hid intOnLink)
      rw [get_bridgeOf hid, if_neg hid, if_pos rfl] at hgone
      cases hgone.2
  · intro h s hs
    rw [foldlM_cons]
    rcases h with hgateway | hsame
    · rw [hgateway, unRegisterDev_gateway]
      rfl
    · cases hs' : unRegisterDev s (namedDev d) with
      | error e => rfl
      | ok s' =>
        rw [ok_bind, foldlM_idle]
        intro d' hd'
        rw [hsame d' hd']
        exact unRegisterDev_idle (by rw [(unRegisterDev_spec hs hs').2, if_pos rfl])

/-! ## Online states -/

theorem charCopyFromJson_ok (hd : IsElement d) (c : BitVec 8) :
    ∃ c', charCopyFromJson d strValue c = .ok c' := by
  unfold charCopyFromJson
  cases hv : d.getObjectItem strValue with
  | none => exact ⟨c, rfl⟩
  | some v =>
    obtain ⟨t, ht⟩ := hd.value v hv
    simp only [valuestring, ht, Fault.ofOption, ok_bind]
    exact ⟨_, rfl⟩

theorem onOffDev_idle (hd : IsElement d) (h : textOf strKey d ≠ strOnline) (devid : CText) :
    onOffDev charSigned s devid d = .ok s := by
  unfold onOffDev
  cases s.listGetByIdLocal devid with
  | none => rfl
  | some dev =>
    cases hk : d.getObjectItem strKey with
    | none => rfl
    | some Key =>
      obtain ⟨t, ht⟩ := hd.key Key hk
      have hne : t ≠ strOnline := by simpa [textOf, hk, ht] using h
      simp [valuestring, ht, Fault.ofOption, hne]
      rfl

/-- Each device is still there, and one that is told of is told of by one more. -/
theorem onOffDev_spec (charSigned : Bool) (s : Bridge) (hd : IsElement d) (devid : CText) :
    ∃ s', onOffDev charSigned s devid d = .ok s' ∧
      (∀ k, (s'.listGetByIdLocal k).isSome = (s.listGetByIdLocal k).isSome) ∧
      s.told.length ≤ s'.told.length ∧
      ((s.listGetByIdLocal devid).isSome → textOf strKey d = strOnline →
        s.told.length < s'.told.length) := by
  by_cases hkey : textOf strKey d = strOnline
  · cases hget : s.listGetByIdLocal devid with
    | none =>
      refine ⟨s, ?_, fun k => rfl, le_rfl, fun h => by cases h⟩
      rw [onOffDev, hget]
      rfl
    | some dev =>
      obtain ⟨c, hc⟩ := charCopyFromJson_ok hd dev.Online
      have hdev : ({ dev with Online := c } : LocalNode).DeviceId = devid ∨
          devid = hostGatewayId := by
        have hid := get_deviceId hget
        exact hid
      cases hk : d.getObjectItem strKey with
      | none =>
        rw [textOf, hk] at hkey
        exact absurd hkey (by decide)
      | some Key =>
        obtain ⟨t, ht⟩ := hd.key Key hk
        have heq : t = strOnline := by simpa [textOf, hk, ht] using hkey
        refine ⟨(s.put devid { dev with Online := c }).hyLinkDevStatus { dev with Online := c }
          (Libhylink.charVal charSigned c), ?_, fun k => ?_, ?_, fun _ _ => ?_⟩
        · simp [onOffDev, hget, hk, valuestring, ht, Fault.ofOption, heq, hc]
        · rw [get_hyLinkDevStatus, get_put hdev]
          split
          next h => rw [h, hget]; rfl
          next => rfl
        · exact le_of_lt (told_hyLinkDevStatus_lt _ _ _)
        · exact told_hyLinkDevStatus_lt _ _ _
  · exact ⟨s, onOffDev_idle hd hkey devid, fun k => rfl, le_rfl, fun _ h => absurd h hkey⟩

theorem onOffDev_noMore_iff (charSigned : Bool) (hds : ∀ d' ∈ d :: ds, IsElement d') :
    (∀ s : Bridge, s.Wf → onOffDev charSigned s (namedDev d) d =
        (d :: ds).foldlM (fun s d => onOffDev charSigned s (namedDev d) d) s) ↔
      NoMore .onOff d ds := by
  obtain ⟨hd, hds⟩ := forall_mem_cons.mp hds
  constructor
  · intro h d' hd' hkey
    -- in a bridge that has the device
    obtain ⟨s₀, hw, hsome⟩ : ∃ s₀ : Bridge, s₀.Wf ∧ (s₀.listGetByIdLocal (namedDev d')).isSome := by
      by_cases hid : namedDev d' = hostGatewayId
      · exact ⟨_, bridgeOf_nil_wf intOnLink, by simp [hid, listGetByIdLocal]⟩
      · refine ⟨_, bridgeOf_wf hid intOnLink, ?_⟩
        rw [get_bridgeOf hid, if_neg hid, if_pos rfl]
        rfl
    have hs := h s₀ hw
    obtain ⟨s₁, h₁, hthere, -⟩ := onOffDev_spec charSigned s₀ hd (namedDev d)
    rw [foldlM_cons, h₁, ok_bind] at hs
    have hmore : s₁.told.length < s₁.told.length :=
      foldlM_reaches (K := fun s => (s.listGetByIdLocal (namedDev d')).isSome ∧
          s₁.told.length ≤ s.told.length)
        (L := fun s => s₁.told.length < s.told.length)
        (fun a ha t t' ⟨hK, hle⟩ hstep => by
          obtain ⟨u, hu, hsome', hle', -⟩ := onOffDev_spec charSigned t (hds a ha) (namedDev a)
          obtain rfl := ok.inj (hstep.symm.trans hu)
          exact ⟨by rwa [hsome'], hle.trans hle'⟩)
        (fun a ha t t' hL hstep => by
          obtain ⟨u, hu, -, hle', -⟩ := onOffDev_spec charSigned t (hds a ha) (namedDev a)
          obtain rfl := ok.inj (hstep.symm.trans hu)
          exact lt_of_lt_of_le hL hle')
        (fun t t' ⟨hK, hle⟩ hstep => by
          obtain ⟨u, hu, -, -, hlt⟩ := onOffDev_spec charSigned t (hds d' hd') (namedDev d')
          obtain rfl := ok.inj (hstep.symm.trans hu)
          exact lt_of_le_of_lt hle (hlt hK hkey))
        hd' hs.symm ⟨by rwa [hthere], le_rfl⟩
    exact absurd hmore (lt_irrefl _)
  · intro h s _
    obtain ⟨s₁, h₁, -⟩ := onOffDev_spec charSigned s hd (namedDev d)
    rw [foldlM_cons, h₁, ok_bind, foldlM_idle]
    intro d' hd'
    exact onOffDev_idle (hds d' hd') (h d' hd') _

/-! ## Attributes -/

theorem localAttrGateway_ok (hds : ∀ d ∈ ds, IsElement d) (c : BitVec 8) :
    ∃ c', localAttrGateway c (.array ds) = .ok c' := by
  unfold localAttrGateway Json.children
  induction ds generalizing c with
  | nil => exact ⟨c, rfl⟩
  | cons d ds ih =>
    obtain ⟨hd, hds⟩ := forall_mem_cons.mp hds
    rw [foldlM_cons]
    cases hk : d.getObjectItem strKey with
    | none => exact ih hds c
    | some Key =>
      obtain ⟨t, ht⟩ := hd.key Key hk
      simp only [valuestring, ht, Fault.ofOption, ok_bind]
      split
      · obtain ⟨c', hc'⟩ := charCopyFromJson_ok hd c
        rw [hc', ok_bind]
        exact ih hds c'
      · exact ih hds c

/-- Whether a device is online. -/
def Bridge.online (s : Bridge) (k : CText) : Option (BitVec 8) :=
  (s.listGetByIdLocal k).map (·.Online)

theorem online_put (hget : s.listGetByIdLocal devid = some dev') (dev : LocalNode)
    (hdev : dev.DeviceId = dev'.DeviceId) (k : CText) :
    (s.put devid dev).online k = if k = devid then some dev.Online else s.online k := by
  have hid := get_deviceId hget
  rw [← hdev] at hid
  rw [online, get_put hid]
  split
  next => rw [hget]; rfl
  next => rfl

theorem localAttributeUpdate_deviceId {dev d' : DevLocal} {clouds clouds' : List DevCloud}
    (h : localAttributeUpdate charSigned dev Data clouds = .ok (some (d', clouds'))) :
    d'.DeviceId = dev.DeviceId := by
  unfold localAttributeUpdate at h
  split at h
  next => cases h
  next =>
    obtain ⟨_, -, h⟩ := bind_eq_ok.mp h
    obtain ⟨_, -, h⟩ := bind_eq_ok.mp h
    obtain ⟨_, -, h⟩ := bind_eq_ok.mp h
    obtain rfl := congrArg Prod.fst (some.inj (ok.inj h))
    rfl

theorem attributeUpdate_spec (h : attributeUpdate charSigned s dev Data = .ok (some (dev', s'))) :
    dev'.DeviceId = dev.DeviceId ∧ dev'.Online = dev.Online ∧
      ∀ k, s'.listGetByIdLocal k = s.listGetByIdLocal k := by
  unfold attributeUpdate at h
  obtain ⟨r, hr, h⟩ := bind_eq_ok.mp h
  cases r with
  | none => cases h
  | some r =>
    obtain ⟨d', clouds'⟩ := r
    obtain ⟨rfl, rfl⟩ := Prod.mk.inj (some.inj (ok.inj h))
    refine ⟨localAttributeUpdate_deviceId (defined_eq_ok.mp hr), rfl, fun k => ?_⟩
    split <;> rfl

/-- What an offline device becomes when its attributes are reported. -/
def wake (Online : BitVec 8) : BitVec 8 := if Online = intOffLink then intOnLink else Online

theorem wake_ne (Online : BitVec 8) : wake Online ≠ intOffLink := by
  unfold wake
  split
  next => decide
  next h => exact h

theorem online_attributeDev (h : attributeDev charSigned s devid Data = .ok s') (k : CText) :
    s'.online k = if k = devid then (s.online k).map wake else s.online k := by
  unfold attributeDev at h
  cases hget : s.listGetByIdLocal devid with
  | none =>
    rw [hget] at h
    obtain rfl := ok.inj h
    split
    next hk => rw [hk, online, hget]; rfl
    next => rfl
  | some dev =>
    rw [hget] at h
    dsimp only at h
    -- the device before its attributes are set
    obtain ⟨dev₁, s₁, hpair, hdev₁, hget₁, honline⟩ : ∃ dev₁ s₁,
        (if dev.Online = intOffLink then
          ({ dev with Online := intOnLink }, (s.put devid { dev with Online := intOnLink }
            ).hyLinkDevStatus { dev with Online := intOnLink } devOnline)
          else (dev, s)) = (dev₁, s₁) ∧ dev₁.Online = wake dev.Online ∧
        s₁.listGetByIdLocal devid = some dev₁ ∧
        ∀ k, s₁.online k = if k = devid then some dev₁.Online else s.online k := by
      by_cases hoff : dev.Online = intOffLink
      · rw [if_pos hoff]
        refine ⟨_, _, rfl, by simp [wake, hoff], ?_, fun k => ?_⟩
        · rw [get_hyLinkDevStatus, get_put_self hget { dev with Online := intOnLink } rfl]
        · exact online_put hget { dev with Online := intOnLink } rfl k
      · rw [if_neg hoff]
        refine ⟨_, _, rfl, by simp [wake, hoff], hget, fun k => ?_⟩
        split
        next hk => rw [hk, online, hget]; rfl
        next => rfl
    rw [hpair] at h
    dsimp only at h
    have hgoal : s₁.online k = if k = devid then (s.online k).map wake else s.online k := by
      rw [honline]
      split
      next hk => rw [hk, online, hget, hdev₁]; rfl
      next => rfl
    rw [← hgoal]
    split at h
    next =>
      obtain ⟨c, -, h⟩ := bind_eq_ok.mp h
      obtain rfl := ok.inj h
      rfl
    next =>
      obtain ⟨r, hr, h⟩ := bind_eq_ok.mp h
      cases r with
      | none => rw [ok.inj h]
      | some r =>
        obtain ⟨dev₂, s₂⟩ := r
        obtain rfl := ok.inj h
        obtain ⟨hid, hon, hsame⟩ := attributeUpdate_spec hr
        rw [online_put ((hsame devid).trans hget₁) dev₂ hid, honline, hon]
        split
        next => rfl
        next hk => rw [online, hsame]; exact (honline k).trans (if_neg hk)

theorem dedup_same (hsame : ∀ d' ∈ ds, namedDev d' = namedDev d) :
    ((d :: ds).map namedDev).dedup = [namedDev d] := by
  have hrep : (d :: ds).map namedDev = replicate (d :: ds).length (namedDev d) := by
    rw [eq_replicate_iff]
    refine ⟨by simp, fun k hk => ?_⟩
    obtain ⟨d', hd', rfl⟩ := mem_map.mp hk
    rcases mem_cons.mp hd' with rfl | hd'
    · rfl
    · exact hsame d' hd'
  rw [hrep, replicate_dedup (by simp)]

theorem attributeDev_noMore_iff (charSigned : Bool) (hds : ∀ d' ∈ d :: ds, IsElement d') :
    (∀ s : Bridge, s.Wf → attributeDev charSigned s (namedDev d) (.array (d :: ds)) =
        eachElement charSigned .attribute' root (d :: ds) s) ↔
      NoMore .attribute' d ds := by
  constructor
  · intro h d' hd'
    by_contra hne
    -- the device of `d'` is there, and offline
    obtain ⟨s₀, s₁, hw, hoff, hcode, hoff₁⟩ : ∃ s₀ s₁ : Bridge, s₀.Wf ∧
        s₀.online (namedDev d') = some intOffLink ∧
        attributeDev charSigned s₀ (namedDev d) (.array (d :: ds)) = .ok s₁ ∧
        s₁.online (namedDev d') = some intOffLink := by
      suffices ∃ s₀ s₁ : Bridge, s₀.Wf ∧ s₀.online (namedDev d') = some intOffLink ∧
          attributeDev charSigned s₀ (namedDev d) (.array (d :: ds)) = .ok s₁ by
        obtain ⟨s₀, s₁, hw, hoff, hcode⟩ := this
        exact ⟨s₀, s₁, hw, hoff, hcode, by rw [online_attributeDev hcode, if_neg hne, hoff]⟩
      by_cases hid : namedDev d' = hostGatewayId
      · refine ⟨bridgeOf intOffLink [], bridgeOf intOffLink [], bridgeOf_nil_wf intOffLink,
          by rw [hid]; rfl, ?_⟩
        have hnone : (bridgeOf intOffLink []).listGetByIdLocal (namedDev d) = none := by
          rw [listGetByIdLocal, if_neg (hid ▸ Ne.symm hne)]
          rfl
        rw [attributeDev, hnone]
        rfl
      · have hoff : (bridgeOf intOnLink [nodeOf (namedDev d')]).online (namedDev d') =
            some intOffLink := by
          rw [online, get_bridgeOf hid, if_neg hid, if_pos rfl]
          rfl
        by_cases hgateway : namedDev d = hostGatewayId
        · obtain ⟨c, hc⟩ := localAttrGateway_ok hds
            (bridgeOf intOnLink [nodeOf (namedDev d')]).PermitJoining
          refine ⟨_, { bridgeOf intOnLink [nodeOf (namedDev d')] with PermitJoining := c },
            bridgeOf_wf hid intOnLink, hoff, ?_⟩
          have hon : (bridgeOf intOnLink []).gateway.Online ≠ intOffLink := by decide
          have hgw : (bridgeOf intOnLink []).gateway.DeviceId = hostGatewayId := rfl
          rw [attributeDev, hgateway, get_bridgeOf hid, if_pos rfl]
          simp [if_neg hon, hgw, hc]
        · refine ⟨_, bridgeOf intOnLink [nodeOf (namedDev d')], bridgeOf_wf hid intOnLink, hoff, ?_⟩
          have hnone : (bridgeOf intOnLink [nodeOf (namedDev d')]).listGetByIdLocal (namedDev d) =
              none := by
            rw [get_bridgeOf hid, if_neg hgateway, if_neg (Ne.symm hne)]
          rw [attributeDev, hnone]
          rfl
    have hs := h s₀ hw
    rw [hcode] at hs
    have hmem : namedDev d' ∈ ((d :: ds).map namedDev).dedup :=
      mem_dedup.mpr (mem_map_of_mem (mem_cons_of_mem _ hd'))
    obtain ⟨c, hc, hon⟩ := foldlM_reaches (K := fun s => (s.online (namedDev d')).isSome)
      (L := fun s => ∃ c, s.online (namedDev d') = some c ∧ c ≠ intOffLink)
      (fun a _ t t' hK hstep => by
        rw [online_attributeDev hstep]
        split <;> simpa using hK)
      (fun a _ t t' hL hstep => by
        obtain ⟨c, hc, hon⟩ := hL
        rw [online_attributeDev hstep, hc]
        split
        · exact ⟨_, rfl, wake_ne c⟩
        · exact ⟨c, rfl, hon⟩)
      (fun t t' hK hstep => by
        obtain ⟨c, hc⟩ := isSome_iff_exists.mp hK
        exact ⟨_, by rw [online_attributeDev hstep, if_pos rfl, hc]; rfl, wake_ne c⟩)
      hmem hs.symm (by rw [hoff]; rfl)
    rw [hoff₁] at hc
    exact hon (some.inj hc).symm
  · intro h s _
    have hfilter : (d :: ds).filter (namedDev · = namedDev d) = d :: ds := by
      rw [filter_eq_self]
      intro d' hd'
      rcases mem_cons.mp hd' with rfl | hd'
      · simp
      · simpa using h d' hd'
    rw [eachElement, dedup_same h, foldlM_cons, hfilter]
    cases attributeDev charSigned s (namedDev d) (.array (d :: ds)) <;> rfl

/-! ## Whole messages -/

theorem map_true_inj {ε : Type} {x y : Except ε α} :
    x.map (fun a => (a, true)) = y.map (fun a => (a, true)) ↔ x = y := by
  cases x <;> cases y <;> simp [Except.map]

theorem readFromLocal_eachElement_iff (charSigned : Bool) {report : DevReport}
    (h : IsMessage root report (d :: ds)) :
    (∀ s : Bridge, s.Wf → readFromLocal charSigned s root =
        (eachElement charSigned report root (d :: ds) s).map fun s => (s, true)) ↔
      NoMore report d ds := by
  simp only [readFromLocal_message h, map_true_inj]
  cases report with
  | register => exact registerDev_noMore_iff h.gatewayId h.elements
  | unRegister => exact unRegisterDev_noMore_iff d ds
  | onOff => exact onOffDev_noMore_iff charSigned h.elements
  | attribute' => exact attributeDev_noMore_iff charSigned h.elements

namespace Sample

/-- The registration of a device. -/
def registers (DeviceId : CText) : Json :=
  .object [(strDeviceId, .string DeviceId), (strModelId, .string "_TYZB01_mq6qwmfy".toList)]

def registration (ds : List Json) : Json :=
  .object [(strCommand, .string strReport), (strType, .string LocalType.register.text),
    (strData, .array ds)]

/-- The text `"a"` is a message. -/
def parseA (root : Json) (t : CText) : Option Json := if t.head? = some 'a' then some root else none

def messageA (root : Json) : Message (parseA root) where
  text := ['a']
  value := root
  stx_notMem := by decide
  parse_append _ := rfl
  parse_take n h := by
    obtain rfl : n = 0 := Nat.lt_one_iff.mp h
    rfl

theorem registers_isElement {DeviceId : CText} (h : DeviceId.length < deviceIdLen) :
    IsElement (registers DeviceId) where
  deviceId := ⟨_, _, rfl, rfl, h⟩
  modelId _ hv := by
    obtain rfl := some.inj hv
    exact ⟨_, rfl, by decide⟩
  key _ hv := by cases hv
  value _ hv := by cases hv

theorem registration_isMessage {ds : List Json} (h : ∀ d ∈ ds, IsElement d) :
    IsMessage (registration ds) .register ds where
  command := rfl
  type := rfl
  data := rfl
  gatewayId _ hv := by cases hv
  elements := h

/-- A device registers. -/
def one : Json := registration [registers ['a']]

/-- Two devices register. -/
def two : Json := registration [registers ['a'], registers ['b']]

theorem one_isMessage : IsMessage one .register [registers ['a']] :=
  registration_isMessage (forall_mem_singleton.mpr (registers_isElement (by decide)))

theorem two_isMessage : IsMessage two .register [registers ['a'], registers ['b']] :=
  registration_isMessage (forall_mem_cons.mpr ⟨registers_isElement (by decide),
    forall_mem_singleton.mpr (registers_isElement (by decide))⟩)

end Sample

end Honyar.Hilink
