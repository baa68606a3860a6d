import Honyar.Hilink.Elements

/-!
# The list of devices

Whatever message is read, each device stays in the list once, the gateway stays out of it, and its
devices stay of known models.
-/

namespace Honyar.Hilink

open Hylink (strCommand strType strData strDeviceId strModelId)
open Faults List Except

variable {charSigned : Bool} {s s' : Bridge} {root d : Json}
variable {devid : CText} {dev dev' : LocalNode}

theorem map_modify_findIdx {devs : List LocalNode} (hdev : dev.DeviceId = devid) :
    (devs.modify (devs.findIdx (·.DeviceId = devid)) fun _ => dev).map (·.DeviceId) =
      devs.map (·.DeviceId) := by
  induction devs with
  | nil => rfl
  | cons x xs ih =>
    by_cases hx : x.DeviceId = devid
    · rw [findIdx_cons, decide_eq_true hx, cond_true, modify_zero_cons, map_cons,
        map_cons, hdev, hx]
    · rw [findIdx_cons, decide_eq_false hx, cond_false, modify_succ_cons, map_cons,
        map_cons, ih]

theorem mem_modify {devs : List LocalNode} {i : Nat} {x : LocalNode}
    (h : x ∈ devs.modify i fun _ => dev) : x ∈ devs ∨ x = dev := by
  induction devs generalizing i with
  | nil => simp at h
  | cons y ys ih =>
    cases i with
    | zero =>
      rw [modify_zero_cons] at h
      rcases mem_cons.mp h with rfl | h
      · exact .inr rfl
      · exact .inl (mem_cons_of_mem _ h)
    | succ i =>
      rw [modify_succ_cons] at h
      rcases mem_cons.mp h with rfl | h
      · exact .inl mem_cons_self
      · exact (ih h).imp_left (mem_cons_of_mem _)

theorem get_mem (h : s.listGetByIdLocal devid = some dev) :
    devid = hostGatewayId ∨ dev ∈ s.locals := by
  unfold Bridge.listGetByIdLocal at h
  split at h
  next hid => exact .inl hid
  next => exact .inr (mem_of_find?_eq_some h)

theorem put_wf (hs : s.Wf) (hget : s.listGetByIdLocal devid = some dev') (dev : LocalNode)
    (hid : dev.DeviceId = dev'.DeviceId) (hmodel : dev.ModelId = dev'.ModelId) :
    (s.put devid dev).Wf := by
  unfold Bridge.put
  by_cases hgateway : devid = hostGatewayId
  · rw [if_pos hgateway]
    exact ⟨hs.nodup, hs.not_gateway, hs.known⟩
  · have hdev := hid.trans ((get_deviceId hget).resolve_right hgateway)
    have hmem := (get_mem hget).resolve_left hgateway
    rw [if_neg hgateway]
    refine ⟨?_, fun x hx => ?_, fun x hx => ?_⟩
    · rw [map_modify_findIdx hdev]
      exact hs.nodup
    · rcases mem_modify hx with hx | rfl
      · exact hs.not_gateway x hx
      · exact hdev ▸ hgateway
    · rcases mem_modify hx with hx | rfl
      · exact hs.known x hx
      · exact hmodel ▸ hs.known dev' hmem

theorem cons_wf (hs : s.Wf) (hget : s.listGetByIdLocal dev.DeviceId = none)
    (hknown : (strSearch dev.ModelId localModel).isSome) :
    Bridge.Wf { s with locals := dev :: s.locals } := by
  unfold Bridge.listGetByIdLocal at hget
  split at hget
  next => cases hget
  next hgateway =>
    rw [find?_eq_none] at hget
    refine ⟨nodup_cons.mpr ⟨fun h => ?_, hs.nodup⟩, forall_mem_cons.mpr
      ⟨hgateway, hs.not_gateway⟩, forall_mem_cons.mpr ⟨hknown, hs.known⟩⟩
    obtain ⟨x, hx, hid⟩ := mem_map.mp h
    exact hget x hx (by simpa using hid)

theorem attributeRegister_spec (h : attributeRegister dev = some dev') :
    dev'.DeviceId = dev.DeviceId ∧ dev'.ModelId = dev.ModelId ∧
      (strSearch dev.ModelId localModel).isSome := by
  obtain ⟨index, hindex, rfl⟩ := Option.map_eq_some_iff.mp h
  exact ⟨rfl, rfl, by rw [hindex]; rfl⟩

theorem attributeUpdate_locals {Data : Json}
    (h : attributeUpdate charSigned s dev Data = .ok (some (dev', s'))) :
    dev'.ModelId = dev.ModelId ∧ (strSearch dev.ModelId localModel).isSome ∧
      s'.locals = s.locals := by
  unfold attributeUpdate at h
  obtain ⟨r, hr, h⟩ := bind_eq_ok.mp h
  rw [defined_eq_ok, localAttributeUpdate] at hr
  cases hindex : strSearch dev.ModelId localModel with
  | none =>
    rw [hindex] at hr
    obtain rfl := ok.inj hr
    cases h
  | some index =>
    rw [hindex] at hr
    obtain ⟨_, -, hr⟩ := bind_eq_ok.mp hr
    obtain ⟨_, -, hr⟩ := bind_eq_ok.mp hr
    obtain ⟨_, -, hr⟩ := bind_eq_ok.mp hr
    obtain rfl := ok.inj hr
    obtain ⟨rfl, rfl⟩ := Prod.mk.inj (Option.some.inj (ok.inj h))
    exact ⟨rfl, rfl, by split <;> rfl⟩

theorem Bridge.Wf.of_locals (hs : s.Wf) (h : s'.locals = s.locals) : s'.Wf where
  nodup := h ▸ hs.nodup
  not_gateway := h ▸ hs.not_gateway
  known := h ▸ hs.known

theorem registered_wf (hs : s.Wf) (hget : s.listGetByIdLocal dev.DeviceId = none)
    (h : attributeRegister dev = some dev') : Bridge.Wf { s with locals := dev' :: s.locals } := by
  obtain ⟨hid, hmodel, hknown⟩ := attributeRegister_spec h
  exact cons_wf hs (by rw [hid]; exact hget) (by rw [hmodel]; exact hknown)

theorem put_updated_wf (hs : s.Wf) (hget : s.listGetByIdLocal devid = some dev) {Data : Json}
    (h : attributeUpdate charSigned s dev Data = .ok (some (dev', s'))) :
      (s'.put devid dev').Wf := by
  obtain ⟨hid, -, hsame⟩ := attributeUpdate_spec h
  obtain ⟨hmodel, -, hlocals⟩ := attributeUpdate_locals h
  exact put_wf (hs.of_locals hlocals) ((hsame devid).trans hget) _ hid hmodel

theorem strCopyFromJson_eq {v : Json} {name t u : CText} {size : Nat}
    (hv : d.getObjectItem name = some v) (hu : valuestring v = .ok u)
    (h : strCopyFromJson size d name [] = .ok t) : t = u := by
  unfold strCopyFromJson at h
  rw [hv] at h
  dsimp only at h
  rw [hu] at h
  exact (strcpy_eq_ok h).2

theorem registerDev_wf (hs : s.Wf)
    (hid : ∀ t, strCopyFromJson deviceIdLen d strDeviceId [] = .ok t → t = devid)
    (h : registerDev root s devid d = .ok s') : s'.Wf := by
  unfold registerDev at h
  cases hget : s.listGetByIdLocal devid with
  | some dev =>
    rw [hget] at h
    exact ok.inj h ▸ hs
  | none =>
    rw [hget] at h
    dsimp only at h
    obtain ⟨GatewayId, -, h⟩ := bind_eq_ok.mp h
    obtain ⟨DeviceId, hDeviceId, h⟩ := bind_eq_ok.mp h
    obtain ⟨ModelId, -, h⟩ := bind_eq_ok.mp h
    obtain rfl := hid DeviceId (defined_eq_ok.mp hDeviceId)
    cases hdev : attributeRegister ⟨⟨DeviceId, ModelId, none⟩, GatewayId, [], intOnLink⟩ with
    | none =>
      rw [hdev] at h
      exact ok.inj h ▸ hs
    | some dev =>
      rw [hdev] at h
      exact ok.inj h ▸ registered_wf hs hget hdev

theorem onOffDev_wf (hs : s.Wf) (h : onOffDev charSigned s devid d = .ok s') : s'.Wf := by
  unfold onOffDev at h
  cases hget : s.listGetByIdLocal devid with
  | none =>
    rw [hget] at h
    exact ok.inj h ▸ hs
  | some dev =>
    cases hkey : d.getObjectItem strKey with
    | none =>
      rw [hget, hkey] at h
      exact ok.inj h ▸ hs
    | some Key =>
      rw [hget, hkey] at h
      dsimp only at h
      obtain ⟨t, -, h⟩ := bind_eq_ok.mp h
      split at h
      next =>
        obtain ⟨c, -, h⟩ := bind_eq_ok.mp h
        have hput := put_wf hs hget { dev with Online := c } rfl rfl
        exact ok.inj h ▸ hput.of_locals rfl
      next => exact ok.inj h ▸ hs

theorem attributeDev_wf (hs : s.Wf) {Data : Json}
    (h : attributeDev charSigned s devid Data = .ok s') : s'.Wf := by
  unfold attributeDev at h
  cases hget : s.listGetByIdLocal devid with
  | none =>
    rw [hget] at h
    exact ok.inj h ▸ hs
  | some dev =>
    rw [hget] at h
    dsimp only at h
    obtain ⟨dev₁, s₁, hpair, hwf₁, hget₁⟩ : ∃ dev₁ s₁,
        (if dev.Online = intOffLink then
          ({ dev with Online := intOnLink }, (s.put devid { dev with Online := intOnLink }
            ).hyLinkDevStatus { dev with Online := intOnLink } devOnline)
          else (dev, s)) = (dev₁, s₁) ∧ s₁.Wf ∧ s₁.listGetByIdLocal devid = some dev₁ := by
      by_cases hoff : dev.Online = intOffLink
      · rw [if_pos hoff]
        refine ⟨_, _, rfl, ?_, ?_⟩
        · have hput := put_wf hs hget { dev with Online := intOnLink } rfl rfl
          exact hput.of_locals rfl
        · rw [get_hyLinkDevStatus, get_put_self hget { dev with Online := intOnLink } rfl]
      · rw [if_neg hoff]
        exact ⟨_, _, rfl, hs, hget⟩
    rw [hpair] at h
    dsimp only at h
    split at h
    next =>
      obtain ⟨c, -, h⟩ := bind_eq_ok.mp h
      exact ok.inj h ▸ hwf₁.of_locals rfl
    next =>
      obtain ⟨r, hr, h⟩ := bind_eq_ok.mp h
      cases r with
      | none => exact ok.inj h ▸ hwf₁
      | some r =>
        exact ok.inj h ▸ put_updated_wf hwf₁ hget₁ hr

/-- The entry of a device in the list of all devices: a device that is not there is added. -/
theorem loadDeviceInfo_wf {Params : Option CText} (hs : s.Wf)
    (h : loadDeviceInfo charSigned root Params s d = .ok s') : s'.Wf := by
  unfold loadDeviceInfo at h
  obtain ⟨devid, hdevid, h⟩ := bind_eq_ok.mp h
  dsimp only at h
  cases hget : s.listGetByIdLocal devid with
  | none =>
    rw [hget] at h
    dsimp only at h
    obtain ⟨GatewayId, -, h⟩ := bind_eq_ok.mp h
    obtain ⟨DeviceId, hDeviceId, h⟩ := bind_eq_ok.mp h
    obtain ⟨ModelId, -, h⟩ := bind_eq_ok.mp h
    obtain ⟨Version, -, h⟩ := bind_eq_ok.mp h
    obtain ⟨Online, -, h⟩ := bind_eq_ok.mp h
    obtain ⟨v, hv, ht⟩ := bind_eq_ok.mp (defined_eq_ok.mp hdevid)
    obtain rfl := strCopyFromJson_eq (Fault.ofOption_eq_ok.mp hv) ht (defined_eq_ok.mp hDeviceId)
    cases hData : Params.bind d.getObjectItem with
    | none =>
      rw [hData] at h
      dsimp only at h
      cases hdev : attributeRegister ⟨⟨DeviceId, ModelId, none⟩, GatewayId, Version, Online⟩ with
      | none =>
        rw [hdev] at h
        exact ok.inj h ▸ hs
      | some dev =>
        rw [hdev] at h
        exact ok.inj h ▸ registered_wf hs hget hdev
    | some Data =>
      rw [hData] at h
      dsimp only at h
      obtain ⟨r, hr, h⟩ := bind_eq_ok.mp h
      cases r with
      | none => exact ok.inj h ▸ hs
      | some r =>
        obtain ⟨dev₂, s₂⟩ := r
        obtain ⟨hid, -, hsame⟩ := attributeUpdate_spec hr
        obtain ⟨hmodel, hknown, hlocals⟩ := attributeUpdate_locals hr
        exact ok.inj h ▸ cons_wf (hs.of_locals hlocals)
          (by rw [hsame, hid]; exact hget) (by rw [hmodel]; exact hknown)
  | some dev =>
    rw [hget] at h
    dsimp only at h
    obtain ⟨m, -, h⟩ := bind_eq_ok.mp h
    split at h
    next =>
      obtain ⟨Version, -, h⟩ := bind_eq_ok.mp h
      obtain ⟨Online, -, h⟩ := bind_eq_ok.mp h
      have hput := put_wf hs hget { dev with Version := Version, Online := Online } rfl rfl
      have hget₁ : (s.put devid { dev with Version := Version, Online := Online }
          ).listGetByIdLocal devid = some { dev with Version := Version, Online := Online } :=
        get_put_self hget _ rfl
      split at h
      next =>
        split at h
        next => exact ok.inj h ▸ hput
        next =>
          obtain ⟨c, -, h⟩ := bind_eq_ok.mp h
          exact ok.inj h ▸ hput.of_locals rfl
      next =>
        obtain ⟨s₁, hs₁, hwf₁, hget₁⟩ : ∃ s₁, (if decide (Online = 1 ∨ Online ≠ dev.Online) then
              (s.put devid { dev with Version := Version, Online := Online }).hyLinkDevStatus
                { dev with Version := Version, Online := Online }
                (Libhylink.charVal charSigned Online)
            else s.put devid { dev with Version := Version, Online := Online }) = s₁ ∧ s₁.Wf ∧
            s₁.listGetByIdLocal devid =
              some { dev with Version := Version, Online := Online } := by
          refine ⟨_, rfl, ?_, ?_⟩
          · split
            · exact hput.of_locals rfl
            · exact hput
          · split
            · exact hget₁
            · exact hget₁
        rw [hs₁] at h
        split at h
        next =>
          cases hdev : attributeRegister { dev with Version := Version, Online := Online } with
          | none =>
            rw [hdev] at h
            exact ok.inj h ▸ put_wf hwf₁ hget₁ _ rfl rfl
          | some dev₂ =>
            rw [hdev] at h
            obtain ⟨hid, hmodel, -⟩ := attributeRegister_spec hdev
            exact ok.inj h ▸ put_wf hwf₁ hget₁ _ hid hmodel
        next =>
          obtain ⟨r, hr, h⟩ := bind_eq_ok.mp h
          cases r with
          | none => exact ok.inj h ▸ hwf₁
          | some r =>
            exact ok.inj h ▸ put_updated_wf hwf₁ hget₁ hr
    next => exact ok.inj h ▸ hs

theorem readFromLocal_wf (hs : s.Wf) {r : Bridge × Bool}
    (h : readFromLocal charSigned s root = .ok r) : r.1.Wf := by
  unfold readFromLocal at h
  split at h
  next => exact ok.inj h ▸ hs
  next =>
    obtain ⟨t, -, h⟩ := bind_eq_ok.mp h
    split at h
    next => exact ok.inj h ▸ hs
    next =>
      split at h
      next =>
        obtain ⟨u, -, h⟩ := bind_eq_ok.mp h
        split at h
        next type d ds _ hds =>
          obtain ⟨devid, hdevid, h⟩ := bind_eq_ok.mp h
          obtain ⟨s', hs', h⟩ := bind_eq_ok.mp h
          obtain rfl := ok.inj h
          dsimp only
          have hid : ∀ u, devid = some u → ∀ t,
              strCopyFromJson deviceIdLen d strDeviceId [] = .ok t → t = u := by
            rintro u rfl t ht
            rw [defined_eq_ok] at hdevid
            split at hdevid
            next => cases hdevid
            next obj hobj =>
              obtain ⟨x, hx, hdevid⟩ := bind_eq_ok.mp hdevid
              obtain ⟨y, hy, hdevid⟩ := bind_eq_ok.mp hdevid
              rw [strCopyFromJson_eq hobj hx ht, ← (strcpy_eq_ok hy).2]
              exact Option.some.inj (ok.inj hdevid)
          have hlist (Params : Option CText) (Data : Json) (t : Bridge)
              (ht : Data.children.foldlM (loadDeviceInfo charSigned root Params) s = .ok t) :
              t.Wf :=
            foldlM_keeps (K := Bridge.Wf)
              (fun a _ t t' hK hstep => loadDeviceInfo_wf hK hstep) ht hs
          cases type with
          | register =>
            obtain ⟨u, hu, hs'⟩ := bind_eq_ok.mp hs'
            exact registerDev_wf hs (hid u (Fault.ofOption_eq_ok.mp (defined_eq_ok.mp hu))) hs'
          | unRegister =>
            obtain ⟨u, -, hs'⟩ := bind_eq_ok.mp hs'
            exact (unRegisterDev_spec hs hs').1
          | onOff =>
            obtain ⟨u, -, hs'⟩ := bind_eq_ok.mp hs'
            exact onOffDev_wf hs hs'
          | attribute' | devAttri | event =>
            obtain ⟨u, -, hs'⟩ := bind_eq_ok.mp hs'
            exact attributeDev_wf hs hs'
          | devList | devsInfo => exact hlist _ _ _ hs'
          | reFactory => cases hs'
          | cooInfo | neighborInfo | childrenInfo | setSig | getSig | ack =>
            exact ok.inj hs' ▸ hs
        next => exact ok.inj h ▸ hs
      next => exact ok.inj h ▸ hs

theorem recvToLocal_wf {parse : CText → Option Json} {getDevListFlag : Nat} {data : CText}
    (h : (recvToLocal (readFromLocal charSigned) parse getDevListFlag s data).2 = .ok s')
    (hs : s.Wf) : s'.Wf := by
  induction data generalizing s with
  | nil => exact ok.inj h ▸ hs
  | cons b data ih =>
    rw [recvToLocal] at h
    split at h
    next =>
      split at h
      next => cases h
      next t ret hread =>
        have ht : t.Wf := by
          unfold readText at hread
          split at hread
          next => exact (Prod.mk.inj (ok.inj hread)).1 ▸ hs
          next => exact readFromLocal_wf hs hread
        split at h
        next => exact ok.inj h ▸ ht
        next => exact ih h ht
    next => exact ih h hs

/-- Whatever is received, in however many reads and whatever the count of requests is at each, the
list of devices stays one. -/
theorem received_wf (charSigned : Bool) (parse : CText → Option Json) (reads : List (Nat × CText))
    (h : reads.foldlM (fun s r => (recvToLocal (readFromLocal charSigned) parse r.1 s r.2).2) s =
      .ok s') (hs : s.Wf) : s'.Wf :=
  foldlM_keeps (K := Bridge.Wf) (fun _ _ _ _ ht hstep => recvToLocal_wf hstep ht) h hs

/-- Two reads. -/
def Sample.twice : List (Nat × CText) := [(0, [Hylink.stx, 'a']), (1, [Hylink.stx, 'a'])]

open Sample in
theorem received_wf_twice :
    ∃ s', twice.foldlM (fun s r => (recvToLocal (readFromLocal true) (parseA one) r.1 s r.2).2)
      (bridgeOf intOnLink []) = .ok s' ∧ s'.Wf := by
  have hs : (bridgeOf intOnLink []).Wf := ⟨nodup_nil, nofun, nofun⟩
  refine ⟨_, rfl, received_wf true (parseA one) twice ?_ hs⟩
  rfl

end Honyar.Hilink
