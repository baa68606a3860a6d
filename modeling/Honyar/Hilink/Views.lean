import Honyar.Hilink.Elements
import Honyar.Hilink.Partial
import Honyar.Lib.Keyed

/-!
# One device under four serial numbers

What the cloud asks of a panel or of one of its views is asked of the device itself: the number of
the view is taken off the serial number, in `cloud_tolocal`, in `cloud_singleDevice_offlink` and in
`cloud_delete_device` (cloud_receive.c).  `cloud_get_attr` (cloud_send.c) means to do so where it is
called without a source.
-/

namespace Honyar.Hilink

open Libhylink (charVal)
open Faults Option List

/-! ## What the cloud asks for -/

/-- The size of `ssn` in `cloud_receive.c`, and in `cloud_get_attr`. -/
def ssnLen : Nat := 32
def ssnSrcLen : Nat := 40

/-- The number of a view is taken off. -/
def stripView (index : Option Nat) (ssn : CText) : Except Fault CText :=
  match index with
  | some 9 | some 10 | some 11 => if ssn = [] then .error .memory else return ssn.dropLast
  | _ => return ssn

instance Private.decidableIsOf : (p : Private) → (m : Nat) → Decidable (p.IsOf m)
  | .hy0095 _, m => inferInstanceAs (Decidable (m = 0))
  | .hy0096 _, m => inferInstanceAs (Decidable (m = 1))
  | .hy0097 _, m => inferInstanceAs (Decidable (m = 2))
  | .d09223f _, m => inferInstanceAs (Decidable (m = 3))
  | .hy0121 _, m => inferInstanceAs (Decidable (m = 4))
  | .hy0122 _, m => inferInstanceAs (Decidable (m = 5))
  | .hy0107 _, m => inferInstanceAs (Decidable (m = 6))
  | .hy0093 _, m => inferInstanceAs (Decidable (m = 7))
  | .hy0134 _, m => inferInstanceAs (Decidable (8 ≤ m ∧ m ≤ 11))

/-- The serial number under which `cloud_get_attr` looks for its source. -/
def ssnOf (out : DevCloud) : Except Fault CText := do
  let ssn ← strcpy ssnSrcLen out.sn
  -- For a view the terminator is put where it stands already.
  return ssn

/-- `cloud_get_attr` without a source, for the device `out`. -/
def cloudGetAttrOut (charSigned : Bool) (s : Bridge) (out : DevCloud) : Except Fault Bridge := do
  let ssn ← ssnOf out
  match s.listGetByIdLocal ssn with
  -- `goto fail` leaves out what `root` is set to, and `cJSON_Delete` follows it.
  | none => .error .memory
  | some src =>
    match strSearch out.prodId cloudModel with
    | none => return s
    | some index => do
      let priv ← Fault.ofOption src.priv
      if priv.IsOf index then
        let (priv, clouds) ← cloudGetAttr charSigned priv index none out.sn s.clouds
        return { s.put ssn { src with priv := some priv } with clouds := clouds }
      else .error .memory

/-- `cloud_singleDevice_offlink`. -/
def cloudSingleDeviceOfflink (s : Bridge) (sn : CText) : Except Fault Bridge :=
  match listGetByIdCloud s.clouds sn with
  | none => return s
  | some dev_cloud => do
    let ssn ← stripView (strSearch dev_cloud.prodId cloudModel) (← strcpy ssnLen sn)
    match s.listGetByIdLocal ssn with
    | none => return s
    | some dev =>
      return if dev.Online = intOffLink then { s with told := s.told ++ [.status sn 0] } else s

/-- A device of the cloud is deleted, and the cloud told of it. -/
def Bridge.deleteCloud (s : Bridge) (sn : CText) : Bridge :=
  let s := s.listDelByIdCloud sn
  { s with told := s.told ++ [.status sn devRestore] }

/-- The views of a panel are deleted. -/
def Bridge.deleteViews (s : Bridge) (index : Option Nat) (ssn : CText) : Except Fault Bridge :=
  match index with
  | some 8 | some 9 | some 10 | some 11 =>
    (List.range 3).foldlM (fun s j => do return s.deleteCloud (← strcpy ssnLen (viewSn ssn j))) s
  | _ => return s

/-- `list_del_by_id_local`: the gateway is in no list it could be taken from. -/
def Bridge.listDelByIdLocal (s : Bridge) (devid : CText) : Except Fault Bridge :=
  if devid = hostGatewayId then .error .memory
  else return { s with locals := s.locals.eraseP (·.DeviceId = devid) }

/-- `cloud_delete_device`. -/
def cloudDeleteDevice (s : Bridge) (sn : CText) : Except Fault Bridge :=
  match listGetByIdCloud s.clouds sn with
  | none => return s
  | some dev_cloud => do
    let index := strSearch dev_cloud.prodId cloudModel
    let ssn ← stripView index (← strcpy ssnLen sn)
    let s ← s.deleteViews index ssn
    let s ← (s.deleteCloud ssn).listDelByIdLocal ssn
    return { s with told := s.told ++ [.deleteDev (← strcpy deviceIdLen ssn)] }

/-! ## A panel in both lists -/

/-- The serial numbers of a panel and of its views. -/
def viewSns (DeviceId : CText) : List CText := (viewsOf 8).map (snOf · DeviceId)

/-- A panel of the bridge with the fields `d` that is in the cloud, with its views, once each, and
whose serial numbers fit. -/
structure MultiDevice (s : Bridge) (dev : LocalNode) (d : DevHY0134) (cs : Nat → DevCloud) :
    Prop where
  wf : s.Wf
  mem : dev ∈ s.locals
  priv : dev.priv = some (.hy0134 d)
  shown : Shown 8 dev.DeviceId s.clouds cs
  nodup : (s.clouds.map DevCloud.sn).Nodup
  short : dev.DeviceId.length + 1 < deviceIdLen

/-- What the cloud asks for. -/
inductive CloudOp where
  | getAttr
  | toLocal (frameNumber : Int) (svcId : CText) (root : Json)
  | offlink
  | delete

/-- Values are written to services the views have. -/
def Refreshed (DeviceId : CText) (cs : Nat → DevCloud) (clouds : List DevCloud) : Prop :=
  ∃ writes : Nat → List (Nat × SvcVal), ∀ view ∈ viewsOf 8,
    listGetByIdCloud clouds (snOf view DeviceId) = some ((cs view).puts (writes view)) ∧
      ∀ v ∈ writes view, v.1 < (cs view).devSvc.length

/-- What is asked of one of the serial numbers is asked of the device itself. -/
def Resolves (charSigned : Bool) (s : Bridge) (dev : LocalNode) (cs : Nat → DevCloud) (sn : CText) :
    CloudOp → Prop
  | .getAttr => ∃ out s', listGetByIdCloud s.clouds sn = some out ∧
      ssnOf out = .ok dev.DeviceId ∧ cloudGetAttrOut charSigned s out = .ok s' ∧
      Refreshed dev.DeviceId cs s'.clouds
  | .toLocal frameNumber svcId root => ∀ out,
      cloudToLocal frameNumber s.clouds sn svcId root = .ok (some out) →
        out.DeviceId = dev.DeviceId
  | .offlink => cloudSingleDeviceOfflink s sn =
      .ok (if dev.Online = intOffLink then { s with told := s.told ++ [.status sn 0] } else s)
  | .delete => ∃ s', cloudDeleteDevice s sn = .ok s' ∧ s'.gateway = s.gateway ∧
      s'.clouds = s.clouds.filter (·.sn ∉ viewSns dev.DeviceId) ∧
      s'.locals = s.locals.filter (·.DeviceId ≠ dev.DeviceId)

namespace MultiDevice

variable {charSigned : Bool} {s : Bridge} {dev : LocalNode} {d : DevHY0134} {cs : Nat → DevCloud}
variable {view : Nat}

theorem ne_gateway (h : MultiDevice s dev d cs) : dev.DeviceId ≠ hostGatewayId :=
  h.wf.not_gateway dev h.mem

theorem found (h : MultiDevice s dev d cs) : s.listGetByIdLocal dev.DeviceId = some dev := by
  rw [Bridge.listGetByIdLocal, if_neg h.ne_gateway]
  exact (Keyed.find?_eq_some_iff h.wf.nodup).mpr ⟨h.mem, rfl⟩

theorem getCloud (h : MultiDevice s dev d cs) (hview : view ∈ viewsOf 8) :
    listGetByIdCloud s.clouds (snOf view dev.DeviceId) = some (cs view) ∧
      (cs view).sn = snOf view dev.DeviceId ∧
      strSearch (cs view).prodId cloudModel = some view := by
  obtain ⟨hget, hof⟩ := h.shown view hview
  have hmodels : ∀ view ∈ viewsOf 8, view ∈ models := by decide
  exact ⟨hget, by simpa using find?_some hget, strSearch_cloudModel (hmodels view hview) hof⟩

theorem length_sn (h : MultiDevice s dev d cs) (hview : view ∈ viewsOf 8) :
    (snOf view dev.DeviceId).length < deviceIdLen := by
  have hcases : ∀ view ∈ viewsOf 8, view = 8 ∨ ∃ j : Fin 3, view = 9 + j.val := by decide
  have hdigit : ∀ j : Fin 3, (CText.ofInt j.val).length = 1 := by decide
  rcases hcases view hview with rfl | ⟨j, rfl⟩
  · exact (Nat.lt_succ_self _).trans h.short
  · rw [snOf_view, viewSn, length_append, hdigit]
    exact h.short

theorem stripView_eq (hview : view ∈ viewsOf 8) (DeviceId : CText) :
    stripView (some view) (snOf view DeviceId) = .ok DeviceId := by
  have hcases : ∀ view ∈ viewsOf 8, view = 8 ∨ 9 ≤ view ∧ view ≤ 11 := by decide
  have hviewSn : ∀ view, 9 ≤ view → view ≤ 11 → snOf view DeviceId ≠ [] := by
    intro view hlo hhi hnil
    obtain ⟨j, rfl⟩ : ∃ j : Fin 3, view = 9 + j.val := ⟨⟨view - 9, by omega⟩, by simp; omega⟩
    have hdigit : ∀ j : Fin 3, CText.ofInt j.val ≠ [] := by decide
    rw [snOf_view, viewSn] at hnil
    exact hdigit j (append_eq_nil_iff.mp hnil).2
  have hstrip {view : Nat} (hlo : 9 ≤ view) (hhi : view ≤ 11) :
      (if snOf view DeviceId = [] then (.error .memory : Except Fault CText)
        else return (snOf view DeviceId).dropLast) = .ok DeviceId := by
    rw [if_neg (hviewSn view hlo hhi), dropLast_snOf ⟨hlo, hhi⟩]
    rfl
  rcases hcases view hview with rfl | ⟨hlo, hhi⟩
  · rfl
  · obtain rfl | rfl | rfl : view = 9 ∨ view = 10 ∨ view = 11 := by omega
    · exact hstrip hlo hhi
    · exact hstrip hlo hhi
    · exact hstrip hlo hhi

theorem offlink_eq (h : MultiDevice s dev d cs) (hview : view ∈ viewsOf 8) :
    cloudSingleDeviceOfflink s (snOf view dev.DeviceId) = .ok (if dev.Online = intOffLink then
      { s with told := s.told ++ [.status (snOf view dev.DeviceId) 0] } else s) := by
  obtain ⟨hget, -, hindex⟩ := h.getCloud hview
  have hfits : (snOf view dev.DeviceId).length < ssnLen := (h.length_sn hview).trans (by decide)
  rw [cloudSingleDeviceOfflink, hget]
  dsimp only
  rw [strcpy, if_pos hfits, ok_bind, hindex, stripView_eq hview, ok_bind, h.found]
  rfl

theorem commandOf_deviceId {DeviceId Key svcId Key' : CText} {root val : Json} {sn' : CText}
    (hview : view ∈ viewsOf 8)
    (h : commandOf view (snOf view DeviceId) Key svcId root = some (sn', Key', val)) :
    sn' = DeviceId := by
  have hcases : ∀ view ∈ viewsOf 8, view = 8 ∨ view = 9 ∨ view = 10 ∨ view = 11 := by decide
  have hmap {o : Option Json} {t Key : CText} (h : o.map (t, Key, ·) = some (sn', Key', val)) :
      sn' = t := by
    obtain ⟨_, -, heq⟩ := map_eq_some_iff.mp h
    exact (Prod.mk.inj heq).1.symm
  rcases hcases view hview with rfl | rfl | rfl | rfl
  · exact hmap h
  · rw [commandOf, dropLast_snOf ⟨le_rfl, by decide⟩] at h
    exact hmap h
  · rw [commandOf, dropLast_snOf ⟨by decide, by decide⟩] at h
    exact hmap h
  · rw [commandOf, dropLast_snOf ⟨by decide, le_rfl⟩] at h
    split at h
    · exact (Prod.mk.inj (some.inj h)).1.symm
    · exact (Prod.mk.inj (some.inj h)).1.symm
    · cases h

theorem toLocal_deviceId (h : MultiDevice s dev d cs) (hview : view ∈ viewsOf 8)
    {frameNumber : Int} {svcId : CText} {root : Json} {out : LocalDev}
    (hout : cloudToLocal frameNumber s.clouds (snOf view dev.DeviceId) svcId root =
      .ok (some out)) : out.DeviceId = dev.DeviceId := by
  obtain ⟨hget, -, hindex⟩ := h.getCloud hview
  rw [cloudToLocal, hget] at hout
  dsimp only at hout
  obtain ⟨-, hout⟩ := strcpy_bind_eq_ok.mp hout
  rw [hindex, Fault.ofOption, ok_bind] at hout
  obtain ⟨ModelId, -, hout⟩ := bind_eq_ok.mp hout
  cases hkey : keyOf view svcId with
  | none =>
    rw [hkey] at hout
    cases hout
  | some Key =>
    rw [hkey] at hout
    dsimp only at hout
    cases hcommand : commandOf view (snOf view dev.DeviceId) Key svcId root with
    | none =>
      rw [hcommand] at hout
      cases hout
    | some command =>
      obtain ⟨sn', Key', val⟩ := command
      rw [hcommand] at hout
      obtain ⟨Value, -, hout⟩ := bind_eq_ok.mp hout
      obtain ⟨message, -, hout⟩ := bind_eq_ok.mp hout
      obtain rfl := some.inj (Except.ok.inj hout)
      exact commandOf_deviceId hview hcommand

theorem deleteClouds_eq {s : Bridge} (hnd : (s.clouds.map DevCloud.sn).Nodup) (sns : List CText) :
    (sns.foldl Bridge.deleteCloud s).clouds = s.clouds.filter (·.sn ∉ sns) ∧
      (sns.foldl Bridge.deleteCloud s).locals = s.locals ∧
      (sns.foldl Bridge.deleteCloud s).gateway = s.gateway := by
  induction sns generalizing s with
  | nil => exact ⟨(filter_eq_self.mpr (by simp)).symm, rfl, rfl⟩
  | cons sn sns ih =>
    have hclouds : (s.deleteCloud sn).clouds = s.clouds.filter fun c => !decide (c.sn = sn) :=
      Keyed.eraseP_eq_filter hnd fun c => decide_eq_true_iff
    have hnd' : ((s.deleteCloud sn).clouds.map DevCloud.sn).Nodup := by
      rw [hclouds]
      exact hnd.sublist (filter_sublist.map _)
    obtain ⟨hrest, hlocals, hgateway⟩ := ih hnd'
    refine ⟨?_, hlocals, hgateway⟩
    rw [foldl_cons, hrest, hclouds, List.filter_filter]
    refine filter_congr fun c _ => ?_
    by_cases hc : c.sn = sn <;> simp [hc]

theorem foldlM_deleteCloud {DeviceId : CText} {js : List Nat}
    (hfits : ∀ j ∈ js, (viewSn DeviceId j).length < ssnLen) (s : Bridge) :
    js.foldlM (fun s j => do return s.deleteCloud (← strcpy ssnLen (viewSn DeviceId j))) s =
      .ok ((js.map (viewSn DeviceId)).foldl Bridge.deleteCloud s) := by
  induction js generalizing s with
  | nil => rfl
  | cons j js ih =>
    obtain ⟨hj, hjs⟩ := forall_mem_cons.mp hfits
    rw [foldlM_cons, strcpy, if_pos hj]
    exact ih hjs _

theorem deleteViews_eq (h : MultiDevice s dev d cs) (hview : view ∈ viewsOf 8) :
    s.deleteViews (some view) dev.DeviceId =
      .ok (((List.range 3).map (viewSn dev.DeviceId)).foldl Bridge.deleteCloud s) := by
  have hcases : ∀ view ∈ viewsOf 8, view = 8 ∨ view = 9 ∨ view = 10 ∨ view = 11 := by decide
  have hfits : ∀ j ∈ List.range 3, (viewSn dev.DeviceId j).length < ssnLen := by
    intro j hj
    have hmem : ∀ j ∈ List.range 3, 9 + j ∈ viewsOf 8 := by decide
    have hsn : snOf (9 + j) dev.DeviceId = viewSn dev.DeviceId j :=
      snOf_view ⟨j, mem_range.mp hj⟩
    rw [← hsn]
    exact (h.length_sn (hmem j hj)).trans (by decide)
  have hfold := foldlM_deleteCloud hfits s
  rcases hcases view hview with rfl | rfl | rfl | rfl
  · exact hfold
  · exact hfold
  · exact hfold
  · exact hfold

theorem deleteDevice_eq (h : MultiDevice s dev d cs) (hview : view ∈ viewsOf 8) :
    ∃ s', cloudDeleteDevice s (snOf view dev.DeviceId) = .ok s' ∧ s'.gateway = s.gateway ∧
      s'.clouds = s.clouds.filter (·.sn ∉ viewSns dev.DeviceId) ∧
      s'.locals = s.locals.filter (·.DeviceId ≠ dev.DeviceId) := by
  obtain ⟨hget, -, hindex⟩ := h.getCloud hview
  have hfits : (snOf view dev.DeviceId).length < ssnLen := (h.length_sn hview).trans (by decide)
  have hshort : dev.DeviceId.length < deviceIdLen := (Nat.lt_succ_self _).trans h.short
  obtain ⟨hclouds, hlocals, hgateway⟩ :=
    deleteClouds_eq h.nodup ((List.range 3).map (viewSn dev.DeviceId) ++ [dev.DeviceId])
  rw [foldl_append] at hclouds hlocals hgateway
  rw [cloudDeleteDevice, hget]
  dsimp only
  rw [strcpy, if_pos hfits, ok_bind, hindex, stripView_eq hview, ok_bind, h.deleteViews_eq hview,
    ok_bind, Bridge.listDelByIdLocal, if_neg h.ne_gateway, strcpy, if_pos hshort]
  refine ⟨_, rfl, hgateway, hclouds.trans ?_, ?_⟩
  · refine filter_congr fun c _ => ?_
    have hsns : viewSns dev.DeviceId = dev.DeviceId :: (List.range 3).map (viewSn dev.DeviceId) :=
      rfl
    rw [hsns]
    by_cases hc : c.sn = dev.DeviceId
    · simp [hc]
    · simp [hc]
  · refine (congrArg (List.eraseP _) hlocals).trans ?_
    refine (Keyed.eraseP_eq_filter h.wf.nodup fun x => decide_eq_true_iff).trans ?_
    exact filter_congr fun x _ => by simp

theorem getAttr_eq (charSigned : Bool) (h : MultiDevice s dev d cs) :
    ∃ out s', listGetByIdCloud s.clouds dev.DeviceId = some out ∧ ssnOf out = .ok dev.DeviceId ∧
      cloudGetAttrOut charSigned s out = .ok s' ∧ Refreshed dev.DeviceId cs s'.clouds := by
  have hview : 8 ∈ viewsOf 8 := by decide
  obtain ⟨hget, hsn, hindex⟩ := h.getCloud hview
  rw [snOf_panel] at hget hsn
  have hssn : ssnOf (cs 8) = .ok dev.DeviceId := by
    have hfits : dev.DeviceId.length < ssnSrcLen :=
      (Nat.lt_succ_self _).trans (h.short.trans (by decide))
    rw [ssnOf, hsn, strcpy, if_pos hfits]
  obtain ⟨clouds', hrefresh, hshown⟩ := h.shown.getAttr charSigned d 8 none
  have hof : (Private.hy0134 d).IsOf 8 := ⟨le_rfl, by decide⟩
  have hcall : cloudGetAttrOut charSigned s (cs 8) = .ok { s.put dev.DeviceId { dev with
      priv := some (.hy0134 (d.after none)) } with clouds := clouds' } := by
    rw [cloudGetAttrOut, hssn, ok_bind, h.found]
    dsimp only
    rw [hindex]
    dsimp only
    rw [h.priv, Fault.ofOption, ok_bind, if_pos hof, hsn, cloudGetAttr, hrefresh]
    rfl
  refine ⟨cs 8, _, hget, hssn, hcall, d.writes charSigned none, fun view hview => ?_⟩
  obtain ⟨-, hbound⟩ := d.writes_spec charSigned none hview
  refine ⟨(hshown view hview).1, fun v hv => ?_⟩
  rw [(h.shown view hview).2.length_eq]
  exact hbound v hv

theorem ssnOf_view (h : MultiDevice s dev d cs) (hview : view ∈ viewsOf 8) {out : DevCloud}
    (hout : listGetByIdCloud s.clouds (snOf view dev.DeviceId) = some out)
    (hssn : ssnOf out = .ok dev.DeviceId) : snOf view dev.DeviceId = dev.DeviceId := by
  obtain ⟨hget, hsn, -⟩ := h.getCloud hview
  obtain rfl := some.inj (hget.symm.trans hout)
  obtain ⟨-, heq⟩ := strcpy_eq_ok (show strcpy ssnSrcLen (cs view).sn = _ from hssn)
  exact hsn.symm.trans heq.symm

end MultiDevice

/-- What is asked of one of the serial numbers of a panel is asked of the panel, but for a refresh
without a source, which must be asked of the panel itself. -/
theorem resolves_iff {charSigned : Bool} {s : Bridge} {dev : LocalNode} {d : DevHY0134}
    {cs : Nat → DevCloud} (h : MultiDevice s dev d cs) {sn : CText}
    (hsn : sn ∈ viewSns dev.DeviceId) (op : CloudOp) :
    Resolves charSigned s dev cs sn op ↔ (op = .getAttr → sn = dev.DeviceId) := by
  obtain ⟨view, hview, rfl⟩ := List.mem_map.mp hsn
  cases op with
  | getAttr =>
    constructor
    · rintro ⟨out, s', hout, hssn, -, -⟩ -
      exact h.ssnOf_view hview hout hssn
    · intro heq
      rw [heq rfl]
      exact h.getAttr_eq charSigned
  | toLocal frameNumber svcId root =>
    exact iff_of_true (fun out hout => h.toLocal_deviceId hview hout) nofun
  | offlink => exact iff_of_true (h.offlink_eq hview) nofun
  | delete => exact iff_of_true (h.deleteDevice_eq hview) nofun

/-! ## One panel -/

def panelNode : LocalNode := ⟨panelDev, [], [], intOnLink⟩

/-- A bridge with a panel that has just been added to the cloud. -/
def panelBridge : Bridge :=
  ⟨⟨⟨hostGatewayId, [], none⟩, [], [], intOnLink⟩, 0, [panelNode], freshClouds, []⟩

theorem panelBridge_multi : ∃ cs, MultiDevice panelBridge panelNode .zero cs := by
  obtain ⟨cs, hshown⟩ := exists_shown freshClouds_shown
  refine ⟨cs, ⟨by decide, by decide, by decide⟩, ?_, rfl, hshown, by decide, by decide⟩
  exact mem_singleton_self panelNode

/-- The panel is deleted by its first view. -/
theorem panel_deleted : ∃ cs, MultiDevice panelBridge panelNode .zero cs ∧
    Resolves true panelBridge panelNode cs (viewSn bridgeSn 0) .delete := by
  obtain ⟨cs, h⟩ := panelBridge_multi
  exact ⟨cs, h, (resolves_iff h (by decide) .delete).mpr nofun⟩

/-- The services of the first view are read, and the panel is not found. -/
theorem view_not_found : ∃ cs, MultiDevice panelBridge panelNode .zero cs ∧
    viewSn bridgeSn 0 ∈ viewSns bridgeSn ∧
    (∃ out, listGetByIdCloud panelBridge.clouds (viewSn bridgeSn 0) = some out ∧
      ssnOf out = .ok (viewSn bridgeSn 0) ∧
      panelBridge.listGetByIdLocal (viewSn bridgeSn 0) = none ∧
      cloudGetAttrOut true panelBridge out = .error .memory) ∧
    ¬ Resolves true panelBridge panelNode cs (viewSn bridgeSn 0) .getAttr := by
  obtain ⟨cs, h⟩ := panelBridge_multi
  refine ⟨cs, h, by decide, ⟨_, rfl, rfl, rfl, rfl⟩, ?_⟩
  rintro ⟨out, s', hout, hssn, -, -⟩
  have hview : 9 ∈ viewsOf 8 := by decide
  exact viewSn_ne (0 : Fin 3) (h.ssnOf_view hview hout hssn)

end Honyar.Hilink
