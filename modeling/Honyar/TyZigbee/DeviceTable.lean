import Honyar.Hylink.Database
import Honyar.TyZigbee.DevsInfo

/-!
# The device table of the Zigbee process

The Zigbee process reads its map from the table at the start, and changes the two in different
places: a device that joins goes into both, the answer of the gateway goes into the map only,
and a device that leaves is taken from the map before its row is deleted under an id that has
been released.
-/

namespace Honyar.TyZigbee

open Faults List Store

/-- The table: `DEVID` and `MODELID`. -/
abbrev Rows := List (CText × CText)

/-- The device ids with the model ids of the map. -/
def rowsOf (hyMap : List HylinkDev) : Rows := hyMap.map fun d => (d.DeviceId, d.ModelId)

/-- `addDevToHyList`. -/
def addDevToHyList (hyMap : List HylinkDev) (row : CText × CText) :
    Except Fault (List HylinkDev) := do
  return hylinkListAdd hyMap (← newDev row.1 row.2 [])

/-- `selectDatabse(addDevToHyList)`. -/
def selectDatabse (rows : Rows) : Except Fault (List HylinkDev) := rows.foldlM addDevToHyList []

/-- What changes the map. -/
inductive Action where
  /-- `hylinkDevJoin`. -/
  | join (devId version manuName : CText)
  /-- `hylinkDevLeave`. -/
  | leave (devId : CText)
  /-- `hylinkRecvJson`. -/
  | devsInfo (m : DevsInfoMessage)

variable (profiles : List ZigbeeModel)

def Action.act (s : Process) : Action → Except Fault Process
  | join devId version manuName => hylinkDevJoin profiles s devId version manuName
  | leave devId => hylinkDevLeave profiles s devId
  | devsInfo m => hylinkRecvJson profiles s m.root

/-- The table as a store: a device that has a profile joins and its row is set, a device leaves
and its row goes. -/
def Action.onRows (rows : Rows) : Action → Rows
  | join devId _ manuName =>
    if (zigbeeListGet profiles manuName).isSome then
      Store.replace Prod.fst (devId, manuName) rows
    else rows
  | leave devId => Store.remove Prod.fst devId rows
  | devsInfo _ => rows

/-- No device of the map leaves, and what is listed are rows of the table. -/
def Action.Kept (s : Process) : Action → Prop
  | join _ _ _ => True
  | leave devId => hylinkListGet s.hyMap devId = none
  | devsInfo m => ∀ r ∈ m.devices, r ∈ s.rows

/-- The map and the table hold the same, a device once. -/
structure Synced (s : Process) : Prop where
  agree : ∀ r, r ∈ rowsOf s.hyMap ↔ r ∈ s.rows
  uniqueMap : (s.hyMap.map HylinkDev.DeviceId).Nodup
  uniqueRows : (s.rows.map Prod.fst).Nodup

/-! ## Devices in both -/

theorem newDev_of_fits {devId modelId : CText} (hid : devId.length < textLen)
    (hmodel : modelId.length < textLen) :
    newDev devId modelId [] = .ok ⟨devId, modelId, [], 0, 0⟩ :=
  strcpy_bind_eq_ok.mpr ⟨hid, strcpy_bind_eq_ok.mpr ⟨hmodel, rfl⟩⟩

theorem mem_rowsOf_hylinkListAdd {hyMap : List HylinkDev} {d : HylinkDev} {r : CText × CText} :
    r ∈ rowsOf (hylinkListAdd hyMap d) ↔
      r = (d.DeviceId, d.ModelId) ∨ r ∈ rowsOf hyMap ∧ r.1 ≠ d.DeviceId := by
  simp only [rowsOf, hylinkListAdd, mem_map, mem_put]
  constructor
  · rintro ⟨x, rfl | ⟨hx, hne⟩, rfl⟩
    · exact .inl rfl
    · exact .inr ⟨⟨x, hx, rfl⟩, hne⟩
  · rintro (rfl | ⟨⟨x, hx, rfl⟩, hne⟩)
    · exact ⟨d, .inl rfl, rfl⟩
    · exact ⟨x, .inr ⟨hx, hne⟩, rfl⟩

namespace Synced

variable {s : Process} {d : HylinkDev}

theorem perm (h : Synced s) : (rowsOf s.hyMap).Perm s.rows := by
  have hmap : (rowsOf s.hyMap).Nodup := by
    refine List.Nodup.of_map Prod.fst ?_
    rw [rowsOf, map_map]
    exact h.uniqueMap
  exact (perm_ext_iff_of_nodup hmap (h.uniqueRows.of_map _)).mpr h.agree

theorem insert (h : Synced s) (d : HylinkDev) (sent : List Json) (calls : List ZigbeeCall) :
    Synced ⟨hylinkListAdd s.hyMap d, insertDatabse s.rows d.DeviceId d.ModelId, sent, calls⟩ where
  agree r := by
    rw [mem_rowsOf_hylinkListAdd, h.agree, insertDatabse, mem_replace]
  uniqueMap := nodup_put h.uniqueMap d
  uniqueRows := nodup_replace h.uniqueRows _

theorem list (h : Synced s) {r : CText × CText} (hr : r ∈ s.rows) (calls : List ZigbeeCall) :
    Synced (s.list r calls) where
  agree x := by
    rw [Process.list, mem_rowsOf_hylinkListAdd, h.agree]
    constructor
    · rintro (rfl | ⟨hx, -⟩)
      · exact hr
      · exact hx
    · intro hx
      by_cases hk : x.1 = r.1
      · exact .inl (inj_on_of_nodup_map h.uniqueRows hx hr hk)
      · exact .inr ⟨hx, hk⟩
  uniqueMap := nodup_put h.uniqueMap _
  uniqueRows := h.uniqueRows

theorem remove_eq (h : Synced s) {devId : CText} (hget : hylinkListGet s.hyMap devId = none) :
    Store.remove Prod.fst devId s.rows = s.rows := by
  rw [remove, filter_eq_self]
  intro r hr
  obtain ⟨x, hx, rfl⟩ := mem_map.mp ((h.agree r).mpr hr)
  have hne := find?_eq_none.mp hget x hx
  simpa using hne

end Synced

/-! ## Steps -/

variable {profiles}

theorem hylinkDevJoin_synced {s : Process} (h : Synced s) (devId version manuName : CText) :
    Spares Dangling (fun s' => Synced s' ∧
      s'.rows = Action.onRows profiles s.rows (.join devId version manuName))
      (hylinkDevJoin profiles s devId version manuName) := by
  rw [hylinkDevJoin]
  cases hz : zigbeeListGet profiles manuName with
  | none => exact ⟨⟨h.agree, h.uniqueMap, h.uniqueRows⟩, by rw [Action.onRows, hz]; rfl⟩
  | some zDev =>
    refine (legible_newDev _ _ _).bind fun d hd _ => ?_
    obtain rfl := newDev_eq_ok hd
    exact ⟨h.insert _ _ _, by rw [Action.onRows, hz]; rfl⟩

theorem hylinkDevLeave_of_absent {s : Process} {devId : CText}
    (hget : hylinkListGet s.hyMap devId = none) : hylinkDevLeave profiles s devId = .ok s := by
  rw [hylinkDevLeave, hget]
  rfl

theorem Action.act_synced {s : Process} {a : Action} (h : Synced s) (ha : a.Kept s) :
    Spares Dangling (fun s' => Synced s' ∧ s'.rows = a.onRows profiles s.rows)
      (a.act profiles s) := by
  cases a with
  | join devId version manuName => exact hylinkDevJoin_synced h devId version manuName
  | leave devId =>
    have hleave : hylinkDevLeave profiles s devId = .ok s := hylinkDevLeave_of_absent ha
    rw [act, hleave]
    exact ⟨h, (h.remove_eq ha).symm⟩
  | devsInfo m =>
    refine m.spares (I := fun s' => Synced s' ∧ s'.rows = s.rows) ⟨h, rfl⟩ ?_
    rintro s' r hr calls ⟨hs', hrows⟩
    exact ⟨hs'.list (hrows ▸ ha r hr) calls, hrows⟩

/-! ## Runs -/

/-- The state at the start. -/
def Process.load (hyMap : List HylinkDev) (rows : Rows) : Process := ⟨hyMap, rows, [], []⟩

theorem addDevToHyList_of_fits (hyMap : List HylinkDev) {row : CText × CText}
    (hrow : row.1.length < textLen ∧ row.2.length < textLen) :
    addDevToHyList hyMap row = .ok (hylinkListAdd hyMap ⟨row.1, row.2, [], 0, 0⟩) := by
  rw [addDevToHyList, newDev_of_fits hrow.1 hrow.2]
  rfl

theorem foldlM_addDevToHyList {rows : Rows}
    (hfits : ∀ r ∈ rows, r.1.length < textLen ∧ r.2.length < textLen)
    {hyMap : List HylinkDev} (hmap : (hyMap.map HylinkDev.DeviceId).Nodup)
    (hnew : ∀ r ∈ rows, r.1 ∉ hyMap.map HylinkDev.DeviceId)
    (hnd : (rows.map Prod.fst).Nodup) :
    ∃ m, rows.foldlM addDevToHyList hyMap = .ok m ∧ (m.map HylinkDev.DeviceId).Nodup ∧
      ∀ r, r ∈ rowsOf m ↔ r ∈ rowsOf hyMap ∨ r ∈ rows := by
  induction rows generalizing hyMap with
  | nil => exact ⟨hyMap, rfl, hmap, by simp⟩
  | cons row rows ih =>
    obtain ⟨hrow, hrest⟩ := forall_mem_cons.mp hfits
    obtain ⟨hrowNew, hrestNew⟩ := forall_mem_cons.mp hnew
    obtain ⟨hne, hnd⟩ := nodup_cons.mp hnd
    obtain ⟨m, hm, hmnd, hmem⟩ := ih hrest (nodup_put hmap ⟨row.1, row.2, [], 0, 0⟩)
      (fun r hr hin => by
        obtain ⟨x, hx, heq⟩ := mem_map.mp hin
        rcases mem_put.mp hx with rfl | ⟨hx, -⟩
        · exact hne (mem_map.mpr ⟨r, hr, heq.symm⟩)
        · exact hrestNew r hr (mem_map.mpr ⟨x, hx, heq⟩)) hnd
    refine ⟨m, ?_, hmnd, fun r => ?_⟩
    · rw [foldlM_cons, addDevToHyList_of_fits hyMap hrow]
      exact hm
    · rw [hmem, show put HylinkDev.DeviceId _ hyMap = hylinkListAdd hyMap _ from rfl,
        mem_rowsOf_hylinkListAdd, mem_cons]
      constructor
      · rintro ((rfl | ⟨hr, -⟩) | hr)
        · exact .inr (.inl rfl)
        · exact .inl hr
        · exact .inr (.inr hr)
      · rintro (hr | rfl | hr)
        · refine .inl (.inr ⟨hr, fun heq => hrowNew ?_⟩)
          obtain ⟨x, hx, rfl⟩ := mem_map.mp hr
          exact mem_map.mpr ⟨x, hx, heq⟩
        · exact .inl (.inl rfl)
        · exact .inr hr

theorem selectDatabse_synced (t : Hylink.DevTable) :
    ∃ m, selectDatabse t.rows = .ok m ∧ Synced (.load m t.rows) := by
  obtain ⟨m, hm, hnd, hmem⟩ := foldlM_addDevToHyList t.fits
    (show (([] : List HylinkDev).map HylinkDev.DeviceId).Nodup from nodup_nil)
    (fun _ _ => not_mem_nil) t.unique
  exact ⟨m, hm, fun r => (hmem r).trans (by simp [rowsOf, Process.load]), hnd, t.unique⟩

/-- Where no device of the map leaves and only rows of the table are listed, the map holds the
rows of the table after every step, the table is the store that is meant, and no entry is read
that was released. -/
theorem table_in_sync (profiles : List ZigbeeModel) (t : Hylink.DevTable) :
    ∃ m, selectDatabse t.rows = .ok m ∧ ∀ as,
      Along (Action.act profiles) Action.Kept (.load m t.rows) as → ∀ bs, bs <+: as →
        Spares Dangling
          (fun s => (rowsOf s.hyMap).Perm s.rows ∧
            s.rows = bs.foldl (Action.onRows profiles) t.rows)
          (bs.foldlM (Action.act profiles) (.load m t.rows)) := by
  obtain ⟨m, hm, hsync⟩ := selectDatabse_synced t
  refine ⟨m, hm, fun as has bs hbs => ?_⟩
  have hrun : Spares Dangling
      (fun s => Synced s ∧ s.rows = bs.foldl (Action.onRows profiles) t.rows)
      (bs.foldlM (Action.act profiles) (.load m t.rows)) :=
    Along.refines (fun s a => Action.act_synced) hsync (has.of_prefix hbs)
  exact hrun.mono fun s _ ⟨hs, hrows⟩ => ⟨hs.perm, hrows⟩

/-- The answer of a gateway that lists a device. -/
def DevsInfoMessage.single (devId modelId : CText) : DevsInfoMessage where
  root := .object [(Hylink.strCommand, .string Hylink.strDispatch),
    (Hylink.strType, .string strDevsInfo),
    (Hylink.strData, .array [.object [(Hylink.strDeviceId, .string devId),
      (Hylink.strModelId, .string modelId)]])]
  type := rfl

/-- A device joins, the gateway repeats it, and one that is not there leaves. -/
theorem table_in_sync_sample : ∃ m, selectDatabse [(['d'], ['m'])] = .ok m ∧
    Spares Dangling
      (fun s => (rowsOf s.hyMap).Perm s.rows ∧ s.rows = [(['d'], ['m']), (['e'], ['n'])])
      ([Action.join ['e'] ['1'] ['n'], .devsInfo (.single ['e'] ['n']), .leave ['f']].foldlM
        (Action.act [⟨['n'], []⟩]) (.load m [(['d'], ['m'])])) := by
  obtain ⟨m, hm, hrun⟩ := table_in_sync [⟨['n'], []⟩] ⟨[(['d'], ['m'])], by decide, by decide⟩
  refine ⟨m, hm, hrun _ ?_ _ (prefix_refl _)⟩
  obtain rfl := Except.ok.inj hm
  refine ⟨trivial, fun s hs => ⟨?_, fun s' hs' => ⟨?_, fun _ _ => trivial⟩⟩⟩
  · obtain rfl := Except.ok.inj hs
    show ∀ r ∈ (DevsInfoMessage.single ['e'] ['n']).devices, r ∈ [(['d'], ['m']), (['e'], ['n'])]
    decide
  · obtain rfl := Except.ok.inj hs
    obtain rfl := Except.ok.inj hs'
    rfl

/-- A device of the table leaves, and the statement is given the id of its released entry; the
gateway lists one that is not in the table, and the map holds it alone. -/
theorem table_out_of_sync :
    (∃ m, selectDatabse [(['d'], ['m'])] = .ok m ∧
      [Action.leave ['d']].foldlM (Action.act []) (.load m [(['d'], ['m'])]) =
        .error .released) ∧
    (∃ m s, selectDatabse [] = .ok m ∧
      [Action.devsInfo (.single ['d'] ['m'])].foldlM (Action.act []) (.load m []) = .ok s ∧
        rowsOf s.hyMap = [(['d'], ['m'])] ∧ s.rows = []) :=
  ⟨⟨_, rfl, rfl⟩, ⟨_, _, rfl, rfl, rfl, rfl⟩⟩

end Honyar.TyZigbee
