import Honyar.Hylink.RecvJson
import Honyar.Lib.Run
import Honyar.Lib.Store

/-!
# The device table

The gateway keeps its devices in a map and in a table (database.c), and writes to both when a
device registers or goes.  The map is read from the table at the start.
-/

namespace Honyar.Hylink

open Option List

variable {type : RecvType} {root : Json}

/-- A row of the table: `DEVID` and `MODELID`. -/
abbrev DevRow := CText × CText

/-- The table: its ids are unique, and its texts fit the arrays they are read into. -/
structure DevTable where
  rows : List DevRow
  unique : (rows.map Prod.fst).Nodup
  fits : ∀ r ∈ rows, r.1.length < devIdLen ∧ r.2.length < devIdLen

/-- `insertDatabse`: the row with the id is replaced. -/
def insertDatabse (devId modelId : CText) (rows : List DevRow) : List DevRow :=
  Store.replace Prod.fst (devId, modelId) rows

/-- `deleteDatabse`. -/
def deleteDatabse (devId : CText) (rows : List DevRow) : List DevRow :=
  Store.remove Prod.fst devId rows

/-- `selectDatabse(addDevToHyList)`. -/
def selectDatabse (t : DevTable) : List HylinkDev :=
  t.rows.foldl (fun devs r => addDevToHyList devs r.1 r.2) []

/-- What is set off, as far as the table is concerned. -/
def Sent.onRows : Sent → List DevRow → List DevRow
  | .insert devId modelId => insertDatabse devId modelId
  | .delete devId => deleteDatabse devId
  | _ => id

/-- The map and the rows of the table. -/
structure Gateway where
  devs : List HylinkDev
  rows : List DevRow

/-- The state at the start. -/
def Gateway.load (t : DevTable) : Gateway :=
  ⟨selectDatabse t, t.rows⟩

/-- A message is handled. -/
def Gateway.recv (g : Gateway) (root : Json) : Option (Gateway × List Sent) := do
  let (devs, os, _) ← hylinkRecvJson g.devs root
  return (⟨devs, os.foldl (fun rows o => o.onRows rows) g.rows⟩, os)

/-- The device ids with the model ids of the map. -/
def rowsOf (devs : List HylinkDev) : List DevRow :=
  devs.map fun d => (d.DeviceId, d.ModelId)

/-! ## Both change together -/

theorem rowsOf_hylinkListDel (devs : List HylinkDev) (key : CText) :
    rowsOf (hylinkListDel devs key) = deleteDatabse key (rowsOf devs) := by
  rw [rowsOf, rowsOf, hylinkListDel, deleteDatabse, Store.remove, List.filter_map]
  rfl

theorem rowsOf_addDevToHyList (devs : List HylinkDev) (devId modelId : CText) :
    rowsOf (addDevToHyList devs devId modelId) = insertDatabse devId modelId (rowsOf devs) := by
  have hdel := rowsOf_hylinkListDel devs devId
  rw [rowsOf] at hdel
  rw [addDevToHyList, rowsOf, map_append, hdel]
  rfl

theorem recvElement_rows {commandDir : Bool} {arraySub : Json} {s s' : RecvState}
    {os : Option (List Sent)} (h : recvElement type commandDir root arraySub s = some (s', os)) :
    rowsOf s'.devs = (os.getD []).foldl (fun rows o => o.onRows rows) (rowsOf s.devs) := by
  cases type with
  | add =>
    simp only [recvElement] at h
    split at h
    · split at h
      · obtain ⟨t, -, h⟩ := bind_eq_some_iff.mp h
        obtain ⟨num, -, h⟩ := bind_eq_some_iff.mp h
        obtain ⟨rfl, rfl⟩ := Prod.mk.inj (some.inj h)
        rfl
      · obtain ⟨rfl, rfl⟩ := Prod.mk.inj (some.inj h)
        rfl
    · obtain ⟨rfl, rfl⟩ := Prod.mk.inj (some.inj h)
      rfl
  | register =>
    obtain ⟨hyModelId, -, h⟩ := bind_eq_some_iff.mp h
    obtain ⟨rfl, rfl⟩ := Prod.mk.inj (some.inj h)
    exact rowsOf_addDevToHyList _ _ _
  | onoff =>
    simp only [recvElement] at h
    split at h
    · obtain ⟨rfl, rfl⟩ := Prod.mk.inj (some.inj h)
      rfl
    · obtain ⟨online, -, h⟩ := bind_eq_some_iff.mp h
      obtain ⟨rfl, rfl⟩ := Prod.mk.inj (some.inj h)
      rw [rowsOf, List.map_map]
      refine map_congr_left fun d _ => ?_
      by_cases hd : d.DeviceId = s.hyDevId <;> simp [hd]
  | unregister | delete =>
    simp only [recvElement] at h
    split at h
    · obtain ⟨rfl, rfl⟩ := Prod.mk.inj (some.inj h)
      rfl
    · obtain ⟨rfl, rfl⟩ := Prod.mk.inj (some.inj h)
      exact rowsOf_hylinkListDel _ _
  | devsinfo | localScene =>
    obtain ⟨rfl, rfl⟩ := Prod.mk.inj (some.inj h)
    rfl

theorem recvElements_rows {commandDir : Bool} {ds : List Json} {s s' : RecvState} {os : List Sent}
    {ok : Bool} (h : recvElements type commandDir root s ds = some (s', os, ok)) :
    rowsOf s'.devs = os.foldl (fun rows o => o.onRows rows) (rowsOf s.devs) := by
  induction ds generalizing s os ok with
  | nil =>
    obtain ⟨rfl, rfl, -⟩ : s = s' ∧ [] = os ∧ true = ok := by simpa [recvElements] using h
    rfl
  | cons d ds ih =>
    obtain ⟨hyDevId, -, h⟩ := bind_eq_some_iff.mp h
    obtain ⟨⟨s₁, sent⟩, hrecv, h⟩ := bind_eq_some_iff.mp h
    have hrows := recvElement_rows hrecv
    cases sent with
    | none =>
      obtain ⟨rfl, rfl, -⟩ : s₁ = s' ∧ [] = os ∧ false = ok := by simpa using h
      exact hrows
    | some os₁ =>
      obtain ⟨⟨s₂, rest, ok'⟩, hrest, h⟩ := bind_eq_some_iff.mp h
      obtain ⟨rfl, rfl, -⟩ : s₂ = s' ∧ os₁ ++ rest = os ∧ ok' = ok := by simpa using h
      rw [foldl_append, ih hrest, hrows]
      rfl

theorem Gateway.recv_rows {g g' : Gateway} {os : List Sent} (hg : g.rows = rowsOf g.devs)
    (h : g.recv root = some (g', os)) : g'.rows = rowsOf g'.devs := by
  obtain ⟨⟨devs, os', ok⟩, hrecv, h⟩ := bind_eq_some_iff.mp h
  obtain ⟨rfl, rfl⟩ := Prod.mk.inj (some.inj h)
  change os'.foldl (fun rows o => o.onRows rows) g.rows = rowsOf devs
  rw [hg]
  rw [hylinkRecvJson] at hrecv
  split at hrecv
  · obtain ⟨rfl, rfl, -⟩ : g.devs = devs ∧ [] = os' ∧ false = ok := by simpa using hrecv
    rfl
  next Command _ =>
    obtain ⟨command, -, hrecv⟩ := bind_eq_some_iff.mp hrecv
    split at hrecv
    · obtain ⟨rfl, rfl, -⟩ : g.devs = devs ∧ [.heart] = os' ∧ true = ok := by simpa using hrecv
      rfl
    · have hsilent (rows : List DevRow) : (if command = strReport then [Sent.sceneReport root]
          else []).foldl (fun rows o => o.onRows rows) rows = rows := by
        split <;> rfl
      simp only at hrecv
      split at hrecv
      · obtain ⟨⟨s', os₁, ok'⟩, hloop, hrecv⟩ := bind_eq_some_iff.mp hrecv
        obtain ⟨rfl, rfl, -⟩ := by simpa using hrecv
        rw [foldl_append, hsilent, recvElements_rows hloop]
      · obtain ⟨rfl, rfl, -⟩ := by simpa using hrecv
        exact hsilent _

/-! ## Messages about devices -/

/-- The types of messages that are about devices. -/
def RecvType.ofDevice : RecvType → Bool
  | .register | .unregister | .onoff | .delete => true
  | .add | .devsinfo | .localScene => false

/-- A member of an object that is not there or is a text that fits its array. -/
def TextFits (json : Json) (src : CText) (len : Nat) : Prop :=
  ∀ v ∈ json.getObjectItem src, ∃ t, v = .string t ∧ t.length < len

/-- An element with a device id, and with texts for what is read of it. -/
structure DevElement (type : RecvType) (d : Json) : Prop where
  devId : ∃ t, d.getObjectItem strDeviceId = some (.string t) ∧ t.length < devIdLen
  modelId : type = .register → TextFits d strModelId devIdLen
  value : type = .onoff → ∀ v ∈ d.getObjectItem strValue, ∃ t, v = .string t

/-- A message that registers devices, lets them go or turns them on and off. -/
structure DevMessage (root : Json) : Prop where
  command : ∃ t, root.getObjectItem strCommand = some (.string t)
  body : ∃ type data, root.getObjectItem strType = some (.string (RecvType.text type)) ∧
    type.ofDevice = true ∧ root.getObjectItem strData = some data ∧
      ∀ d ∈ data.children, DevElement type d

theorem getStrForJson_of_fits {json : Json} {src : CText} {len : Nat}
    (h : TextFits json src len) (dst : CText) : ∃ t, getStrForJson json src len dst = some t := by
  unfold getStrForJson
  cases hv : json.getObjectItem src with
  | none => exact ⟨dst, rfl⟩
  | some v =>
    obtain ⟨t, rfl, ht⟩ := h v hv
    exact ⟨t, by simp [ht]⟩

theorem DevElement.recvElement_eq {d : Json} (h : DevElement type d) (htype : type.ofDevice = true)
    (commandDir : Bool) (root : Json) (s : RecvState) :
    ∃ s' os, recvElement type commandDir root d s = some (s', some os) := by
  cases type with
  | register =>
    obtain ⟨t, ht⟩ := getStrForJson_of_fits (h.modelId rfl) []
    exact ⟨_, _, by simp only [recvElement, ht]; rfl⟩
  | onoff =>
    simp only [recvElement]
    cases hylinkListGet s.devs s.hyDevId with
    | none => exact ⟨_, _, rfl⟩
    | some hyDev =>
      have hbyte : ∃ b, getByteForJson d strValue hyDev.online = some b := by
        unfold getByteForJson
        cases hv : d.getObjectItem strValue with
        | none => exact ⟨_, rfl⟩
        | some v =>
          obtain ⟨t, rfl⟩ := h.value rfl v hv
          exact ⟨_, rfl⟩
      obtain ⟨b, hb⟩ := hbyte
      exact ⟨_, _, by simp only [hb]; rfl⟩
  | unregister | delete =>
    simp only [recvElement]
    cases hylinkListGet s.devs s.hyDevId with
    | none => exact ⟨_, _, rfl⟩
    | some hyDev => exact ⟨_, _, rfl⟩
  | add | devsinfo | localScene => cases htype

theorem recvElements_of_dev {ds : List Json} (hds : ∀ d ∈ ds, DevElement type d)
    (htype : type.ofDevice = true) (commandDir : Bool) (root : Json) (s : RecvState) :
    ∃ s' os, recvElements type commandDir root s ds = some (s', os, true) := by
  induction ds generalizing s with
  | nil => exact ⟨s, [], rfl⟩
  | cons d ds ih =>
    obtain ⟨hd, hrest⟩ := forall_mem_cons.mp hds
    obtain ⟨t, hid, ht⟩ := hd.devId
    have hget : getStrForJson d strDeviceId devIdLen s.hyDevId = some t := by
      simp [getStrForJson, hid, ht]
    obtain ⟨s₁, os, hrecv⟩ := hd.recvElement_eq htype commandDir root { s with hyDevId := t }
    obtain ⟨s₂, os', hloop⟩ := ih hrest s₁
    refine ⟨s₂, os ++ os', ?_⟩
    simp only [recvElements, hget, bind_eq_bind, bind_some, hrecv, hloop]
    rfl

theorem DevMessage.recv_eq (h : DevMessage root) (g : Gateway) :
    ∃ g' os, g.recv root = some (g', os) := by
  obtain ⟨command, hcommand⟩ := h.command
  obtain ⟨type, data, htype, hdev, hdata, hds⟩ := h.body
  have hfind : findRecvType type.text = some type := by
    cases type <;> decide
  by_cases hbeat : command = strTcpBeatHeart
  · exact ⟨g, [.heart], by simp [Gateway.recv, hylinkRecvJson, hcommand, hbeat, Sent.onRows]⟩
  · obtain ⟨s', os, hloop⟩ :=
      recvElements_of_dev hds hdev (decide (command = strDispatch)) root ⟨g.devs, []⟩
    have hrecv : ∃ x, hylinkRecvJson g.devs root = some x := by
      simp only [hylinkRecvJson, hcommand, htype, hdata, Json.valuestring?_string,
        bind_eq_bind, bind_some, hbeat, if_false, hfind, hloop]
      exact ⟨_, rfl⟩
    obtain ⟨x, hx⟩ := hrecv
    exact ⟨_, _, by rw [Gateway.recv, hx]; rfl⟩

theorem rowsOf_selectDatabse (t : DevTable) : rowsOf (selectDatabse t) = t.rows := by
  have hfold : ∀ (rest : List DevRow) (devs : List HylinkDev),
      ((rowsOf devs ++ rest).map Prod.fst).Nodup →
        rowsOf (rest.foldl (fun devs r => addDevToHyList devs r.1 r.2) devs) =
          rowsOf devs ++ rest := by
    intro rest
    induction rest with
    | nil => exact fun devs _ => (append_nil _).symm
    | cons r rest ih =>
      intro devs hnd
      have hnew : rowsOf (addDevToHyList devs r.1 r.2) = rowsOf devs ++ [r] := by
        rw [rowsOf_addDevToHyList, insertDatabse, Store.replace, Store.remove]
        congr 1
        rw [filter_eq_self]
        intro x hx
        rw [map_append, nodup_append] at hnd
        have hne := hnd.2.2 x.1 (List.mem_map_of_mem hx) r.1 (by simp)
        simpa using hne
      rw [foldl_cons, ih, hnew, append_assoc, singleton_append]
      rw [hnew, append_assoc]
      exact hnd
  exact hfold t.rows [] t.unique

/-- Whatever messages are handled from the start on, the ids with the model ids in the map are
those in the table; and messages about devices are handled. -/
theorem map_agrees_with_table (t : DevTable) (msgs : List Json) :
    (∀ g os, Run.run Gateway.recv (.load t) msgs = some (g, os) →
      (rowsOf g.devs).Perm g.rows) ∧
    ((∀ root ∈ msgs, DevMessage root) →
      ∃ g os, Run.run Gateway.recv (.load t) msgs = some (g, os)) := by
  constructor
  · intro g os hrun
    have hg := Run.run_preserves (I := fun g : Gateway => g.rows = rowsOf g.devs)
      (fun g root g' o hg h => Gateway.recv_rows hg h) (rowsOf_selectDatabse t).symm hrun
    exact List.Perm.of_eq hg.symm
  · intro h
    obtain ⟨g, os, hrun, -⟩ := Run.run_progress_along (I := fun _ : Gateway => True)
      (fun g root _ hroot => by
        obtain ⟨g', os, hrecv⟩ := DevMessage.recv_eq hroot g
        exact ⟨g', os, hrecv, trivial⟩)
      trivial (Run.along_of_forall h (Gateway.load t))
    exact ⟨g, os, hrun⟩

/-- A device of the table registers again with another model, and one that is not there goes. -/
theorem map_agrees_with_table_two :
    ∃ g os, Run.run Gateway.recv (.load ⟨[(['d'], ['m'])], by decide, by decide⟩)
      [.object [(strCommand, .string strDispatch), (strType, .string RecvType.register.text),
          (strData, .array [.object [(strDeviceId, .string ['d']), (strModelId, .string ['n'])]])],
        .object [(strCommand, .string strReport), (strType, .string RecvType.delete.text),
          (strData, .array [.object [(strDeviceId, .string ['e'])]])]] = some (g, os) := by
  refine (map_agrees_with_table _ _).2 ?_
  rintro root hroot
  rcases mem_cons.mp hroot with rfl | hroot
  · refine ⟨⟨_, rfl⟩, ⟨.register, _, rfl, rfl, rfl, fun d hd => ?_⟩⟩
    obtain rfl := mem_singleton.mp hd
    refine ⟨⟨_, rfl, by decide⟩, fun _ v hv => ⟨['n'], ?_, by decide⟩, fun h => (by cases h)⟩
    exact (some.inj hv).symm
  · obtain rfl := mem_singleton.mp hroot
    refine ⟨⟨_, rfl⟩, ⟨.delete, _, rfl, rfl, rfl, fun d hd => ?_⟩⟩
    obtain rfl := mem_singleton.mp hd
    exact ⟨⟨_, rfl, by decide⟩, fun h => (by cases h), fun h => (by cases h)⟩

end Honyar.Hylink
