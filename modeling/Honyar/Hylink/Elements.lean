import Honyar.Hylink.Database
import Honyar.Lib.Carried

/-!
# The elements of a message to the gateway

`hyDevId` in `hylinkRecvJson` lives as long as the loop over the elements, so that an element
without a device id is about the device of the element before.  Here the map and the table are
seen as what they hold for an id, and a message about devices as a loop over elements that
change what is held for one id.
-/

namespace Honyar.Hylink

open Carried Option Gateway

/-- What the map and the table hold for an id. -/
abbrev DevEntry := Option HylinkDev × Option DevRow

def Gateway.view (g : Gateway) (id : CText) : DevEntry :=
  (hylinkListGet g.devs id, g.rows.find? fun r => r.1 = id)

/-- The device id an element has itself, if it can be copied. -/
def ownDevId (d : Json) : Option (Option CText) :=
  match d.getObjectItem strDeviceId with
  | none => some none
  | some _ => (getStrForJson d strDeviceId devIdLen []).map some

/-- What an element leaves for the id it is about. -/
def entryAfter (type : RecvType) (devId : CText) (e : DevEntry) (d : Json) : Option DevEntry :=
  match type, e.1 with
  | .register, _ => do
    let modelId ← getStrForJson d strModelId devIdLen []
    return (some ⟨devId, modelId, 0⟩, some (devId, modelId))
  | .onoff, some hyDev => do
    let online ← getByteForJson d strValue hyDev.online
    return (some { hyDev with online := online }, e.2)
  | .unregister, some _ | .delete, some _ => some (none, none)
  | _, _ => some e

/-- A message that is not a heartbeat, its type, and its elements. -/
structure IsMessage (root : Json) (command : CText) (type : RecvType) (ds : List Json) : Prop where
  command : root.getObjectItem strCommand = some (.string command)
  type : (root.getObjectItem strType).bind (fun t => t.valuestring?.bind findRecvType) = some type
  data : (root.getObjectItem strData).map Json.children = some ds

/-- The message with these elements. -/
def deviceMessage (command : CText) (type : RecvType) (ds : List Json) : Json :=
  .object [(strCommand, .string command), (strType, .string type.text), (strData, .array ds)]

theorem deviceMessage_isMessage (command : CText) (type : RecvType) (ds : List Json) :
    IsMessage (deviceMessage command type ds) command type ds where
  command := rfl
  type := by cases type <;> rfl
  data := rfl

/-- What is held after a message. -/
def Gateway.recvView (g : Gateway) (root : Json) : Option (CText → DevEntry) :=
  (g.recv root).map fun r => r.1.view

/-- What is held after the elements of a message, each in a message of its own. -/
def Gateway.recvEach (g : Gateway) (command : CText) (type : RecvType) (ds : List Json) :
    Option (CText → DevEntry) :=
  (ds.foldlM (fun (g : Gateway) d => (g.recv (deviceMessage command type [d])).map Prod.fst) g).map
    Gateway.view

/-! ## A message is a loop over its elements -/

theorem keyOf_ownDevId (k : CText) (d : Json) :
    keyOf ownDevId k d = getStrForJson d strDeviceId devIdLen k := by
  unfold keyOf ownDevId
  cases hd : d.getObjectItem strDeviceId with
  | none => simp [getStrForJson, hd]
  | some v =>
    simp only [getStrForJson, hd, map_map]
    rw [show (fun o => o.getD k) ∘ some = (id : CText → CText) from rfl, map_id]
    rfl

theorem hylinkListGet_del (devs : List HylinkDev) (k id : CText) :
    hylinkListGet (hylinkListDel devs k) id = if k = id then none else hylinkListGet devs id :=
  Store.find?_remove k id devs

theorem hylinkListGet_addDev (devs : List HylinkDev) (k model id : CText) :
    hylinkListGet (addDevToHyList devs k model) id =
      if k = id then some ⟨k, model, 0⟩ else hylinkListGet devs id :=
  @Store.find?_replace _ _ _ HylinkDev.DeviceId ⟨k, model, 0⟩ id devs

theorem hylinkListGet_online (devs : List HylinkDev) (k : CText) (online : BitVec 8) (id : CText) :
    hylinkListGet (devs.map fun d => if d.DeviceId = k then { d with online := online } else d) id =
      if k = id then (hylinkListGet devs id).map fun d => { d with online := online }
      else hylinkListGet devs id := by
  have hid (d : HylinkDev) :
      (if d.DeviceId = k then { d with online := online } else d).DeviceId = d.DeviceId := by
    split <;> rfl
  simp only [hylinkListGet, List.find?_map, Function.comp_def, hid]
  cases hd : devs.find? fun d => d.DeviceId = id with
  | none => simp
  | some d =>
    have hdid : d.DeviceId = id := by simpa using List.find?_some hd
    simp only [map_some, hdid, eq_comm (a := id)]
    split <;> rfl

theorem Gateway.view_update {g g' : Gateway} {k : CText} {e : DevEntry} (hk : g'.view k = e)
    (hrest : ∀ id, id ≠ k → g'.view id = g.view id) : Function.update g.view k e = g'.view := by
  funext id
  by_cases hid : id = k
  · rw [hid, Function.update_self, hk]
  · rw [Function.update_of_ne hid, hrest id hid]

variable {type : RecvType}

/-- An element of a message about devices changes what is held for one id. -/
theorem recvElement_view (htype : type.ofDevice = true) (commandDir : Bool) (root d : Json)
    (g : Gateway) (k : CText) :
    (recvElement type commandDir root d ⟨g.devs, k⟩ = none ∧
      act (entryAfter type) g.view k d = none) ∨
    ∃ devs os, recvElement type commandDir root d ⟨g.devs, k⟩ = some (⟨devs, k⟩, some os) ∧
      act (entryAfter type) g.view k d =
        some (Gateway.view ⟨devs, os.foldl (fun rows o => o.onRows rows) g.rows⟩) := by
  cases type with
  | register =>
    cases hm : getStrForJson d strModelId devIdLen [] with
    | none => exact .inl ⟨by simp [recvElement, hm], by simp [act, entryAfter, hm]⟩
    | some modelId =>
      refine .inr ⟨_, _, by simp only [recvElement, hm]; rfl, ?_⟩
      simp only [act, entryAfter, hm]
      refine congrArg some (view_update ?_ fun id hid => ?_)
      · simp [view, hylinkListGet_addDev, Sent.onRows, insertDatabse,
          Store.find?_replace]
      · simp [view, hylinkListGet_addDev, Sent.onRows, insertDatabse,
          Store.find?_replace, hid.symm]
  | onoff =>
    cases hdev : hylinkListGet g.devs k with
    | none =>
      refine .inr ⟨_, _, by simp only [recvElement, hdev]; rfl, ?_⟩
      simp only [act, entryAfter, view, hdev]
      exact congrArg some (view_update (by simp [view, hdev]) fun _ _ => rfl)
    | some hyDev =>
      cases hb : getByteForJson d strValue hyDev.online with
      | none =>
        exact .inl ⟨by simp [recvElement, hdev, hb],
          by simp [act, entryAfter, view, hdev, hb]⟩
      | some online =>
        refine .inr ⟨_, _, by simp only [recvElement, hdev, hb]; rfl, ?_⟩
        simp only [act, entryAfter, view, hdev, hb]
        refine congrArg some (view_update ?_ fun id hid => ?_)
        · simp [view, hylinkListGet_online, hdev]
        · simp [view, hylinkListGet_online, hid.symm]
  | unregister | delete =>
    cases hdev : hylinkListGet g.devs k with
    | none =>
      refine .inr ⟨_, _, by simp only [recvElement, hdev]; rfl, ?_⟩
      simp only [act, entryAfter, view, hdev]
      exact congrArg some (view_update (by simp [view, hdev]) fun _ _ => rfl)
    | some hyDev =>
      refine .inr ⟨_, _, by simp only [recvElement, hdev]; rfl, ?_⟩
      simp only [act, entryAfter, view, hdev]
      refine congrArg some (view_update ?_ fun id hid => ?_)
      · simp [view, hylinkListGet_del, Sent.onRows, deleteDatabse, Store.find?_remove]
      · simp [view, hylinkListGet_del, Sent.onRows, deleteDatabse, Store.find?_remove,
          hid.symm]
  | add | devsinfo | localScene => cases htype

theorem recvElements_view (htype : type.ofDevice = true) (commandDir : Bool) (root : Json)
    (g : Gateway) (k : CText) (ds : List Json) :
    (recvElements type commandDir root ⟨g.devs, k⟩ ds).map (fun r =>
        Gateway.view ⟨r.1.devs, r.2.1.foldl (fun rows o => o.onRows rows) g.rows⟩) =
      loop ownDevId (entryAfter type) k g.view ds := by
  induction ds generalizing g k with
  | nil => rfl
  | cons d ds ih =>
    rw [loop_cons, keyOf_ownDevId]
    cases hk : getStrForJson d strDeviceId devIdLen k with
    | none => simp [recvElements, hk]
    | some k' =>
      obtain ⟨hnone, hact⟩ | ⟨devs, os, hsome, hact⟩ :=
        recvElement_view htype commandDir root d g k'
      · simp [recvElements, hk, hnone, hact]
      · rw [bind_some, hact, bind_some, ← ih]
        simp only [recvElements, hk, hsome, bind_eq_bind, bind_some]
        cases recvElements type commandDir root ⟨devs, k'⟩ ds with
        | none => rfl
        | some r => simp [List.foldl_append]

theorem IsMessage.recvView_eq {root : Json} {command : CText} {ds : List Json}
    (h : IsMessage root command type ds) (htype : type.ofDevice = true)
    (hcommand : command ≠ strTcpBeatHeart) (g : Gateway) :
    g.recvView root = loop ownDevId (entryAfter type) [] g.view ds := by
  obtain ⟨Data, hData, rfl⟩ := map_eq_some_iff.mp h.data
  have hsilent (rows : List DevRow) : (if command = strReport then [Sent.sceneReport root]
      else []).foldl (fun rows o => o.onRows rows) rows = rows := by
    split <;> rfl
  rw [← recvElements_view htype (decide (command = strDispatch)) root]
  simp only [recvView, recv, hylinkRecvJson, h.command, h.type, hData,
    Json.valuestring?_string, bind_eq_bind, bind_some, hcommand, if_false]
  cases recvElements type (decide (command = strDispatch)) root ⟨g.devs, []⟩ Data.children with
  | none => rfl
  | some r =>
    simp only [pure_def, bind_some, map_some, List.foldl_append, hsilent]

theorem Gateway.recvEach_eq (htype : type.ofDevice = true) {command : CText}
    (hcommand : command ≠ strTcpBeatHeart) (g : Gateway) (ds : List Json) :
    g.recvEach command type ds = ds.foldlM (alone ownDevId (entryAfter type) []) g.view := by
  induction ds generalizing g with
  | nil => rfl
  | cons d ds ih =>
    have hone := (deviceMessage_isMessage command type [d]).recvView_eq htype hcommand g
    simp only [loop, bind_eq_bind, bind_fun_some] at hone
    rw [List.foldlM_cons, alone, bind_eq_bind, bind_eq_bind, ← hone]
    simp only [recvEach, List.foldlM_cons, recvView]
    cases g.recv (deviceMessage command type [d]) with
    | none => rfl
    | some r => exact ih r.1

/-! ## Elements without a device id -/

/-- No element without a device id, behind one with an id that is not empty, changes what is held
for that id or for the empty one. -/
def Gateway.OnOwn (g : Gateway) (type : RecvType) (ds : List Json) : Prop :=
  Carried.OnOwn ownDevId (entryAfter type) [] [] g.view ds

theorem Gateway.recvView_eq_recvEach_iff (htype : type.ofDevice = true) {command : CText}
    (hcommand : command ≠ strTcpBeatHeart) (g : Gateway) (ds : List Json) :
    (∀ front, front <+: ds → ∀ root, IsMessage root command type front →
      g.recvView root = g.recvEach command type front) ↔ g.OnOwn type ds := by
  rw [Gateway.OnOwn, ← loop_eq_alone_iff]
  refine forall₂_congr fun front _ => ?_
  rw [recvEach_eq htype hcommand]
  constructor
  · intro h
    have hfront := deviceMessage_isMessage command type front
    rw [← hfront.recvView_eq htype hcommand, h _ hfront]
  · intro h root hroot
    rw [hroot.recvView_eq htype hcommand, h]

end Honyar.Hylink
