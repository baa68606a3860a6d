import Honyar.TyZigbee.Process

/-!
# The devices the gateway lists

A message of type `DevsInfo` lists devices, each of which is taken into the map as it is listed.
What holds of the map and is kept by each of them holds after the message.
-/

namespace Honyar.TyZigbee

open Faults

/-- A message whose type is `DevsInfo`. -/
structure DevsInfoMessage where
  root : Json
  type : root.getObjectItem Hylink.strType = some (.string strDevsInfo)

/-- What an element of `DevsInfo` lists: a device id and a model id. -/
def listed (arraySub : Json) : Option (CText × CText) := do
  let ModelId ← (← arraySub.getObjectItem Hylink.strModelId).valuestring?
  let DeviceId ← (← arraySub.getObjectItem Hylink.strDeviceId).valuestring?
  return (DeviceId, ModelId)

/-- The devices a message lists. -/
def DevsInfoMessage.devices (m : DevsInfoMessage) : List (CText × CText) :=
  ((m.root.getObjectItem Hylink.strData).elim [] Json.children).filterMap listed

/-- A device is taken into the map as it is listed. -/
def Process.list (s : Process) (r : CText × CText) (calls : List ZigbeeCall) : Process :=
  { s with hyMap := hylinkListAdd s.hyMap ⟨r.1, r.2, [], 0, 0⟩, calls := calls }

theorem newDev_eq_ok {devId modelId version : CText} {d : HylinkDev}
    (h : newDev devId modelId version = .ok d) : d = ⟨devId, modelId, version, 0, 0⟩ := by
  obtain ⟨-, h⟩ := strcpy_bind_eq_ok.mp h
  obtain ⟨-, h⟩ := strcpy_bind_eq_ok.mp h
  obtain ⟨-, h⟩ := strcpy_bind_eq_ok.mp h
  exact (Except.ok.inj h).symm

theorem legible_newDev (devId modelId version : CText) : Legible (newDev devId modelId version) :=
  (legible_strcpy _ _).bind fun _ _ _ => (legible_strcpy _ _).bind fun _ _ _ =>
    (legible_strcpy _ _).bind fun _ _ _ => trivial

variable {profiles : List ZigbeeModel} {I : Process → Prop} {s : Process}

theorem recvDevsInfo_spares (hs : I s) {d : Json}
    (hlist : ∀ s r calls, I s → listed d = some r → I (s.list r calls)) :
    Spares Dangling I (recvDevsInfo s d) := by
  unfold recvDevsInfo
  split
  next modelidJson devidJson hmodel hdev =>
    refine (legible_valuestring devidJson).bind fun DeviceId hid _ => ?_
    refine (legible_valuestring modelidJson).bind fun ModelId hm _ => ?_
    refine (legible_newDev _ _ _).bind fun dev hnew _ => ?_
    obtain rfl := newDev_eq_ok hnew
    have hrow : listed d = some (DeviceId, ModelId) := by
      simp [listed, hmodel, hdev, valuestring_eq_ok.mp hid, valuestring_eq_ok.mp hm]
    exact hlist s _ _ hs hrow
  · exact hs

theorem recvElements_devsInfo_spares (hs : I s) {ds : List Json}
    (hlist : ∀ s r calls, I s → r ∈ ds.filterMap listed → I (s.list r calls)) :
    Spares Dangling I (recvElements profiles .devsInfo s ds) := by
  induction ds generalizing s with
  | nil => exact hs
  | cons d ds ih =>
    have hd : Spares Dangling I (recvDevsInfo s d) :=
      recvDevsInfo_spares hs fun s r calls hs hr =>
        hlist s r calls hs (List.mem_filterMap.mpr ⟨d, List.mem_cons_self, hr⟩)
    rw [recvElements, recvElement]
    cases hrecv : recvDevsInfo s d with
    | error e =>
      rw [hrecv] at hd
      exact hd
    | ok s' =>
      refine ih (hd.of_ok hrecv) fun s r calls hs hr => hlist s r calls hs ?_
      obtain ⟨d', hd', hr⟩ := List.mem_filterMap.mp hr
      exact List.mem_filterMap.mpr ⟨d', List.mem_cons_of_mem d hd', hr⟩

theorem DevsInfoMessage.spares (m : DevsInfoMessage) (hs : I s)
    (hlist : ∀ s, ∀ r ∈ m.devices, ∀ calls, I s → I (s.list r calls)) :
    Spares Dangling I (hylinkRecvJson profiles s m.root) := by
  rw [hylinkRecvJson]
  split
  · exact hs
  next Command _ =>
    refine (legible_valuestring Command).bind fun command _ _ => ?_
    split
    · rw [m.type]
      cases hdata : m.root.getObjectItem Hylink.strData with
      | none => exact hs
      | some Data =>
        refine recvElements_devsInfo_spares hs fun s r calls hs hr => hlist s r ?_ calls hs
        rw [DevsInfoMessage.devices, hdata]
        exact hr
    · exact hs

end Honyar.TyZigbee
