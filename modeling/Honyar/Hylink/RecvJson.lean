import Honyar.LocalScene.Dispatch

/-!
# Messages that arrive

`hylinkRecvJson` (hylinkRecv.c) reads a message, looks up its type, and works
through the elements of its `Data`.  A message for the scene engine goes to
`scene_query` (scene.c) by way of `scene_adapter_cmd`, as text; that printing a
value and parsing it again gives the value back is taken from cJSON.

A call that copies a text into an array too small for it, or reads the text of
a value that has none, is `none`.
-/

namespace Honyar.Hylink

open LocalScene Option

/-- `HylinkDev`. -/
structure HylinkDev where
  DeviceId : CText
  ModelId : CText
  online : BitVec 8
deriving DecidableEq

/-- `hylink_recv_type`, in its order. -/
inductive RecvType where
  | add
  | register
  | unregister
  | onoff
  | delete
  | devsinfo
  | localScene
deriving DecidableEq, Repr

def RecvType.text : RecvType → CText
  | add => "Add".toList
  | register => "Register".toList
  | unregister => "UnRegister".toList
  | onoff => "OnOff".toList
  | delete => "Delete".toList
  | devsinfo => "DevsInfo".toList
  | localScene => "LocalScene".toList

/-- `findStrIndex(.., hylink_recv_type, ..)`. -/
def findRecvType (t : CText) : Option RecvType :=
  [RecvType.add, .register, .unregister, .onoff, .delete, .devsinfo, .localScene].find?
    fun r => r.text == t

def strCommand : CText := "Command".toList
def strReport : CText := "Report".toList
def strDispatch : CText := "Dispatch".toList
def strTcpBeatHeart : CText := "TcpBeatHeart".toList
def strType : CText := "Type".toList
def strData : CText := "Data".toList
def strDeviceId : CText := "DeviceId".toList
def strModelId : CText := "ModelId".toList
def strKey : CText := "Key".toList
def strValue : CText := "Value".toList

/-- What a message sets off outside the list of devices. -/
inductive Sent where
  /-- `hylinkReportHeart`. -/
  | heart
  /-- `runCmdCb(&cmd, CMD_NETWORK_ACCESS_TIME)`. -/
  | networkAccess (cmd : BitVec 8)
  /-- `insertDatabse`. -/
  | insert (DeviceId ModelId : CText)
  /-- `deleteDatabse`. -/
  | delete (DeviceId : CText)
  /-- `hylinkSendFunc` with the devices, as a command or as a report. -/
  | devsInfo (command : Bool) (devs : List HylinkDev)
  /-- `scene_adapter_report`. -/
  | sceneReport (message : Json)
  /-- `scene_adapter_cmd`. -/
  | sceneCmd (message : Json)

/-- `char hyDevId[33]`, `char hyModelId[33]`. -/
def devIdLen : Nat := 33

/-- `getStrForJson` into an array of `len` bytes. -/
def getStrForJson (json : Json) (src : CText) (len : Nat) (dst : CText) : Option CText :=
  match json.getObjectItem src with
  | none => some dst
  | some obj => do
    let t ← obj.valuestring?
    if t.length < len then some t else none

/-- `getByteForJson`. -/
def getByteForJson (json : Json) (src : CText) (dst : BitVec 8) : Option (BitVec 8) :=
  match json.getObjectItem src with
  | none => some dst
  | some obj => obj.valuestring?.map fun t => BitVec.ofInt 8 (CText.atoi t)

/-- `LONG_MAX`, of a 32-bit `long`. -/
def longMax : Int := 2 ^ 31 - 1

/-- `strToNum(str, 10, ..)`; a text out of range leaves the number unset. -/
def strToNum (str : CText) : Option Int :=
  let n := CText.atoi str
  if -longMax - 1 ≤ n ∧ n ≤ longMax then some n else none

/-- The devices without one id. -/
def hylinkListDel (devs : List HylinkDev) (key : CText) : List HylinkDev :=
  devs.filter (·.DeviceId ≠ key)

/-- `hylinkListGet`. -/
def hylinkListGet (devs : List HylinkDev) (key : CText) : Option HylinkDev :=
  devs.find? (·.DeviceId = key)

/-- `addDevToHyList`: a device of that id is replaced. -/
def addDevToHyList (devs : List HylinkDev) (devId modelId : CText) : List HylinkDev :=
  hylinkListDel devs devId ++ [⟨devId, modelId, 0⟩]

/-- The devices and `hyDevId`, which keeps what the last element put in it. -/
structure RecvState where
  devs : List HylinkDev
  hyDevId : CText

/-- What the `switch` does with an element; `none` in the second place is
`goto fail`. -/
def recvElement (type : RecvType) (commandDir : Bool) (root arraySub : Json) (s : RecvState) :
    Option (RecvState × Option (List Sent)) :=
  match type with
  | .add =>
    match arraySub.getObjectItem strKey, arraySub.getObjectItem strValue with
    | some _, some value =>
      if commandDir then do
        let num ← strToNum (← value.valuestring?)
        return (s, some [.networkAccess (BitVec.ofInt 8 num)])
      else return (s, some [])
    | _, _ => return (s, none)
  | .register => do
    let hyModelId ← getStrForJson arraySub strModelId devIdLen []
    return ({ s with devs := addDevToHyList s.devs s.hyDevId hyModelId },
      some [.insert s.hyDevId hyModelId])
  | .onoff =>
    match hylinkListGet s.devs s.hyDevId with
    | none => return (s, some [])
    | some hyDev => do
      let online ← getByteForJson arraySub strValue hyDev.online
      return ({ s with
        devs := s.devs.map fun d =>
          if d.DeviceId = s.hyDevId then { d with online := online } else d }, some [])
  | .unregister | .delete =>
    match hylinkListGet s.devs s.hyDevId with
    | none => return (s, some [])
    | some _ =>
      return ({ s with devs := hylinkListDel s.devs s.hyDevId }, some [.delete s.hyDevId])
  | .devsinfo => return (s, some [.devsInfo (!commandDir) s.devs])
  | .localScene => return (s, some [.sceneCmd root])

/-- The loop over the elements of `Data`, and whether it ran to its end. -/
def recvElements (type : RecvType) (commandDir : Bool) (root : Json) :
    RecvState → List Json → Option (RecvState × List Sent × Bool)
  | s, [] => some (s, [], true)
  | s, d :: ds => do
    let hyDevId ← getStrForJson d strDeviceId devIdLen s.hyDevId
    let (s, sent) ← recvElement type commandDir root d { s with hyDevId := hyDevId }
    match sent with
    | none => return (s, [], false)
    | some os =>
      let (s, rest, ok) ← recvElements type commandDir root s ds
      return (s, os ++ rest, ok)

/-- `hylinkRecvJson`, from the value of the text on: the devices, what is set
off, and whether it returns 0. -/
def hylinkRecvJson (devs : List HylinkDev) (root : Json) :
    Option (List HylinkDev × List Sent × Bool) :=
  match root.getObjectItem strCommand with
  | none => return (devs, [], false)
  | some Command => do
    let command ← Command.valuestring?
    if command = strTcpBeatHeart then return (devs, [.heart], true)
    let reported := if command = strReport then [Sent.sceneReport root] else []
    match (root.getObjectItem strType).bind fun t => t.valuestring?.bind findRecvType,
      root.getObjectItem strData with
    | some type, some Data =>
      let (s, os, ok) ← recvElements type (command = strDispatch) root ⟨devs, []⟩ Data.children
      return (s.devs, reported ++ os, ok)
    | _, _ => return (devs, reported, false)

/-! ## Messages for the scene engine -/

/-- `TYPE_MAX_LEN`, `COMMAND_MAX_LEN`. -/
def typeMaxLen : Nat := 16

/-- `scene_query`: the array it hands to `hyScene_Dispatch`; none when it turns
the message away. -/
def sceneQuery (root : Json) : Option (List Json) := do
  let acType ← Json.valueGet strType [] typeMaxLen root
  if CText.strncmpEq typeMaxLen acType RecvType.localScene.text then
    let acCommand ← Json.valueGet strCommand [] typeMaxLen root
    match root.getObjectItem strData with
    | some (.array pstDataArry) =>
      if CText.strncmpEq typeMaxLen acCommand strDispatch then some pstDataArry else none
    | _ => none
  else none

/-- The arrays `hyScene_Dispatch` executes, one for each `scene_adapter_cmd`. -/
def dispatched (os : List Sent) : List (List Json) :=
  os.filterMap fun
    | .sceneCmd message => sceneQuery message
    | _ => none

/-- The element has no device id, or one that fits `hyDevId`. -/
def DevIdFits (d : Json) : Prop :=
  match d.getObjectItem strDeviceId with
  | none => True
  | some (.string t) => t.length < devIdLen
  | some _ => False

instance DevIdFits.instDecidable (d : Json) : Decidable (DevIdFits d) := by
  unfold DevIdFits
  split <;> infer_instance

theorem getStrForJson_isSome_iff (d : Json) (dst : CText) :
    (getStrForJson d strDeviceId devIdLen dst).isSome ↔ DevIdFits d := by
  unfold getStrForJson DevIdFits
  cases hd : d.getObjectItem strDeviceId with
  | none => simp
  | some v =>
    cases v with
    | string t =>
      by_cases ht : t.length < devIdLen <;> simp [Json.valuestring?, ht]
    | _ => simp [Json.valuestring?]

/-- The loop sends a message for the scene engine once for every element. -/
theorem recvElements_localScene (root : Json) (s : RecvState) (ds : List Json) :
    if ∀ d ∈ ds, DevIdFits d then
      ∃ s', recvElements .localScene true root s ds =
        some (s', List.replicate ds.length (.sceneCmd root), true) ∧ s'.devs = s.devs
    else recvElements .localScene true root s ds = none := by
  induction ds generalizing s with
  | nil => simp [recvElements]
  | cons d ds ih =>
    cases hid : getStrForJson d strDeviceId devIdLen s.hyDevId with
    | none =>
      have hno : ¬ DevIdFits d := by
        rw [← getStrForJson_isSome_iff d s.hyDevId, hid]
        exact Bool.false_ne_true
      rw [if_neg fun h => hno (h d List.mem_cons_self)]
      simp [recvElements, hid]
    | some hyDevId =>
      have hfits : DevIdFits d := by
        rw [← getStrForJson_isSome_iff d s.hyDevId, hid]
        rfl
      have hrest := ih { s with hyDevId := hyDevId }
      by_cases hall : ∀ d ∈ ds, DevIdFits d
      · rw [if_pos hall] at hrest
        obtain ⟨s', hs', hdevs⟩ := hrest
        rw [if_pos (List.forall_mem_cons.mpr ⟨hfits, hall⟩)]
        refine ⟨s', ?_, hdevs⟩
        simp [recvElements, recvElement, hid, hs', List.replicate_succ]
      · rw [if_neg hall] at hrest
        rw [if_neg fun h => hall (List.forall_mem_cons.mp h).2]
        simp [recvElements, recvElement, hid, hrest]

/-- A dispatch message for the scene engine with these operations. -/
structure SceneMessage (root : Json) (ds : List Json) : Prop where
  command : root.getObjectItem strCommand = some (.string strDispatch)
  type : root.getObjectItem strType = some (.string RecvType.localScene.text)
  data : root.getObjectItem strData = some (.array ds)

theorem SceneMessage.sceneQuery_eq {root : Json} {ds : List Json} (h : SceneMessage root ds) :
    sceneQuery root = some ds := by
  have htype : Json.valueGet strType [] typeMaxLen root =
      some (CText.strncpy typeMaxLen RecvType.localScene.text) := by
    simp only [Json.valueGet, h.type]
  have hcommand : Json.valueGet strCommand [] typeMaxLen root =
      some (CText.strncpy typeMaxLen strDispatch) := by
    simp only [Json.valueGet, h.command]
  have hsame : CText.strncmpEq typeMaxLen (CText.strncpy typeMaxLen RecvType.localScene.text)
      RecvType.localScene.text = true := by decide
  have hdispatch : CText.strncmpEq typeMaxLen (CText.strncpy typeMaxLen strDispatch)
      strDispatch = true := by decide
  simp [sceneQuery, htype, hcommand, hsame, hdispatch, h.data]

theorem SceneMessage.hylinkRecvJson_eq {root : Json} {ds : List Json} (h : SceneMessage root ds)
    (devs : List HylinkDev) :
    hylinkRecvJson devs root =
      (recvElements .localScene true root ⟨devs, []⟩ ds).map fun r => (r.1.devs, r.2.1, r.2.2) := by
  have hbeat : ¬ strDispatch = strTcpBeatHeart := by decide
  have hreport : ¬ strDispatch = strReport := by decide
  have hfind : findRecvType RecvType.localScene.text = some .localScene := by decide
  simp only [hylinkRecvJson, h.command, h.type, h.data, Json.valuestring?, bind_eq_bind,
    bind_some, hbeat, if_false, hreport, hfind, decide_true, Json.children, List.nil_append,
    pure_def]
  cases recvElements .localScene true root ⟨devs, []⟩ ds <;> rfl

/-- The operations of a message for the scene engine are executed once, in one
call of `hyScene_Dispatch`, exactly when the message has one operation (and that
one's device id, if it has any, fits its array): the message is submitted once
for every element. -/
theorem sceneMessage_dispatched_once_iff (devs : List HylinkDev) (root : Json) (ds : List Json)
    (h : SceneMessage root ds) :
    (∃ devs' os, hylinkRecvJson devs root = some (devs', os, true) ∧ dispatched os = [ds]) ↔
      ds.length = 1 ∧ ∀ d ∈ ds, DevIdFits d := by
  have hloop := recvElements_localScene root ⟨devs, []⟩ ds
  rw [h.hylinkRecvJson_eq]
  by_cases hall : ∀ d ∈ ds, DevIdFits d
  · rw [if_pos hall] at hloop
    obtain ⟨s', hs', hdevs⟩ := hloop
    have hsent : dispatched (List.replicate ds.length (.sceneCmd root)) =
        List.replicate ds.length ds := by
      simp [dispatched, h.sceneQuery_eq]
    rw [hs']
    constructor
    · rintro ⟨devs', os, heq, hos⟩
      simp only [map_some, some.injEq, Prod.mk.injEq] at heq
      rw [← heq.2.1, hsent] at hos
      have hlen := congrArg List.length hos
      rw [List.length_replicate] at hlen
      exact ⟨hlen, hall⟩
    · rintro ⟨hlen, -⟩
      refine ⟨s'.devs, _, rfl, ?_⟩
      rw [hsent, hlen]
      rfl
  · rw [if_neg hall] at hloop
    rw [hloop]
    constructor
    · rintro ⟨devs', os, heq, -⟩
      cases heq
    · rintro ⟨-, hfits⟩
      exact absurd hfits hall

namespace Sample

/-- A message with one operation, or with more. -/
def sceneMessage (ds : List Json) : Json :=
  .object [(strCommand, .string strDispatch), (strType, .string RecvType.localScene.text),
    (strData, .array ds)]

/-- A scene is executed. -/
def execScene : Json :=
  .object [(jsonKeyOperation, .string Operation.execScene.text), ("Id".toList, .string ['1'])]

theorem sceneMessage_spec (ds : List Json) : SceneMessage (sceneMessage ds) ds := ⟨rfl, rfl, rfl⟩

end Sample

open Sample in
/-- A message with one operation. -/
theorem sceneMessage_dispatched_once_single :
    ∃ devs' os, hylinkRecvJson [] (sceneMessage [execScene]) = some (devs', os, true) ∧
      dispatched os = [[execScene]] :=
  (sceneMessage_dispatched_once_iff [] _ _ (sceneMessage_spec _)).mpr
    ⟨rfl, by decide⟩

open Sample in
/-- A message with two operations is executed twice. -/
theorem sceneMessage_dispatched_twice :
    ¬ ∀ (devs : List HylinkDev) (root : Json) (ds : List Json), SceneMessage root ds → ds ≠ [] →
      ∃ devs' os, hylinkRecvJson devs root = some (devs', os, true) ∧ dispatched os = [ds] := by
  intro h
  obtain ⟨devs', os, heq, hos⟩ :=
    h [] _ [execScene, execScene] (sceneMessage_spec _) (List.cons_ne_nil _ _)
  have hsent : hylinkRecvJson [] (sceneMessage [execScene, execScene]) =
      some ([], List.replicate 2 (.sceneCmd (sceneMessage [execScene, execScene])), true) := rfl
  rw [hsent, some.injEq, Prod.mk.injEq, Prod.mk.injEq] at heq
  rw [← heq.2.1] at hos
  have hlen := congrArg List.length hos
  revert hlen
  decide

end Honyar.Hylink
