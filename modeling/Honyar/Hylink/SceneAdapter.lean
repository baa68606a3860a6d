import Honyar.Hylink.Database
import Honyar.LocalScene.DevUnregister
import Honyar.LocalScene.SceneExec

/-!
# The gateway and its scenes

What `hylinkRecvJson` hands to the scene engine: `scene_adapter_cmd` goes through
`scene_query` and `hyScene_Dispatch` to the handlers of scene.c, `scene_adapter_report`
through `scene_event` to the events and deletions of the scene list.  With the passes of the
clock they are all that happens to the gateway.

Whatever messages come, in any order and with passes in between, the table of the devices has
those of the map, and the scenes and the hash table agree, as long as no memory is touched that
may not be and the panels of a scene are not unbound all at once, which leaves them in its list.
-/

namespace Honyar.Hylink

open CText LocalScene Option List

/-! ## Commands -/

/-- `hyScene_Get`, `hyScene_Get_Bind`, `hyScene_Get_Cond` and `hyScene_Get_Action` only read:
what they return and the array they fill. -/
abbrev Getters := Operation → Json → LocalScene.Gateway → Code × List Json

def execCode : ExecAnswer → Code
  | .noErr => .noErr
  | .jsonFormatErr => .jsonFormatErr
  | .notFoundErr => .notFoundErr
  | .generalErr => ⟨-1, by decide⟩

/-- What an operation makes of the scenes. -/
def handleList (iTime : Int) (o : Operation) (pstData : Json) (x : SceneList) :
    Option (SceneList × Code) :=
  match o with
  | .delScene => hySceneDel x pstData
  | .addCond => (hySceneAddCond x pstData).map fun r => (r.1, r.2.code)
  | .delCond => hySceneDelCond x pstData
  | .bindScene => hySceneBind x pstData
  | .unbindScene => hySceneUnbind x pstData
  | .execScene => (hySceneExec x iTime pstData).map fun r => (r.list, execCode r.answer)
  | _ => some (x, .noErr)

/-- What an operation makes of the scenes and their actions. -/
def handle (get : Getters) (iTime : Int) (o : Operation) (pstData : Json)
    (g : LocalScene.Gateway) : Option (LocalScene.Gateway × Code × List Json) :=
  match o with
  | .addScene => let r := g.hySceneAdd pstData; some (r.1, r.2.code, [])
  | .addAction => let r := g.hySceneAddAction pstData; some (r.1, r.2.code, [])
  | .delAction => let r := g.hySceneDelAction pstData; some (r.1, r.2, [])
  | .getScene | .getAction | .getCond | .getBindScene => some (g, get o pstData g)
  | o => (handleList iTime o pstData g.list).map fun r => ({ g with list := r.1 }, r.2, [])

/-- The handlers; `none` once memory was touched that may not be. -/
def handlers (get : Getters) (iTime : Int) : Handlers (Option LocalScene.Gateway) where
  run o pstData s :=
    match s.bind (handle get iTime o pstData) with
    | none => ⟨none, 0, []⟩
    | some r => ⟨some r.1, r.2.1, r.2.2⟩
  iRet_nonpos o pstData s := by
    split
    next => exact Int.le_refl 0
    next r _ => exact r.2.1.2

/-! ## Reports -/

/-- The scenes with their actions, and the list of scene_sync.c. -/
structure Scenes where
  gateway : LocalScene.Gateway
  sync : SyncList

namespace Scenes

/-- There are none at the start. -/
def init : Scenes := ⟨⟨.init, fun _ => .new⟩, .init⟩

def engine (y : Scenes) : Engine := ⟨y.gateway.list, y.sync⟩

def withEngine (y : Scenes) (x : Engine) : Scenes :=
  ⟨⟨x.list, y.gateway.pstAction⟩, x.sync⟩

end Scenes

/-- `Data`, where it is an array. -/
def dataArray (root : Json) : List Json :=
  match root.getObjectItem strData with
  | some (.array ds) => ds
  | _ => []

/-- The event an element reports. -/
def readEvent (pstData : Json) : Option Event := do
  let acDevId ← readField "DeviceId" devIdMaxLen pstData
  let acKey ← readField "Key" keyMaxLen pstData
  let acValue ← readField "Value" valueMaxLen pstData
  return ⟨acDevId, acKey, acValue⟩

/-- An element of an `Attribute` or `Event` report. -/
def reportEvent (iTime : Int) (y : Scenes) (pstData : Json) : Option Scenes :=
  match readEvent pstData with
  | none => some y
  | some e => (sceneListEvent y.engine iTime e).map fun r => y.withEngine r.1

/-- An element of an `UnRegister` report. -/
def reportUnregister (y : Scenes) (pstData : Json) : Option Scenes :=
  match readField "DeviceId" devIdMaxLen pstData with
  | none => some y
  | some acDevId =>
    (sceneListDevUnregister y.gateway.list y.gateway.pstAction acDevId).map fun r =>
      { y with gateway := ⟨r.1, r.2⟩ }

/-- `scene_event`. -/
def sceneEvent (iTime : Int) (y : Scenes) (root : Json) : Option Scenes :=
  match Json.valueGet strType [] typeMaxLen root with
  | none => some y
  | some acType =>
    let is (t : String) : Bool := strncmpEq typeMaxLen acType t.toList
    if is "Attribute" || is "Event" then (dataArray root).foldlM (reportEvent iTime) y
    else if is "UnRegister" then (dataArray root).foldlM reportUnregister y
    else if is "ReFactory" then
      some { y with gateway := ⟨sceneListClear y.gateway.list, y.gateway.pstAction⟩ }
    else some y

/-! ## The gateway -/

/-- What `hylinkRecvJson` sets off in the scene engine. -/
def deliver (get : Getters) (iTime : Int) (y : Scenes) : Sent → Option Scenes
  | .sceneReport message => sceneEvent iTime y message
  | .sceneCmd message =>
    match sceneQuery message with
    | none => some y
    | some ds =>
      (hySceneDispatch (handlers get iTime) (some y.gateway) ds).state.map fun g =>
        { y with gateway := g }
  | _ => some y

/-- The devices with their table, and the scenes. -/
structure HyGateway where
  hub : Gateway
  scenes : Scenes

/-- The gateway as it is started. -/
def HyGateway.load (t : DevTable) : HyGateway := ⟨.load t, .init⟩

/-- A message, or what the engine does of itself. -/
inductive Input where
  | recv (iTime : Int) (root : Json)
  | pass (act : Act) (h : act.isRequest = false)

/-- One step; its outputs are what a message sets off. -/
def HyGateway.step (get : Getters) (y : HyGateway) : Input → Option (HyGateway × List Sent)
  | .recv iTime root => do
    let (hub, os) ← y.hub.recv root
    let scenes ← os.foldlM (deliver get iTime) y.scenes
    return (⟨hub, scenes⟩, os)
  | .pass act _ => (y.scenes.engine.step act).map fun r => (⟨y.hub, y.scenes.withEngine r.1⟩, [])

/-- The operation does not unbind all panels of a scene. -/
def SparesPanels (o : Operation) (pstData : Json) : Prop :=
  o = .unbindScene → ∀ t, readField "DevId" devIdMaxLen pstData = some t →
    strncmpEq devIdMaxLen t jsonValueAll = false

/-- None of the operations a message makes the gateway execute does. -/
def Input.SparesPanels (get : Getters) : Input → Prop
  | .recv iTime root => ∀ ds, sceneQuery root = some ds → ∀ s,
    ∀ p ∈ (hySceneDispatch (handlers get iTime) s ds).ran, Hylink.SparesPanels p.1 p.2
  | .pass _ _ => True

/-! ## The scenes stay indexed -/

section

variable {x x' : SceneList} {a : Nat} {pstData : Json} {iTime : Int} {c : Code}

theorem sceneListClear_indexed (hx : Indexed x) : Indexed (sceneListClear x) := by
  have hdel {k : Kind} (s : SceneInfo) (h : PtrHash) (cs : List (Cond k)) :
      (cs.foldl (fun h c => ptrHashDel h c.hashKey s.acSceneId) h).Sublist h :=
    foldl_ptrHashDel_sublist Cond.hashKey cs h
  have hrelease (s : SceneInfo) (h : PtrHash) : (s.release h).Sublist h :=
    (foldl_ptrHashDel_sublist _ _ _).trans <| (hdel s _ _).trans <| (hdel s _ _).trans <|
      (hdel s _ _).trans (hdel s _ _)
  have hsub (ns : List SceneNode) (h : PtrHash) :
      (ns.foldl (fun h n => n.stSceneInfo.release h) h).Sublist h := by
    induction ns generalizing h with
    | nil => exact Sublist.refl h
    | cons n ns ih => exact (ih _).trans (hrelease n.stSceneInfo h)
  have hnone {n : SceneNode} (hn : n ∈ (sceneListClear x).stList) : False := not_mem_nil hn
  exact {
    addrs := nodup_nil
    ids := nodup_nil
    below := fun n hn => (hnone hn).elim
    placed := fun n hn => (hnone hn).elim
    unique := ((hsub x.stList x.pHashTable).map _).nodup hx.unique
    owner := fun e he =>
      ⟨(hx.owner e ((hsub _ _).subset he)).1, fun n hn => (hnone hn).elim⟩
    filed := fun n hn => (hnone hn).elim
    sound := fun e he p hp =>
      ⟨(hx.sound e ((hsub _ _).subset he) p hp).1, fun n hn => (hnone hn).elim⟩ }

theorem foldlM_keeps {α β : Type} {I : β → Prop} {f : β → α → Option β} {as : List α} {b b' : β}
    (hf : ∀ a ∈ as, ∀ b b', I b → f b a = some b' → I b') (hi : I b)
    (h : as.foldlM f b = some b') : I b' := by
  induction as generalizing b with
  | nil => exact some.inj h ▸ hi
  | cons a as ih =>
    rw [foldlM_cons] at h
    obtain ⟨d, hd, h⟩ := bind_eq_some_iff.mp h
    exact ih (fun a ha => hf a (mem_cons_of_mem _ ha)) (hf a mem_cons_self b d hi hd) h

/-- Where the scenes are left, they are indexed. -/
def Kept {γ : Type} (r : Option (SceneList × γ)) : Prop := ∀ y ∈ r, Indexed y.1

theorem kept_some {γ : Type} (hx : Indexed x) (c : γ) : Kept (some (x, c)) := by
  rintro _ ⟨⟩
  exact hx

theorem kept_map {γ δ : Type} {r : Option (SceneList × γ)} (f : γ → δ)
    (h : ∀ y c, r = some (y, c) → Indexed y) : Kept (r.map fun r => (r.1, f r.2)) := by
  intro z hz
  obtain ⟨⟨y, c⟩, hr, rfl⟩ := map_eq_some_iff.mp hz
  exact h y c hr

theorem kept_map_fst {γ : Type} {r : Option SceneList} (c : γ) (h : ∀ y, r = some y → Indexed y) :
    Kept (r.map fun y => (y, c)) := by
  intro z hz
  obtain ⟨y, hr, rfl⟩ := map_eq_some_iff.mp hz
  exact h y hr

theorem toScene_kept {f : Nat → Option (SceneList × Code)} (hx : Indexed x)
    (hf : ∀ a, Kept (f a)) : Kept (toScene x pstData f) := by
  unfold toScene
  split
  next => exact kept_some hx _
  next =>
    split
    next => exact kept_some hx _
    next a _ => exact hf a

theorem condClears_kept (hx : Indexed x) (ls : List (Logic × Kind)) : Kept (condClears x a ls) :=
  kept_map_fst _ fun _ h => foldlM_keeps (fun _ _ _ _ hx h => sceneCondClear_indexed hx h) hx h

theorem delConds_kept {k : Kind} {l : Logic} {pcKey : String} {m n : Nat} {d : CText → Cond k}
    (hx : Indexed x) : Kept (delConds x a l pcKey m n d pstData) := by
  unfold delConds
  split
  next => exact kept_some hx _
  next =>
    split
    next => exact condClears_kept hx _
    next => exact kept_map _ fun _ _ h => sceneCondDel_indexed hx h

theorem hySceneDelCond_kept (hx : Indexed x) : Kept (hySceneDelCond x pstData) := by
  refine toScene_kept hx fun a => ?_
  repeat' split
  all_goals first
    | exact kept_some hx _
    | exact condClears_kept hx _
    | exact delConds_kept hx

theorem addLogic_kept {k : Kind} (hx : Indexed x) (acLogic : CText) (d : Cond k) :
    Kept (addLogic x a acLogic d) := by
  unfold addLogic
  split
  next => exact kept_map _ fun _ _ h => sceneCondAdd_indexed hx h
  next => exact kept_some hx _

theorem hySceneAddCond_kept (hx : Indexed x) : Kept (hySceneAddCond x pstData) := by
  unfold hySceneAddCond
  repeat' split
  all_goals first
    | exact kept_some hx _
    | exact addLogic_kept hx _ _
    | rintro y ⟨⟩
    | skip
  -- the condition that is filed under the text is read first
  rintro y hy
  obtain ⟨s, -, hy⟩ := bind_eq_some_iff.mp hy
  obtain ⟨d, -, hy⟩ := bind_eq_some_iff.mp hy
  split at hy
  next => exact kept_some hx _ y hy
  next => exact addLogic_kept hx _ _ y hy

theorem execActive_kept {updates : List SceneText} {e : CText} {r : ExecResult} (hx : Indexed x)
    (h : execActive x updates iTime a e = some r) : Indexed r.list := by
  unfold execActive at h
  split at h
  next =>
    obtain ⟨⟨y, os⟩, hy, h⟩ := bind_eq_some_iff.mp h
    obtain ⟨s, hs, -⟩ := bind_eq_some_iff.mp hy
    obtain ⟨q, os', hq⟩ := active_eq iTime hs
    cases some.inj (hq.symm.trans hy)
    exact some.inj h ▸ hx.congr rfl rfl rfl
  next => exact some.inj h ▸ hx

theorem hySceneExec_kept {r : ExecResult} (hx : Indexed x)
    (h : hySceneExec x iTime pstData = some r) : Indexed r.list := by
  unfold hySceneExec at h
  split at h
  next => exact some.inj h ▸ hx
  next acSceneId _ =>
    split at h
    next => exact some.inj h ▸ hx
    next b hget =>
      obtain ⟨s, hs, h⟩ := bind_eq_some_iff.mp h
      split at h
      next t _ =>
        split at h
        next => exact execActive_kept hx h
        next =>
          have hset : hySceneAdd x (execText acSceneId t s) =
              (sceneListSet x (execText acSceneId t s)).1 := by
            have hsame := sceneListGet_strncpy x acSceneId
            rw [hySceneAdd, execText, hsame, hget]
          have hy := hset ▸ hySceneAdd_indexed hx
          dsimp only at h
          split at h
          next => exact some.inj h ▸ hy
          next => exact execActive_kept hy h
      next => exact execActive_kept hx h

/-- No operation but one that unbinds all panels of a scene leaves the hash table without
what it has to have. -/
theorem handleList_kept {o : Operation} (hx : Indexed x) (ho : SparesPanels o pstData) :
    Kept (handleList iTime o pstData x) := by
  cases o with
  | delScene =>
    change Kept (hySceneDel x pstData)
    unfold hySceneDel
    split
    next => exact kept_some hx _
    next =>
      split
      next => exact kept_some (sceneListClear_indexed hx) _
      next => exact kept_map _ fun _ _ h => sceneListDel_indexed hx h
  | addCond => exact kept_map _ fun y c h => hySceneAddCond_kept hx (y, c) h
  | delCond => exact hySceneDelCond_kept hx
  | bindScene =>
    refine toScene_kept hx fun a => ?_
    split
    next => exact kept_map_fst _ fun _ h => sceneBind_indexed hx h
    next => exact kept_some hx _
  | unbindScene =>
    refine toScene_kept hx fun a => ?_
    split
    next => exact kept_some hx _
    next t ht =>
      rw [if_neg (ne_true_of_eq_false (ho rfl t ht))]
      split
      next => exact kept_some hx _
      next => exact kept_map _ fun _ _ h => sceneUnbind_indexed hx h
  | execScene =>
    intro y hy
    obtain ⟨r, hr, rfl⟩ := map_eq_some_iff.mp hy
    exact hySceneExec_kept hx hr
  | _ => exact kept_some hx _

end

section

variable {get : Getters} {iTime : Int} {o : Operation} {pstData : Json}
  {g : LocalScene.Gateway}

theorem list_hySceneAddAction : (g.hySceneAddAction pstData).1.list = g.list := by
  unfold LocalScene.Gateway.hySceneAddAction
  repeat' split
  all_goals rfl

theorem list_hySceneDelAction : (g.hySceneDelAction pstData).1.list = g.list := by
  unfold LocalScene.Gateway.hySceneDelAction
  repeat' split
  all_goals rfl

theorem hySceneAdd_kept (hx : Indexed g.list) : Indexed (g.hySceneAdd pstData).1.list := by
  unfold LocalScene.Gateway.hySceneAdd
  split
  next => exact hx
  next =>
    split
    next => exact hySceneAdd_indexed hx
    next => exact hySceneAdd_indexed hx

theorem handle_kept {r : LocalScene.Gateway × Code × List Json} (hx : Indexed g.list)
    (ho : SparesPanels o pstData) (h : handle get iTime o pstData g = some r) :
    Indexed r.1.list := by
  have hlist (h : (handleList iTime o pstData g.list).map
      (fun r => ({ g with list := r.1 }, r.2, ([] : List Json))) = some r) :
      Indexed r.1.list := by
    obtain ⟨y, hy, rfl⟩ := map_eq_some_iff.mp h
    exact handleList_kept hx ho y hy
  cases o with
  | addScene => exact some.inj h ▸ hySceneAdd_kept hx
  | addAction => exact some.inj h ▸ list_hySceneAddAction (g := g) ▸ hx
  | delAction => exact some.inj h ▸ list_hySceneDelAction (g := g) ▸ hx
  | getScene | getAction | getCond | getBindScene => exact some.inj h ▸ hx
  | delScene | addCond | delCond | bindScene | unbindScene | execScene => exact hlist h

end

/-! ## What a message sets off -/

section

variable {get : Getters} {iTime : Int} {y z : Scenes}

theorem reportEvent_kept {d : Json} (hy : Indexed y.gateway.list)
    (h : reportEvent iTime y d = some z) : Indexed z.gateway.list := by
  unfold reportEvent at h
  split at h
  next => exact some.inj h ▸ hy
  next =>
    obtain ⟨⟨x, os⟩, hx, rfl⟩ := map_eq_some_iff.mp h
    exact sceneListEvent_indexed hy hx

theorem sceneListDevUnregister_indexed {x x' : SceneList} {ts ts' : Nat → ActionList}
    {pDevId : CText} (hx : Indexed x) (h : sceneListDevUnregister x ts pDevId = some (x', ts')) :
    Indexed x' := by
  have hconds {x x' : SceneList} {a : Nat} {l : Logic} (hx : Indexed x)
      (h : devConds x a l pDevId = some x') : Indexed x' := by
    obtain ⟨s, -, h⟩ := bind_eq_some_iff.mp h
    refine foldlM_keeps (fun c _ b b' hb h => ?_) hx h
    split at h
    next =>
      obtain ⟨r, hr, rfl⟩ := map_eq_some_iff.mp h
      exact sceneCondDel_indexed hb hr
    next => exact some.inj h ▸ hb
  have hpanels {x x' : SceneList} {a : Nat} (hx : Indexed x)
      (h : devPanels x a pDevId = some x') : Indexed x' := by
    obtain ⟨s, -, h⟩ := bind_eq_some_iff.mp h
    refine foldlM_keeps (fun c _ b b' hb h => ?_) hx h
    split at h
    next =>
      obtain ⟨r, hr, rfl⟩ := map_eq_some_iff.mp h
      exact sceneUnbind_indexed hb hr
    next => exact some.inj h ▸ hb
  refine foldlM_keeps (I := fun z : SceneList × (Nat → ActionList) => Indexed z.1)
    (fun a _ z z' hz h => ?_) hx h
  obtain ⟨x₁, h₁, h⟩ := bind_eq_some_iff.mp h
  obtain ⟨x₂, h₂, h⟩ := bind_eq_some_iff.mp h
  obtain ⟨x₃, h₃, h⟩ := bind_eq_some_iff.mp h
  exact some.inj h ▸ hpanels (hconds (hconds hz h₁) h₂) h₃

theorem sceneEvent_kept {root : Json} (hy : Indexed y.gateway.list)
    (h : sceneEvent iTime y root = some z) : Indexed z.gateway.list := by
  unfold sceneEvent at h
  split at h
  next => exact some.inj h ▸ hy
  next =>
    dsimp only at h
    split at h
    next =>
      exact foldlM_keeps (I := fun y : Scenes => Indexed y.gateway.list)
        (fun _ _ _ _ hb h => reportEvent_kept hb h) hy h
    next =>
      split at h
      next =>
        refine foldlM_keeps (I := fun y : Scenes => Indexed y.gateway.list)
          (fun d _ b b' hb h => ?_) hy h
        unfold reportUnregister at h
        split at h
        next => exact some.inj h ▸ hb
        next =>
          obtain ⟨r, hr, rfl⟩ := map_eq_some_iff.mp h
          exact sceneListDevUnregister_indexed hb hr
      next =>
        split at h
        next => exact some.inj h ▸ sceneListClear_indexed hy
        next => exact some.inj h ▸ hy

theorem dispatch_kept {ds : List Json} {g g' : LocalScene.Gateway} (hg : Indexed g.list)
    (hspare : ∀ p ∈ (hySceneDispatch (handlers get iTime) (some g) ds).ran, SparesPanels p.1 p.2)
    (h : (hySceneDispatch (handlers get iTime) (some g) ds).state = some g') :
    Indexed g'.list := by
  refine hySceneDispatch_keeps (I := fun s : Option LocalScene.Gateway => ∀ g ∈ s, Indexed g.list)
    (fun p hp s hs g' hg' => ?_) (by rintro _ ⟨⟩; exact hg) g' h
  dsimp only [handlers] at hg'
  split at hg'
  next => cases hg'
  next r hr =>
    obtain ⟨g, hsome, hr⟩ := bind_eq_some_iff.mp hr
    exact some.inj hg' ▸ handle_kept (hs g hsome) (hspare p hp) hr

theorem deliver_kept {root : Json} {o : Sent}
    (hspare : (Input.recv iTime root).SparesPanels get)
    (ho : ∀ message, o = .sceneCmd message → message = root) (hy : Indexed y.gateway.list)
    (h : deliver get iTime y o = some z) : Indexed z.gateway.list := by
  cases o with
  | sceneReport message => exact sceneEvent_kept hy h
  | sceneCmd message =>
    obtain rfl := ho message rfl
    simp only [deliver] at h
    split at h
    next => exact some.inj h ▸ hy
    next ds hds =>
      obtain ⟨g, hg, rfl⟩ := map_eq_some_iff.mp h
      exact dispatch_kept hy (hspare ds hds _) hg
  | _ => exact some.inj h ▸ hy

end

/-! ## A run of the gateway -/

section

variable {type : RecvType} {commandDir : Bool} {root : Json}

/-- A message that is handed to `scene_adapter_cmd` is `root`. -/
def Hands (root : Json) (os : List Sent) : Prop := ∀ m, .sceneCmd m ∈ os → m = root

theorem recvElement_hands {d : Json} {s s' : RecvState} {os : Option (List Sent)}
    (h : recvElement type commandDir root d s = some (s', os)) : Hands root (os.getD []) := by
  have hands {s s' : RecvState} {os os' : Option (List Sent)}
      (h : some (s, os) = some (s', os')) (ho : Hands root (os.getD [])) :
      Hands root (os'.getD []) := (Prod.mk.inj (some.inj h)).2 ▸ ho
  unfold recvElement at h
  repeat' split at h
  all_goals try exact hands h (by simp [Hands])
  -- a text is read first, and for `Add` its number
  all_goals
    obtain ⟨_, -, h⟩ := bind_eq_some_iff.mp h
    first
      | exact hands h (by simp [Hands])
      | obtain ⟨_, -, h⟩ := bind_eq_some_iff.mp h
        exact hands h (by simp [Hands])

theorem recvElements_hands {ds : List Json} {s s' : RecvState} {os : List Sent} {ok : Bool}
    (h : recvElements type commandDir root s ds = some (s', os, ok)) : Hands root os := by
  induction ds generalizing s os ok with
  | nil =>
    obtain ⟨-, rfl, -⟩ : s = s' ∧ [] = os ∧ true = ok := by simpa [recvElements] using h
    exact fun _ hm => (not_mem_nil hm).elim
  | cons d ds ih =>
    obtain ⟨hyDevId, -, h⟩ := bind_eq_some_iff.mp h
    obtain ⟨⟨s₁, sent⟩, hrecv, h⟩ := bind_eq_some_iff.mp h
    have hhands := recvElement_hands hrecv
    cases sent with
    | none =>
      obtain ⟨rfl, rfl, -⟩ : s₁ = s' ∧ [] = os ∧ false = ok := by simpa using h
      exact hhands
    | some os₁ =>
      obtain ⟨⟨s₂, rest, ok'⟩, hrest, h⟩ := bind_eq_some_iff.mp h
      obtain ⟨rfl, rfl, -⟩ : s₂ = s' ∧ os₁ ++ rest = os ∧ ok' = ok := by simpa using h
      exact fun m hm => (mem_append.mp hm).elim (hhands m) (ih hrest m)

theorem Gateway.recv_hands {g g' : Gateway} {os : List Sent} (h : g.recv root = some (g', os)) :
    Hands root os := by
  obtain ⟨⟨devs, os', ok⟩, hrecv, h⟩ := bind_eq_some_iff.mp h
  obtain ⟨-, rfl⟩ := Prod.mk.inj (some.inj h)
  rw [hylinkRecvJson] at hrecv
  split at hrecv
  · obtain ⟨-, rfl, -⟩ : g.devs = devs ∧ [] = os' ∧ false = ok := by simpa using hrecv
    simp [Hands]
  next Command _ =>
    obtain ⟨command, -, hrecv⟩ := bind_eq_some_iff.mp hrecv
    split at hrecv
    · obtain ⟨-, rfl, -⟩ : g.devs = devs ∧ [.heart] = os' ∧ true = ok := by simpa using hrecv
      simp [Hands]
    · have hreport (m : Json) (hm : .sceneCmd m ∈ (if command = strReport then
          [Sent.sceneReport root] else [])) : m = root := by
        split at hm <;> simp at hm
      simp only at hrecv
      split at hrecv
      · obtain ⟨⟨s', os₁, ok'⟩, hloop, hrecv⟩ := bind_eq_some_iff.mp hrecv
        obtain ⟨-, rfl, -⟩ := by simpa using hrecv
        exact fun m hm => (mem_append.mp hm).elim (hreport m) (recvElements_hands hloop m)
      · obtain ⟨-, rfl, -⟩ := by simpa using hrecv
        exact hreport

end

/-- The table has the devices of the map, and the scenes are indexed. -/
structure HyGateway.Sound (y : HyGateway) : Prop where
  saved : y.hub.rows = rowsOf y.hub.devs
  indexed : Indexed y.scenes.gateway.list

variable {get : Getters} {y z : HyGateway} {os : List Sent}

theorem HyGateway.step_sound {i : Input} (hi : i.SparesPanels get) (hy : y.Sound)
    (h : y.step get i = some (z, os)) : z.Sound := by
  cases i with
  | recv iTime root =>
    obtain ⟨⟨hub, os'⟩, hrecv, h⟩ := bind_eq_some_iff.mp h
    obtain ⟨scenes, hfold, h⟩ := bind_eq_some_iff.mp h
    obtain ⟨rfl, -⟩ := Prod.mk.inj (some.inj h)
    refine ⟨Gateway.recv_rows hy.saved hrecv, ?_⟩
    refine foldlM_keeps (I := fun y : Scenes => Indexed y.gateway.list)
      (fun o ho b b' hb h => deliver_kept hi (fun m hm => ?_) hb h) hy.indexed hfold
    exact Gateway.recv_hands hrecv m (hm ▸ ho)
  | pass act hact =>
    obtain ⟨r, hr, heq⟩ := map_eq_some_iff.mp h
    obtain ⟨rfl, -⟩ := Prod.mk.inj heq
    exact ⟨hy.saved, step_indexed hy.indexed hr⟩

namespace Sample

/-- A device registers. -/
def registers : Json :=
  .object [(strCommand, .string strReport), (strType, .string RecvType.register.text),
    (strData, .array [.object [(strDeviceId, .string ['d']), (strModelId, .string ['m'])]])]

def addsScene : Json :=
  .object [(jsonKeyOperation, .string Operation.addScene.text), ("Id".toList, .string ['1'])]

def bindsPanel : Json :=
  .object [(jsonKeyOperation, .string Operation.bindScene.text), ("Id".toList, .string ['1']),
    ("DevId".toList, .string ['d']), ("Key".toList, .string ['k']), ("Value".toList, .string ['1'])]

/-- The device reports the value its panel is bound with. -/
def presses : Json :=
  .object [(strCommand, .string strReport), (strType, .string "Attribute".toList),
    (strData, .array [.object [(strDeviceId, .string ['d']), (strKey, .string ['k']),
      (strValue, .string ['1'])]])]

def noAnswers : Getters := fun _ _ _ => (.noErr, [])

def pressed : List Input :=
  [.recv 0 registers, .recv 0 (sceneMessage [addsScene, bindsPanel]), .recv 5 presses,
    .pass (.execQueue 5) rfl]

theorem pressed_spare : ∀ i ∈ pressed, i.SparesPanels noAnswers := by
  intro i hi
  simp only [pressed, mem_cons, not_mem_nil, or_false] at hi
  rcases hi with rfl | rfl | rfl | rfl
  · intro ds h
    cases h
  · intro ds h s p hp
    obtain rfl := some.inj h
    have hran : (hySceneDispatch (handlers noAnswers 0) s [addsScene, bindsPanel]).ran =
        [(.addScene, addsScene), (.bindScene, bindsPanel)] := rfl
    simp only [hran, mem_cons, not_mem_nil, or_false] at hp
    rcases hp with rfl | rfl
    · rintro ⟨⟩
    · rintro ⟨⟩
  · intro ds h
    cases h
  · trivial

end Sample

end Honyar.Hylink
