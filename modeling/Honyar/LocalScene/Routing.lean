import Honyar.LocalScene.Reach

/-!
# Routing of events

Which conditions `scene_list_event` compares with the value of an event, and
what becomes of them and of all others.

An event is filed under the text of its device, its attribute and `"cond"`,
written one behind the other and cut at 127 characters: two pairs of a device
and an attribute may have one text, and so may a time condition.  The event is
passed to every node filed under its text, and nothing compares the pair again.
So it reaches the conditions with its pair and no others exactly when every node
under its text leads to one.
-/

namespace Honyar.LocalScene

open CText Option List SceneList SceneInfo EventCond Run

variable {x x' y y' : Engine} {iTime : Int} {e : Event} {p : PtrNode} {ps : List PtrNode}
  {os : List Effect} {a : Nat}

variable {z z' : SceneList} {q : CondPtr .event}

/-! ## What is to happen -/

/-- The nodes an event is passed to. -/
def Event.nodes (e : Event) (x : SceneList) : List PtrNode :=
  ptrHashFindAll x.pHashTable (eventHashKey e.acDevId e.acKey)

/-- The nodes an event is passed to when it is the press of a panel. -/
def Event.panelNodes (e : Event) (x : SceneList) : List PtrNode :=
  ptrHashFindAll x.pHashTable (panelHashKey e.acDevId e.acKey e.acValue)

/-- The event and the condition are about one attribute of one device. -/
def Event.IsFor (e : Event) (c : EventCond) : Prop := c.acDevId = e.acDevId ∧ c.acKey = e.acKey

/-- The event is for this condition, of a scene that is not disabled. -/
def Addressed (x : SceneList) (e : Event) (a : Nat) (q : CondPtr .event) : Prop :=
  ∃ s c, x.scene? a = some s ∧ s.disabled = false ∧ s.node? q = some c ∧ e.IsFor c.stCond

/-- The truth a condition has after it saw an event: a `StateSync` condition
keeps the one it had. -/
def EventCond.trueAfter (c : EventCond) (e : Event) (b : Bool) : Bool :=
  if c.acTriggerType = triggerStateSync then b else c.leftTrue (sceneEventCondIsTrue c e)

/-- The condition at `q` saw the event, and no other condition of the scene
did. -/
structure Visited (e : Event) (q : CondPtr .event) (s s' : SceneInfo) : Prop where
  self : ∃ c, s.node? q = some c ∧
    s'.node? q = some { c with stCond := c.stCond.seen e } ∧
    s'.condTrue q = c.stCond.trueAfter e (s.condTrue q)
  others : ∀ (k : Kind) (r : CondPtr k), (⟨k, r⟩ : AnyPtr) ≠ ⟨.event, q⟩ →
    s'.node? r = s.node? r ∧ s'.condTrue r = s.condTrue r

/-- The event was compared once with each condition it is for and with no other,
and these and no others saw its value. -/
structure Routed (e : Event) (x x' : SceneList) (os : List Effect) : Prop where
  compared : ∀ a q, .eval a q ∈ os ↔ Addressed x e a q
  once : (evals os).Nodup
  updated : ∀ a s q, x.scene? a = some s → Addressed x e a q →
    ∃ s', x'.scene? a = some s' ∧ Visited e q s s'
  others : ∀ a s, x.scene? a = some s → (∀ q, ¬ Addressed x e a q) → x'.scene? a = some s

/-- The node leads to a scene, which is disabled or in which it leads to an
event condition with this property. -/
def PtrNode.Leads (x : SceneList) (P : EventCond → Prop) (p : PtrNode) : Prop :=
  ∃ s, x.scene? p.pstScene = some s ∧
    (s.disabled = true ∨
      ∃ q c, p.condPtr? .event = some q ∧ s.node? q = some c ∧ P c.stCond)

instance : DecidablePred e.IsFor := fun c =>
  inferInstanceAs (Decidable (c.acDevId = e.acDevId ∧ c.acKey = e.acKey))

instance {z : SceneList} {q : CondPtr .event} : Decidable (Addressed z e a q) :=
  decidable_of_iff (∃ s ∈ z.scene? a, s.disabled = false ∧ ∃ c ∈ s.node? q, e.IsFor c.stCond) <| by
    simp only [Addressed, mem_def]
    exact ⟨fun ⟨s, hs, hdis, c, hc, h⟩ => ⟨s, c, hs, hdis, hc, h⟩,
      fun ⟨s, c, hs, hdis, hc, h⟩ => ⟨s, hs, hdis, c, hc, h⟩⟩

instance {z : SceneList} {P : EventCond → Prop} [DecidablePred P] : Decidable (p.Leads z P) :=
  decidable_of_iff (∃ s ∈ z.scene? p.pstScene, s.disabled = true ∨
      ∃ q ∈ p.condPtr? .event, ∃ c ∈ s.node? q, P c.stCond) <| by
    simp only [PtrNode.Leads, mem_def]
    refine exists_congr fun s => and_congr_right fun _ => or_congr_right ?_
    exact ⟨fun ⟨q, hq, c, hc, h⟩ => ⟨q, c, hq, hc, h⟩, fun ⟨q, c, hq, hc, h⟩ => ⟨q, hq, c, hc, h⟩⟩

/-- What the visit of a node does to the synchronisation queues: `none` when it
writes behind the last place of one. -/
def syncNode (x : SceneList) (iTime : Int) (e : Event) (y : SyncList) (p : PtrNode) :
    Option SyncList :=
  match x.scene? p.pstScene with
  | none => some y
  | some s =>
    match (p.condPtr? .event).bind s.node? with
    | none => some y
    | some c =>
      if s.disabled = false ∧ c.stCond.acTriggerType = triggerStateSync ∧
        ¬ strncmpEq valueMaxLen c.stCond.acLastValue e.acValue then stateSync y iTime s e
      else some y

/-- The synchronisation queues have room for the requests the event makes. -/
def SyncRoom (x : Engine) (iTime : Int) (e : Event) : Prop :=
  ((e.nodes x.list).foldlM (syncNode x.list iTime e) x.sync).isSome = true

instance : Decidable (SyncRoom x iTime e) :=
  inferInstanceAs
    (Decidable (((e.nodes x.list).foldlM (syncNode x.list iTime e) x.sync).isSome = true))

theorem PtrNode.Leads.mono {P Q : EventCond → Prop} (h : p.Leads z P) (hPQ : ∀ c, P c → Q c) :
    p.Leads z Q := by
  obtain ⟨s, hs, hdis | ⟨q, c, hq, hc, hP⟩⟩ := h
  · exact ⟨s, hs, .inl hdis⟩
  · exact ⟨s, hs, .inr ⟨q, c, hq, hc, hPQ _ hP⟩⟩

theorem PtrNode.leads_congr {P : EventCond → Prop}
    (h : z'.scene? p.pstScene = z.scene? p.pstScene) :
    p.Leads z' P ↔ p.Leads z P := by
  rw [Leads, Leads, h]

theorem syncNode_congr (h : z'.scene? p.pstScene = z.scene? p.pstScene) (y : SyncList) :
    syncNode z' iTime e y p = syncNode z iTime e y p := by
  rw [syncNode, syncNode, h]

theorem foldlM_syncNode_congr (h : ∀ p ∈ ps, z'.scene? p.pstScene = z.scene? p.pstScene)
    (y : SyncList) : ps.foldlM (syncNode z' iTime e) y = ps.foldlM (syncNode z iTime e) y := by
  induction ps generalizing y with
  | nil => rfl
  | cons p ps ih =>
    rw [foldlM_cons, foldlM_cons, syncNode_congr (h p mem_cons_self)]
    congr 1
    funext w
    exact ih (fun p' hp' => h p' (mem_cons_of_mem p hp')) w

/-! ## One node -/

theorem SceneList.scene?_fire (z : SceneList) (iTime : Int) (a : Nat) (s : SceneInfo)
    (pstCondPtr : Nat) (ts : List Trigger) (b : Nat) :
    (z.fire iTime a s pstCondPtr ts).1.scene? b = z.scene? b := by
  rw [scene?, scene?, stList_fire]

theorem evals_fire (z : SceneList) (iTime : Int) (a : Nat) (s : SceneInfo) (pstCondPtr : Nat)
    (ts : List Trigger) : evals (z.fire iTime a s pstCondPtr ts).2 = [] := by
  induction ts generalizing z with
  | nil => rfl
  | cons t ts ih =>
    cases t with
    | exec => exact ih _
    | timer ulTime => exact ih _

theorem mem_evals : (a, q) ∈ evals os ↔ Effect.eval a q ∈ os := by
  rw [evals, mem_filterMap]
  constructor
  · rintro ⟨o, ho, hoq⟩
    cases o with
    | eval b r =>
      simp only [some.injEq, Prod.mk.injEq] at hoq
      obtain ⟨rfl, rfl⟩ := hoq
      exact ho
    | exec r => cases hoq
  · exact fun ho => ⟨_, ho, rfl⟩

theorem EventCond.leftTrue_seen (e : Event) (c : EventCond) (b : Bool) :
    (c.seen e).leftTrue b = c.leftTrue b := by
  rw [seen]
  split <;> rfl

theorem visited_of_update {s s' : SceneInfo} {c : CondNode .event} {ts : List Trigger} {heap : Nat}
    (hs : s.Placed heap) (hc : s.node? q = some c)
    (hsync : c.stCond.acTriggerType ≠ triggerStateSync)
    (h : sceneEventCondTrueUpdate (s.modifyCond q (EventCond.seen e))
      (sceneEventCondIsTrue c.stCond e) q = some (s', ts)) : Visited e q s s' := by
  have hseen : (s.modifyCond q (seen e)).node? q =
      some { c with stCond := c.stCond.seen e } := by
    rw [node?_modifyCond_self, hc]
    rfl
  have hnode : ∀ {k : Kind} (r : CondPtr k),
      s'.node? r = (s.modifyCond q (seen e)).node? r := fun r =>
    node?_of_eraseTruth_eq (sceneEventCondTrueUpdate_eraseTruth h) r
  have hshrinks : s.Shrinks (s.modifyCond q (seen e)) :=
    .modifyCond fun d _ => hashKey_seen e d.stCond
  have htruths := sceneEventCondTrueUpdate_truths (hshrinks.placed hs).chained hseen h
  have hread : ∀ {k : Kind} (r : CondPtr k), s'.condTrue r =
      Function.update s.truths ⟨.event, q⟩
        (c.stCond.leftTrue (sceneEventCondIsTrue c.stCond e)) ⟨k, r⟩ := by
    intro k r
    have := congrFun htruths ⟨k, r⟩
    rw [leftTrue_seen] at this
    rw [show s.truths = (s.modifyCond q (seen e)).truths from
      funext fun q' => (condTrue_modifyCond q'.2).symm]
    exact this
  refine ⟨⟨c, hc, (hnode q).trans hseen, ?_⟩, fun k r hr => ⟨?_, ?_⟩⟩
  · rw [hread, Function.update_self, trueAfter, if_neg hsync]
  · rw [hnode, node?_modifyCond_of_ne hr]
  · rw [hread, Function.update_of_ne hr]
    rfl

theorem eventCondNode_visits (hy : Indexed y.list)
    (h : eventCondNode iTime e y p = some (y', os)) :
    ∃ s s', y.list.scene? p.pstScene = some s ∧ y'.list.scene? p.pstScene = some s' ∧
      (∀ b, b ≠ p.pstScene → y'.list.scene? b = y.list.scene? b) ∧
      (s.disabled = true ∧ s' = s ∧ evals os = [] ∨
        s.disabled = false ∧ ∃ q, p.condPtr? .event = some q ∧ Visited e q s s' ∧
          evals os = [(p.pstScene, q)]) := by
  obtain ⟨s, hs, ⟨hdis, rfl, rfl⟩ | ⟨hdis, q, c, hq, hc, h⟩⟩ := eventCondNode_cases h
  · exact ⟨s, s, hs, hs, fun _ _ => rfl, .inl ⟨hdis, rfl, rfl⟩⟩
  have hplaced := hy.placed _ (mem_of_scene? hs)
  rcases h with ⟨hsync, z, -, rfl, rfl⟩ | ⟨hsync, s', ts, hu, rfl, rfl⟩
  · refine ⟨s, _, hs, scene?_setScene_self hs _,
      fun b hb => scene?_setScene_of_ne hb _, .inr ⟨hdis, q, hq, ⟨?_, ?_⟩, rfl⟩⟩
    · refine ⟨c, hc, ?_, ?_⟩
      · rw [node?_modifyCond_self, hc]
        rfl
      · rw [condTrue_modifyCond, trueAfter, if_pos hsync]
    · exact fun k r hr =>
        ⟨node?_modifyCond_of_ne hr, condTrue_modifyCond r⟩
  · refine ⟨s, s', hs, ?_, fun b hb => ?_, .inr ⟨hdis, q, hq, ?_, ?_⟩⟩
    · rw [scene?_fire]
      exact scene?_setScene_self hs s'
    · rw [scene?_fire]
      exact scene?_setScene_of_ne hb s'
    · exact visited_of_update hplaced hc hsync hu
    · exact congrArg (List.cons (p.pstScene, q)) (evals_fire ..)

theorem eventCondNode_sync (h : eventCondNode iTime e y p = some (y', os)) :
    syncNode y.list iTime e y.sync p = some y'.sync := by
  obtain ⟨s, hs, ⟨hdis, rfl, -⟩ | ⟨hdis, q, c, hq, hc, h⟩⟩ := eventCondNode_cases h
  · rw [syncNode, hs]
    simp only [hdis]
    split <;> simp
  have hnode : (p.condPtr? .event).bind s.node? = some c := by rw [hq, bind_some, hc]
  simp only [syncNode, hs, hnode]
  rcases h with ⟨hsync, z, hz, rfl, -⟩ | ⟨hsync, s', ts, -, rfl, -⟩
  · by_cases hlast : strncmpEq valueMaxLen c.stCond.acLastValue e.acValue = true
    · rw [if_pos hlast] at hz
      rw [if_neg fun h => h.2.2 hlast, hz]
    · rw [if_neg hlast] at hz
      rw [if_pos ⟨hdis, hsync, hlast⟩, hz]
  · rw [if_neg fun h => hsync h.2.1]

theorem eventCondNode_isSome_iff : (eventCondNode iTime e y p).isSome = true ↔
    p.Leads y.list (fun _ => True) ∧ (syncNode y.list iTime e y.sync p).isSome = true := by
  constructor
  · intro h
    obtain ⟨⟨y', os⟩, h⟩ := isSome_iff_exists.mp h
    refine ⟨?_, by rw [eventCondNode_sync h]; rfl⟩
    obtain ⟨s, hs, ⟨hdis, -, -⟩ | ⟨-, q, c, hq, hc, -⟩⟩ := eventCondNode_cases h
    · exact ⟨s, hs, .inl hdis⟩
    · exact ⟨s, hs, .inr ⟨q, c, hq, hc, trivial⟩⟩
  · rintro ⟨⟨s, hs, hleads⟩, hroom⟩
    by_cases hdis : s.disabled = true
    · simp [eventCondNode, hs, hdis]
    obtain ⟨q, c, hq, hc, -⟩ := hleads.resolve_left hdis
    have hnode : (p.condPtr? .event).bind s.node? = some c := by rw [hq, bind_some, hc]
    simp only [syncNode, hs, hnode] at hroom
    simp only [eventCondNode, hs, hdis, hq, hc, bind_eq_bind, bind_some]
    by_cases hsync : c.stCond.acTriggerType = triggerStateSync
    · simp only [hsync, if_true]
      by_cases hlast : strncmpEq valueMaxLen c.stCond.acLastValue e.acValue = true
      · simp [hlast]
      · rw [if_pos ⟨by simpa using hdis, hsync, hlast⟩] at hroom
        obtain ⟨z, hz⟩ := isSome_iff_exists.mp hroom
        simp [hlast, hz]
    · have hseen : (s.modifyCond q (seen e)).node? q =
          some { c with stCond := c.stCond.seen e } := by
        rw [node?_modifyCond_self, hc]
        rfl
      obtain ⟨r, hr⟩ :=
        sceneEventCondTrueUpdate_isSome hseen (sceneEventCondIsTrue c.stCond e)
      simp [hsync, hr]

/-- The scene an effect is on. -/
def Effect.pstScene : Effect → Nat
  | .eval a _ => a
  | .exec q => q.pstScene

theorem eventCondNode_pstScene (h : eventCondNode iTime e y p = some (y', os)) {o : Effect}
    (ho : o ∈ os) : o.pstScene = p.pstScene := by
  have hfire : ∀ (z : SceneList) (s : SceneInfo) (ts : List Trigger),
      o ∈ (z.fire iTime p.pstScene s p.addr ts).2 → o.pstScene = p.pstScene := by
    intro z s ts hz
    induction ts generalizing z with
    | nil => cases hz
    | cons t ts ih =>
      cases t with
      | exec =>
        rcases mem_append.mp hz with hz | hz
        · rw [mem_singleton.mp hz]
          rfl
        · exact ih _ hz
      | timer ulTime => exact ih _ hz
  obtain ⟨s, -, ⟨-, -, rfl⟩ | ⟨-, q, c, -, -, ⟨-, z, -, -, rfl⟩ | ⟨-, s', ts, -, -, rfl⟩⟩⟩ :=
    eventCondNode_cases h
  · cases ho
  · rw [mem_singleton.mp ho]
    rfl
  · rcases mem_cons.mp ho with rfl | ho
    · rfl
    · exact hfire _ _ _ ho

/-! ## The chain -/

section Chain

variable (hy : Indexed y.list)
include hy

theorem scene?_of_run (h : Run.run (eventCondNode iTime e) y ps = some (y', os)) :
    ∀ p ∈ ps, ∃ s, y.list.scene? p.pstScene = some s := by
  induction ps generalizing y os with
  | nil => simp
  | cons p ps ih =>
    obtain ⟨z, o, os', hp, hps, rfl⟩ := run_cons.mp h
    obtain ⟨s, s', hs, -, hframe, -⟩ := eventCondNode_visits hy hp
    intro p' hp'
    rcases mem_cons.mp hp' with rfl | hp'
    · exact ⟨s, hs⟩
    · obtain ⟨s₁, hs₁⟩ := ih (eventCondNode_indexed hy hp) hps p' hp'
      by_cases heq : p'.pstScene = p.pstScene
      · exact ⟨s, heq ▸ hs⟩
      · exact ⟨s₁, (hframe _ heq) ▸ hs₁⟩

theorem run_frame (h : Run.run (eventCondNode iTime e) y ps = some (y', os))
    (ha : a ∉ ps.map PtrNode.pstScene) :
    y'.list.scene? a = y.list.scene? a ∧ ∀ o ∈ os, o.pstScene ≠ a := by
  induction ps generalizing y os with
  | nil =>
    simp only [run, some.injEq, Prod.mk.injEq] at h
    obtain ⟨rfl, rfl⟩ := h
    simp
  | cons p ps ih =>
    obtain ⟨z, o, os', hp, hps, rfl⟩ := run_cons.mp h
    rw [map_cons, mem_cons, not_or] at ha
    obtain ⟨s, s', -, -, hframe, -⟩ := eventCondNode_visits hy hp
    obtain ⟨hscene, heffects⟩ := ih (eventCondNode_indexed hy hp) hps ha.2
    refine ⟨hscene.trans (hframe a ha.1), fun w hw => ?_⟩
    rcases mem_append.mp hw with hw | hw
    · rw [eventCondNode_pstScene hp hw]
      exact Ne.symm ha.1
    · exact heffects w hw

/-- When no two nodes are of one scene, what happens to the scene of a node and
is done on it is what the visit of this node does. -/
theorem run_visit (hnodup : (ps.map PtrNode.pstScene).Nodup)
    (h : Run.run (eventCondNode iTime e) y ps = some (y', os)) (hp : p ∈ ps) :
    ∃ z z' o, Indexed z.list ∧ eventCondNode iTime e z p = some (z', o) ∧
      z.list.scene? p.pstScene = y.list.scene? p.pstScene ∧
      y'.list.scene? p.pstScene = z'.list.scene? p.pstScene ∧
      os.filter (fun w => w.pstScene = p.pstScene) = o := by
  obtain ⟨before, after, rfl⟩ := append_of_mem hp
  obtain ⟨z, o₁, o₂₃, h₁, h₂₃, rfl⟩ := run_append.mp h
  obtain ⟨z', o₂, o₃, h₂, h₃, rfl⟩ := run_cons.mp h₂₃
  rw [map_append, map_cons, nodup_append, nodup_cons] at hnodup
  obtain ⟨-, ⟨hafter, -⟩, hdisj⟩ := hnodup
  have hbefore : p.pstScene ∉ before.map PtrNode.pstScene := fun hmem =>
    hdisj _ hmem _ mem_cons_self rfl
  have hz : Indexed z.list := run_preserves (I := fun y => Indexed y.list)
    (fun _ _ _ _ => eventCondNode_indexed) hy h₁
  obtain ⟨hscene₁, heffects₁⟩ := run_frame hy h₁ hbefore
  obtain ⟨hscene₃, heffects₃⟩ := run_frame (eventCondNode_indexed hz h₂) h₃ hafter
  refine ⟨z, z', o₂, hz, h₂, hscene₁, hscene₃, ?_⟩
  have hnone : ∀ os' : List Effect, (∀ w ∈ os', w.pstScene ≠ p.pstScene) →
      os'.filter (fun w => w.pstScene = p.pstScene) = [] := by
    intro os' hos
    rw [filter_eq_nil_iff]
    simpa using hos
  rw [filter_append, filter_append, hnone o₁ heffects₁, hnone o₃ heffects₃,
    nil_append, append_nil, filter_eq_self]
  intro w hw
  simpa using eventCondNode_pstScene h₂ hw

theorem evals_run_sublist (h : Run.run (eventCondNode iTime e) y ps = some (y', os)) :
    ((evals os).map Prod.fst).Sublist (ps.map PtrNode.pstScene) := by
  induction ps generalizing y os with
  | nil =>
    simp only [run, some.injEq, Prod.mk.injEq] at h
    simp [← h.2, evals]
  | cons p ps ih =>
    obtain ⟨z, o, os', hp, hps, rfl⟩ := run_cons.mp h
    have hrest := ih (eventCondNode_indexed hy hp) hps
    rw [show evals (o ++ os') = evals o ++ evals os' from filterMap_append ..]
    obtain ⟨-, -, -, -, -, ⟨-, -, hnone⟩ | ⟨-, q, -, -, hone⟩⟩ := eventCondNode_visits hy hp
    · rw [hnone, nil_append]
      exact hrest.cons _
    · rw [hone]
      exact hrest.cons_cons _

/-- When a chain is worked off: every node leads to an event condition, or to a
disabled scene, and the synchronisation queues have room. -/
theorem run_isSome_iff (hnodup : (ps.map PtrNode.pstScene).Nodup) :
    (Run.run (eventCondNode iTime e) y ps).isSome = true ↔
      (∀ p ∈ ps, p.Leads y.list fun _ => True) ∧
        (ps.foldlM (syncNode y.list iTime e) y.sync).isSome = true := by
  induction ps generalizing y with
  | nil => simp [run]
  | cons p ps ih =>
    rw [map_cons, nodup_cons] at hnodup
    rw [foldlM_cons, forall_mem_cons]
    cases hp : eventCondNode iTime e y p with
    | none =>
      have hfail := mt eventCondNode_isSome_iff.mpr (by rw [hp]; simp)
      refine iff_of_false (by simp [run, hp]) ?_
      rintro ⟨⟨hleads, -⟩, hroom⟩
      refine hfail ⟨hleads, ?_⟩
      cases hsync : syncNode y.list iTime e y.sync p with
      | none => rw [hsync] at hroom; cases hroom
      | some z => rfl
    | some r =>
      obtain ⟨z, o⟩ := r
      have hleads := (eventCondNode_isSome_iff.mp (by rw [hp]; rfl)).1
      have hsync := eventCondNode_sync hp
      obtain ⟨-, -, -, -, hframe, -⟩ := eventCondNode_visits hy hp
      have hsame : ∀ p' ∈ ps, z.list.scene? p'.pstScene = y.list.scene? p'.pstScene :=
        fun p' hp' => hframe _ fun heq => hnodup.1 (heq ▸ List.mem_map_of_mem hp')
      have hrun : (run (eventCondNode iTime e) y (p :: ps)).isSome =
          (run (eventCondNode iTime e) z ps).isSome := by
        cases hps : run (eventCondNode iTime e) z ps <;> simp [run, hp, hps]
      rw [hrun, ih (eventCondNode_indexed hy hp) hnodup.2, hsync]
      refine and_congr ?_ ?_
      · rw [and_iff_right hleads]
        exact forall₂_congr fun p' hp' => PtrNode.leads_congr (hsame p' hp')
      · rw [foldlM_syncNode_congr hsame]
        rfl

end Chain

/-! ## An event -/

theorem mem_ptrHashFindAll {t : PtrHash} {key : CText} {n : PtrNode} :
    n ∈ ptrHashFindAll t key ↔ (key, n) ∈ t := by
  rw [ptrHashFindAll, List.mem_map]
  constructor
  · rintro ⟨⟨key', n'⟩, hmem, rfl⟩
    obtain ⟨hmem, hkey⟩ := mem_filter.mp hmem
    rw [← beq_iff_eq.mp hkey]
    exact hmem
  · exact fun hmem => ⟨_, mem_filter.mpr ⟨hmem, beq_self_eq_true _⟩, rfl⟩

theorem mem_nodes {n : PtrNode} :
    n ∈ e.nodes z ↔ (eventHashKey e.acDevId e.acKey, n) ∈ z.pHashTable := mem_ptrHashFindAll

theorem Indexed.chain_nodup (hz : Indexed z) {key : CText}
    (h : ∀ n ∈ ptrHashFindAll z.pHashTable key, ∃ s, z.scene? n.pstScene = some s) :
    ((ptrHashFindAll z.pHashTable key).map PtrNode.pstScene).Nodup := by
  rw [ptrHashFindAll, List.map_map]
  refine List.Nodup.map_on ?_ ((List.Nodup.of_map _ hz.unique).filter _)
  rintro ⟨key₁, n₁⟩ h₁ ⟨key₂, n₂⟩ h₂ (hscene : n₁.pstScene = n₂.pstScene)
  obtain ⟨hmem₁, hkey₁⟩ := mem_filter.mp h₁
  obtain ⟨hmem₂, hkey₂⟩ := mem_filter.mp h₂
  obtain rfl : key₁ = key := beq_iff_eq.mp hkey₁
  obtain rfl : key₂ = key₁ := beq_iff_eq.mp hkey₂
  obtain ⟨s, hs⟩ := h n₁ (mem_ptrHashFindAll.mpr hmem₁)
  have hmem := mem_of_scene? hs
  refine Keyed.eq_of_key_eq hz.unique hmem₁ hmem₂ ?_
  rw [filedAs, filedAs, (hz.owner _ hmem₁).2 _ hmem rfl, (hz.owner _ hmem₂).2 _ hmem hscene]

theorem Indexed.node_of_addressed (hz : Indexed z) (h : Addressed z e a q) :
    ∃ n ∈ e.nodes z, n.pstScene = a ∧ n.condPtr? .event = some q := by
  obtain ⟨s, c, hs, -, hc, hdev, hkey⟩ := h
  obtain ⟨n, hn, hna, hnq⟩ :=
    hz.filed _ (mem_of_scene? hs) _ _ (has_of_node? hc)
  refine ⟨n, mem_nodes.mpr ?_, hna, by simp [PtrNode.condPtr?, hnq]⟩
  rw [← hdev, ← hkey]
  exact hn

theorem run_eventPanelNode (h : Run.run (eventPanelNode iTime) y ps = some (y', os)) :
    y'.list.stList = y.list.stList ∧ ∀ o ∈ os, ∃ q, o = .exec q ∧
      ∃ p ∈ ps, q.pstScene = p.pstScene := by
  induction ps generalizing y os with
  | nil =>
    simp only [run, some.injEq, Prod.mk.injEq] at h
    obtain ⟨rfl, rfl⟩ := h
    simp
  | cons p ps ih =>
    obtain ⟨z, o, os', hp, hps, rfl⟩ := run_cons.mp h
    obtain ⟨hlist, heffects⟩ := ih hps
    have hrest : ∀ w ∈ os', ∃ q, w = .exec q ∧ ∃ p' ∈ p :: ps, q.pstScene = p'.pstScene := by
      intro w hw
      obtain ⟨q, hq, p', hp', hqp⟩ := heffects w hw
      exact ⟨q, hq, p', mem_cons_of_mem p hp', hqp⟩
    obtain ⟨s, -, ⟨rfl, rfl⟩ | ⟨-, -, hexec⟩⟩ := eventPanelNode_cases hp
    · exact ⟨hlist, hrest⟩
    · rw [exec, Prod.mk.injEq] at hexec
      refine ⟨by rw [hlist, hexec.1], fun w hw => ?_⟩
      rcases mem_append.mp hw with hw | hw
      · rw [hexec.2] at hw
        exact ⟨_, mem_singleton.mp hw, p, mem_cons_self, rfl⟩
      · exact hrest w hw

section Routes

variable (hx : Indexed x.list)
include hx

theorem run_nodes_isSome_iff :
    (Run.run (eventCondNode iTime e) x (e.nodes x.list)).isSome = true ↔
      (∀ p ∈ e.nodes x.list, p.Leads x.list fun _ => True) ∧ SyncRoom x iTime e := by
  constructor
  · intro hsome
    obtain ⟨⟨x', os⟩, h⟩ := isSome_iff_exists.mp hsome
    exact (run_isSome_iff hx (hx.chain_nodup (scene?_of_run hx h))).mp hsome
  · intro hleads
    refine (run_isSome_iff hx (hx.chain_nodup fun p hp => ?_)).mpr hleads
    obtain ⟨s, hs, -⟩ := hleads.1 p hp
    exact ⟨s, hs⟩

/-- What becomes of the scene of a node under the text of the event. -/
theorem run_nodes_visit (h : Run.run (eventCondNode iTime e) x (e.nodes x.list) = some (x', os))
    (hp : p ∈ e.nodes x.list) :
    ∃ s s', x.list.scene? p.pstScene = some s ∧ x'.list.scene? p.pstScene = some s' ∧
      (s.disabled = true ∧ s' = s ∧ (∀ q, .eval p.pstScene q ∉ os) ∨
        s.disabled = false ∧ ∃ q, p.condPtr? .event = some q ∧ Visited e q s s' ∧
          ∀ r, .eval p.pstScene r ∈ os ↔ r = q) := by
  have hnodup := hx.chain_nodup (scene?_of_run hx h)
  obtain ⟨z, z', o, hz, hvisit, hbefore, hafter, hfilter⟩ := run_visit hx hnodup h hp
  have hmem : ∀ r, .eval p.pstScene r ∈ os ↔ (p.pstScene, r) ∈ evals o := by
    intro r
    rw [mem_evals, ← hfilter, mem_filter]
    simp [Effect.pstScene]
  obtain ⟨s, s', hs, hs', -, hcases⟩ := eventCondNode_visits hz hvisit
  refine ⟨s, s', hbefore ▸ hs, hafter ▸ hs', ?_⟩
  rcases hcases with ⟨hdis, rfl, hnone⟩ | ⟨hdis, q, hq, hvisited, hone⟩
  · refine .inl ⟨hdis, rfl, fun q => ?_⟩
    rw [hmem, hnone]
    exact not_mem_nil
  · refine .inr ⟨hdis, q, hq, hvisited, fun r => ?_⟩
    rw [hmem, hone]
    simp

/-- When every node under the text leads to a condition with the pair of the
event, the event is routed. -/
theorem routed_of_run (hexact : ∀ p ∈ e.nodes x.list, p.Leads x.list e.IsFor)
    (h : Run.run (eventCondNode iTime e) x (e.nodes x.list) = some (x', os)) :
    Routed e x.list x'.list os := by
  have hpair : ∀ p ∈ e.nodes x.list, ∀ s q, x.list.scene? p.pstScene = some s →
      s.disabled = false → p.condPtr? .event = some q → Addressed x.list e p.pstScene q := by
    intro p hp s q hs hdis hq
    obtain ⟨s₁, hs₁, hdis₁ | ⟨q₁, c, hq₁, hc, hfor⟩⟩ := hexact p hp
    · rw [hs, some.injEq] at hs₁
      rw [← hs₁, hdis] at hdis₁
      cases hdis₁
    · rw [hq, some.injEq] at hq₁
      exact ⟨s₁, c, hs₁, by rw [← some.inj (hs.symm.trans hs₁), hdis], hq₁ ▸ hc, hfor⟩
  refine ⟨fun a q => ⟨fun hq => ?_, fun hq => ?_⟩, ?_, ?_, ?_⟩
  · -- a condition that was compared is that of a node
    by_cases ha : a ∈ (e.nodes x.list).map PtrNode.pstScene
    · obtain ⟨p, hp, rfl⟩ := List.mem_map.mp ha
      obtain ⟨s, s', hs, -, ⟨-, -, hnone⟩ | ⟨hdis, r, hr, -, hone⟩⟩ := run_nodes_visit hx h hp
      · exact absurd hq (hnone q)
      · rw [(hone q).mp hq]
        exact hpair p hp s r hs hdis hr
    · exact absurd rfl ((run_frame hx h ha).2 _ hq)
  · obtain ⟨p, hp, rfl, hpq⟩ := hx.node_of_addressed hq
    obtain ⟨s, c, hs, hdis, -⟩ := hq
    obtain ⟨s₁, s', hs₁, -, ⟨hdis₁, -⟩ | ⟨-, r, hr, -, hone⟩⟩ := run_nodes_visit hx h hp
    · rw [← some.inj (hs.symm.trans hs₁), hdis] at hdis₁
      cases hdis₁
    · rw [hpq, some.injEq] at hr
      exact (hone q).mpr hr
  · exact List.Nodup.of_map _ ((evals_run_sublist hx h).nodup
      (hx.chain_nodup (scene?_of_run hx h)))
  · intro a s q hs hq
    obtain ⟨p, hp, rfl, hpq⟩ := hx.node_of_addressed hq
    obtain ⟨s₂, c, hs₂, hdis, -⟩ := hq
    obtain ⟨s₁, s', hs₁, hs', hcases⟩ := run_nodes_visit hx h hp
    obtain rfl := some.inj (hs.symm.trans hs₁)
    obtain rfl := some.inj (hs.symm.trans hs₂)
    rcases hcases with ⟨hdis₁, -⟩ | ⟨-, r, hr, hvisited, -⟩
    · rw [hdis] at hdis₁
      cases hdis₁
    · rw [hpq, some.injEq] at hr
      exact ⟨s', hs', hr ▸ hvisited⟩
  · intro a s hs hnone
    by_cases ha : a ∈ (e.nodes x.list).map PtrNode.pstScene
    · obtain ⟨p, hp, rfl⟩ := List.mem_map.mp ha
      obtain ⟨s₁, s', hs₁, hs', ⟨-, rfl, -⟩ | ⟨hdis, r, hr, -, -⟩⟩ := run_nodes_visit hx h hp
      · rw [hs', ← hs₁, hs]
      · exact absurd (hpair p hp s₁ r hs₁ hdis hr) (hnone r)
    · rw [(run_frame hx h ha).1, hs]

theorem leads_of_routed (h : Run.run (eventCondNode iTime e) x (e.nodes x.list) = some (x', os))
    (hrouted : Routed e x.list x'.list os) : ∀ p ∈ e.nodes x.list, p.Leads x.list e.IsFor := by
  intro p hp
  obtain ⟨s, s', hs, -, ⟨hdis, -⟩ | ⟨-, q, hq, -, hone⟩⟩ := run_nodes_visit hx h hp
  · exact ⟨s, hs, .inl hdis⟩
  · obtain ⟨s₁, c, hs₁, -, hc, hfor⟩ := (hrouted.compared _ q).mp ((hone q).mpr rfl)
    exact ⟨s₁, hs₁, .inr ⟨q, c, hq, hc, hfor⟩⟩

/-- An event under whose text nothing is filed is for no condition. -/
theorem routed_of_nodes_nil (hnil : e.nodes x.list = [])
    (h : sceneListEvent x iTime e = some (x', os)) : Routed e x.list x'.list os := by
  have hnone : ∀ a q, ¬ Addressed x.list e a q := by
    intro a q hq
    obtain ⟨n, hn, -⟩ := hx.node_of_addressed hq
    rw [hnil] at hn
    cases hn
  have hnodes : ptrHashFindAll x.list.pHashTable (eventHashKey e.acDevId e.acKey) = [] := hnil
  simp only [sceneListEvent, hnodes, ne_eq, not_true_eq_false, if_false] at h
  obtain ⟨hlist, heffects⟩ := run_eventPanelNode h
  have heval : ∀ a q, Effect.eval a q ∉ os := by
    intro a q hq
    obtain ⟨r, hr, -⟩ := heffects _ hq
    cases hr
  refine ⟨fun a q => iff_of_false (heval a q) (hnone a q), ?_, ?_, ?_⟩
  · have : evals os = [] := by
      rw [eq_nil_iff_forall_not_mem]
      rintro ⟨a, q⟩ hq
      exact heval a q (mem_evals.mp hq)
    rw [this]
    exact nodup_nil
  · exact fun a s q _ hq => absurd hq (hnone a q)
  · intro a s hs _
    rw [scene?, hlist]
    exact hs

end Routes

theorem sceneListEvent_eq (hne : e.nodes x.list ≠ []) :
    sceneListEvent x iTime e = Run.run (eventCondNode iTime e) x (e.nodes x.list) := by
  rw [sceneListEvent]
  exact if_pos hne

namespace Sample

/-- A scene with the one condition that the attribute `key` of `d` equals 1. -/
def addOne (key : CText) : List Act :=
  [.sceneAdd text, .condAdd ['1'] .or .event (eventCond key [])]

/-- The attribute `key` of `dev` is 1. -/
def reported (dev key : CText) : Event := ⟨dev, key, ['1']⟩

end Sample

end Honyar.LocalScene
