import Honyar.LocalScene.Routing

/-!
# Runs of events

A scene whose event conditions are of type `InstantOnce`, under a sequence of
events.  Each condition has the truth that the latest event for its device and
attribute gave it, and an event executes the scene exactly when it makes one of
its conditions true and the scene formula holds then.

Two things are beside this.  An event under whose text no condition is filed may
be the press of a panel, which activates the scenes bound to it, true or not.
And nothing is said of an event that has the text of a condition without being
for it (`Routing`).
-/

namespace Honyar.LocalScene

open CText Option List SceneInfo EventCond SceneList

variable {x y z : Engine} {iTime : Int} {e : Event} {es : List Event} {os : List Effect} {a : Nat}
  {s : SceneInfo}

variable {added : List QueueNode} {c : CondNode .event}

/-- `"InstantOnce"`. -/
def triggerInstantOnce : CText := ['I', 'n', 's', 't', 'a', 'n', 't', 'O', 'n', 'c', 'e']

/-- The truth the latest of some events for the condition gave it, or the one it
had before. -/
def EventCond.latest (c : EventCond) (b : Bool) (es : List Event) : Bool :=
  match (es.filter fun e => decide (e.IsFor c)).getLast? with
  | none => b
  | some e => sceneEventCondIsTrue c e

@[simp] theorem EventCond.latest_nil (c : EventCond) (b : Bool) : c.latest b [] = b := rfl

theorem EventCond.latest_append (c : EventCond) (b : Bool) (es : List Event) (e : Event) :
    c.latest b (es ++ [e]) = if e.IsFor c then sceneEventCondIsTrue c e else c.latest b es := by
  by_cases h : e.IsFor c
  · simp [latest, h]
  · simp [latest, h]

/-! ## The queue -/

theorem pstExecQueue_sceneListEvent (h : sceneListEvent x iTime e = some (y, os)) :
    y.list.pstExecQueue = x.list.pstExecQueue ++ execs os := by
  have hrun : ∀ {f : Engine → PtrNode → Option (Engine × List Effect)},
      (∀ x p y o, f x p = some (y, o) → y.list.pstExecQueue = x.list.pstExecQueue ++ execs o) →
      ∀ {ps : List PtrNode} {x y : Engine} {os : List Effect},
        Run.run f x ps = some (y, os) →
          y.list.pstExecQueue = x.list.pstExecQueue ++ execs os := by
    intro f hf ps
    induction ps with
    | nil =>
      intro x y os h
      simp only [Run.run, some.injEq, Prod.mk.injEq] at h
      obtain ⟨rfl, rfl⟩ := h
      simp [execs]
    | cons p ps ih =>
      intro x y os h
      obtain ⟨z, o, os', hp, hps, rfl⟩ := Run.run_cons.mp h
      rw [ih hps, hf x p z o hp, execs_append, append_assoc]
  simp only [sceneListEvent] at h
  split at h
  · refine hrun (fun x p y o hp => ?_) h
    obtain ⟨s, -, ⟨-, rfl, rfl⟩ | ⟨-, q, c, -, -,
      ⟨-, w, -, rfl, rfl⟩ | ⟨-, s', ts, -, rfl, rfl⟩⟩⟩ :=
      eventCondNode_cases hp
    · simp [execs]
    · simp [execs]
    · exact pstExecQueue_fire ..
  · refine hrun (fun x p y o hp => ?_) h
    obtain ⟨s, -, ⟨rfl, rfl⟩ | ⟨-, -, hexec⟩⟩ := eventPanelNode_cases hp
    · simp [execs]
    · rw [exec, Prod.mk.injEq] at hexec
      rw [hexec.1, hexec.2]
      rfl

theorem execs_filter (os : List Effect) (a : Nat) :
    (execs os).filter (fun q => q.pstScene = a) =
      execs (os.filter fun o => o.pstScene = a) := by
  induction os with
  | nil => rfl
  | cons o os ih =>
    cases o with
    | eval b q =>
      by_cases hb : b = a
      · simp [execs, Effect.pstScene, hb] at ih ⊢
        exact ih
      · simp [execs, Effect.pstScene, hb] at ih ⊢
        exact ih
    | exec q =>
      by_cases hq : q.pstScene = a
      · simp [execs, Effect.pstScene, hq] at ih ⊢
        exact ih
      · simp [execs, Effect.pstScene, hq] at ih ⊢
        exact ih

/-! ## One event -/

/-- The event has the text of no condition of the scene that it is not for. -/
def Event.Distinct (e : Event) (s : SceneInfo) : Prop :=
  ∀ (p : CondPtr .event) c, s.node? p = some c →
    eventHashKey c.stCond.acDevId c.stCond.acKey = eventHashKey e.acDevId e.acKey →
      e.IsFor c.stCond

/-- A condition the event is for goes from false to true, and the scene is true
then. -/
def Fires (x : SceneList) (e : Event) (a : Nat) (s s' : SceneInfo) : Prop :=
  (∃ p, Addressed x e a p ∧ s.condTrue p = false ∧ s'.condTrue p = true) ∧
    s'.formula s'.truths = true

/-- All event conditions of the scene are of type `InstantOnce`. -/
def SceneInfo.InstantOnce (s : SceneInfo) : Prop :=
  ∀ (p : CondPtr .event) c, s.node? p = some c → c.stCond.acTriggerType = triggerInstantOnce

/-- The condition without the value it saw last. -/
def CondNode.unseen (c : CondNode .event) : CondNode .event :=
  { c with stCond := { c.stCond with acLastValue := [] } }

/-- What one event leaves of a scene `s` and appends for it. -/
structure EventEffect (x : SceneList) (iTime : Int) (e : Event) (a : Nat) (s s' : SceneInfo)
    (added : List QueueNode) : Prop where
  wf : s'.Wf
  consistent : s'.Consistent
  disabled : s'.disabled = false
  node : ∀ p : CondPtr .event, (s'.node? p).map CondNode.unseen = (s.node? p).map CondNode.unseen
  truth : ∀ (p : CondPtr .event) c, s.node? p = some c →
    s'.condTrue p = if e.IsFor c.stCond then sceneEventCondIsTrue c.stCond e else s.condTrue p
  fires : Fires x e a s s' → added.filter (fun q => q.pstScene = a) = [queueNode iTime a s']
  silent : ¬ Fires x e a s s' → e.nodes x ≠ [] ∨ (∀ n ∈ e.panelNodes x, n.pstScene ≠ a) →
    added.filter (fun q => q.pstScene = a) = []

section Event

variable (hs : x.list.scene? a = some s) (hen : s.disabled = false)
include hs hen

theorem eventEffect_of_not_addressed (hw : s.Wf) (hc : s.Consistent)
    (hnone : ∀ p, ¬ Addressed x.list e a p)
    (hadded : e.nodes x.list ≠ [] ∨ (∀ n ∈ e.panelNodes x.list, n.pstScene ≠ a) →
      added.filter (fun q => q.pstScene = a) = []) : EventEffect x.list iTime e a s s added := by
  refine ⟨hw, hc, hen, fun _ => rfl, fun p c hp => ?_, fun h => ?_, fun _ => hadded⟩
  · rw [if_neg fun hfor => hnone p ⟨s, c, hs, hen, hp, hfor⟩]
  · obtain ⟨⟨p, hp, -⟩, -⟩ := h
    exact absurd hp (hnone p)

theorem addressed_iff_of_node (hx : Indexed x.list) (hkeys : e.Distinct s) {p : PtrNode}
    {q : CondPtr .event} (hp : p ∈ e.nodes x.list) (hpa : p.pstScene = a)
    (hq : p.condPtr? .event = some q) (hnode : s.node? q = some c) :
    e.IsFor c.stCond ∧ ∀ r, Addressed x.list e a r ↔ r = q := by
  have hmem := mem_of_scene? hs
  have hentry := mem_nodes.mp hp
  have hkey := (hx.sound _ hentry _ (p.target_of_condPtr? hq)).2 _ hmem hpa.symm _
    (has_of_node? hnode)
  have hfor : e.IsFor c.stCond := hkeys q c hnode hkey
  refine ⟨hfor, fun r => ⟨fun hr => ?_, fun hr => ?_⟩⟩
  · obtain ⟨n, hn, hna, hnr⟩ := hx.node_of_addressed hr
    have hsame := Keyed.eq_of_key_eq hx.unique (mem_nodes.mp hn) hentry (by
      rw [filedAs, filedAs, (hx.owner _ (mem_nodes.mp hn)).2 _ hmem hna.symm,
        (hx.owner _ hentry).2 _ hmem hpa.symm])
    rw [Prod.mk.injEq] at hsame
    rw [hsame.2, hq, some.injEq] at hnr
    exact hnr.symm
  · exact hr ▸ ⟨s, c, hs, hen, hnode, hfor⟩

theorem eventEffect_of_visit (hw : s.Wf) (hc : s.Consistent) (honce : s.InstantOnce)
    {q : CondPtr .event} (hnode : s.node? q = some c) (hfor : e.IsFor c.stCond)
    (honly : ∀ r, Addressed x.list e a r ↔ r = q) {s' : SceneInfo} {ts : List Trigger}
    (h : sceneEventCondTrueUpdate (s.modifyCond q (EventCond.seen e))
      (sceneEventCondIsTrue c.stCond e) q = some (s', ts))
    (hadded : added.filter (fun q => q.pstScene = a) =
      (ts.filter (· = .exec)).map fun _ => queueNode iTime a s') :
    EventEffect x.list iTime e a s s' added := by
  have htype := honce q c hnode
  set s₁ := s.modifyCond q (seen e) with hs₁
  have hw₁ : s₁.Wf := hw.modifyCond
  have hc₁ : s₁.Consistent := hc.modifyCond
  have htruths₁ : s₁.truths = s.truths := funext fun r => condTrue_modifyCond r.2
  have hptr : q ∈ s₁.ptrs q.acLogic .event := by
    rw [ptrs_modifyCond, mem_ptrs_iff hw]
    simp only [node?, bind_eq_bind, bind_eq_some_iff] at hnode
    obtain ⟨n, hn, hcn⟩ := hnode
    exact ⟨rfl, n, c, hn, hcn⟩
  obtain ⟨c₁, s₂, s₃, hc₁', hs₂, hs₃, hu⟩ :=
    sceneEventCondTrueUpdate_eq hw₁ hc₁ hptr (sceneEventCondIsTrue c.stCond e)
  -- the condition is of type `InstantOnce` still
  have htype₁ : c₁.stCond.acTriggerType = triggerInstantOnce := by
    rw [hs₁, node?_modifyCond_self, hnode, map_some, some.injEq] at hc₁'
    rw [← hc₁', ← htype]
    simp only [seen]
    split <;> rfl
  have hleft : ∀ b, c₁.stCond.leftTrue b = b := by
    intro b
    rw [leftTrue, htype₁]
    cases b <;> decide
  have htrigger : c₁.stCond.trigger = [.exec] := by
    rw [trigger, htype₁, if_neg (by decide), if_pos (by decide)]
  rw [hleft, hs₂, some.injEq] at hs₃
  subst hs₃
  rw [hu, some.injEq, Prod.mk.injEq, htrigger] at h
  obtain ⟨rfl, rfl⟩ := h
  obtain ⟨hw₂, hc₂, -⟩ := condTrueInit_step hw₁ hc₁ hs₂
  have herase := condTrueInit_eraseTruth hs₂
  have hread : ∀ {k : Kind} (r : CondPtr k), s₂.condTrue r =
      Function.update s.truths ⟨.event, q⟩ (sceneEventCondIsTrue c.stCond e) ⟨k, r⟩ := by
    intro k r
    rw [← htruths₁]
    exact congrFun (condTrueInit_truths hw₁ hs₂) ⟨k, r⟩
  have hself : s₂.condTrue q = sceneEventCondIsTrue c.stCond e := by
    rw [hread, Function.update_self]
  have hfires : Fires x.list e a s s₂ ↔
      (sceneEventCondIsTrue c.stCond e && !s₁.condTrue q && s₂.ucSceneCondTrue) = true := by
    rw [Fires, hc₂.scene_eq_formula hw₂, Bool.and_eq_true, Bool.and_eq_true, Bool.not_eq_true',
      ← hself, show s₁.condTrue q = s.condTrue q from condTrue_modifyCond q]
    simp only [honly, exists_eq_left]
    rw [and_comm (a := s.condTrue q = false)]
  refine ⟨hw₂, hc₂, ?_, fun p => ?_, fun p d hd => ?_, fun hf => ?_, fun hf _ => ?_⟩
  · rw [disabled, acSceneEnable_of_eraseTruth_eq herase,
      acSceneEnable_modifyCond]
    exact hen
  · rw [node?_of_eraseTruth_eq herase]
    by_cases hpq : p = q
    · subst hpq
      rw [node?_modifyCond_self, hnode]
      simp only [map_some, some.injEq, CondNode.unseen, seen]
      split <;> rfl
    · rw [node?_modifyCond_of_ne (by simpa using hpq)]
  · by_cases hpq : p = q
    · subst hpq
      rw [hnode, some.injEq] at hd
      rw [hself, ← hd, if_pos hfor]
    · rw [hread, Function.update_of_ne (by simpa using hpq), if_neg fun hfor' =>
        hpq ((honly p).mp ⟨s, d, hs, hen, hd, hfor'⟩)]
      rfl
  · rw [hadded, if_pos (hfires.mp hf)]
    rfl
  · rw [hadded, if_neg (mt hfires.mpr hf)]
    rfl

theorem sceneListEvent_effect (hx : Indexed x.list) (hw : s.Wf) (hc : s.Consistent)
    (honce : s.InstantOnce) (hkeys : e.Distinct s)
    (h : sceneListEvent x iTime e = some (y, os)) :
    ∃ s', y.list.scene? a = some s' ∧ EventEffect x.list iTime e a s s' (execs os) := by
  by_cases hnil : e.nodes x.list = []
  · -- panels at most
    have hnone : ∀ p, ¬ Addressed x.list e a p := by
      intro p hp
      obtain ⟨n, hn, -⟩ := hx.node_of_addressed hp
      rw [hnil] at hn
      cases hn
    have hnodes : ptrHashFindAll x.list.pHashTable (eventHashKey e.acDevId e.acKey) = [] := hnil
    simp only [sceneListEvent, hnodes, ne_eq, not_true_eq_false, if_false] at h
    obtain ⟨hlist, heffects⟩ := run_eventPanelNode h
    refine ⟨s, by rw [scene?, hlist]; exact hs,
      eventEffect_of_not_addressed hs hen hw hc hnone fun hpanel => ?_⟩
    have hpanel := hpanel.resolve_left (not_not.mpr hnil)
    rw [filter_eq_nil_iff]
    intro r hr
    obtain ⟨o, ho, hor⟩ := mem_filterMap.mp hr
    obtain ⟨r', rfl, p, hp, hrp⟩ := heffects o ho
    rw [← some.inj hor, hrp]
    simpa using hpanel p hp
  · rw [sceneListEvent_eq hnil] at h
    by_cases ha : a ∈ (e.nodes x.list).map PtrNode.pstScene
    · obtain ⟨p, hp, hpa⟩ := List.mem_map.mp ha
      have hnodup := hx.chain_nodup (scene?_of_run hx h)
      obtain ⟨w, w', o, -, hvisit, hbefore, hafter, hfilter⟩ := run_visit hx hnodup h hp
      rw [hpa] at hbefore hafter hfilter
      obtain ⟨s₀, hs₀, hcases⟩ := eventCondNode_cases hvisit
      rw [hpa, hbefore, hs, some.injEq] at hs₀
      subst hs₀
      rcases hcases with ⟨hdis, -, -⟩ | ⟨-, q, c, hq, hnode, hcases⟩
      · rw [hen] at hdis
        cases hdis
      obtain ⟨hfor, honly⟩ := addressed_iff_of_node hs hen hx hkeys hp hpa hq hnode
      rcases hcases with ⟨hsync, -⟩ | ⟨-, s', ts, hu, rfl, rfl⟩
      · rw [honce q c hnode] at hsync
        exact absurd hsync (by decide)
      · refine ⟨s', ?_, eventEffect_of_visit hs hen hw hc honce hnode hfor honly hu ?_⟩
        · rw [hafter, scene?_fire, hpa]
          exact scene?_setScene_self (hbefore.trans hs) s'
        · rw [execs_filter, hfilter, ← execs_fire, hpa]
          rfl
    · obtain ⟨hscene, heffects⟩ := run_frame hx h ha
      refine ⟨s, hscene.trans hs, eventEffect_of_not_addressed hs hen hw hc ?_ fun _ => ?_⟩
      · intro p hp
        obtain ⟨n, hn, hna, -⟩ := hx.node_of_addressed hp
        exact ha (hna ▸ List.mem_map_of_mem hn)
      · rw [execs_filter, filter_eq_nil_iff.mpr fun o ho => by simpa using heffects o ho]
        rfl

end Event

/-! ## Runs -/

/-- The delivery of an event at a time. -/
def deliver (x : Engine) (te : Int × Event) : Option (Engine × List Effect) :=
  sceneListEvent x te.1 te.2

section Unseen

variable {s' : SceneInfo}
  (h : ∀ p : CondPtr .event, (s'.node? p).map CondNode.unseen = (s.node? p).map CondNode.unseen)
include h

theorem node?_of_unseen {p : CondPtr .event} (hc : s'.node? p = some c) :
    ∃ c₀, s.node? p = some c₀ ∧ c.unseen = c₀.unseen := by
  have hp := h p
  rw [hc, map_some] at hp
  obtain ⟨c₀, hc₀, heq⟩ := map_eq_some_iff.mp hp.symm
  exact ⟨c₀, hc₀, heq.symm⟩

theorem SceneInfo.InstantOnce.of_unseen (honce : s.InstantOnce) : s'.InstantOnce := by
  intro p c hc
  obtain ⟨c₀, hc₀, heq⟩ := node?_of_unseen h hc
  have htype : c.unseen.stCond.acTriggerType = c₀.unseen.stCond.acTriggerType := by rw [heq]
  exact htype.trans (honce p c₀ hc₀)

theorem Event.Distinct.of_unseen (hkeys : e.Distinct s) : e.Distinct s' := by
  intro p c hc hkey
  obtain ⟨c₀, hc₀, heq⟩ := node?_of_unseen h hc
  have hdev : c.unseen.stCond.acDevId = c₀.unseen.stCond.acDevId := by rw [heq]
  have hattr : c.unseen.stCond.acKey = c₀.unseen.stCond.acKey := by rw [heq]
  have hfor := hkeys p c₀ hc₀ (by
    rw [← hkey, show c.stCond.acDevId = c₀.stCond.acDevId from hdev,
      show c.stCond.acKey = c₀.stCond.acKey from hattr])
  exact ⟨hdev.trans hfor.1, hattr.trans hfor.2⟩

end Unseen

/-- What a run of events leaves of a scene. -/
structure EventTrace (s s' : SceneInfo) (es : List Event) : Prop where
  wf : s'.Wf
  consistent : s'.Consistent
  disabled : s'.disabled = false
  node : ∀ p : CondPtr .event, (s'.node? p).map CondNode.unseen = (s.node? p).map CondNode.unseen
  truth : ∀ (p : CondPtr .event) c, s.node? p = some c →
    s'.condTrue p = c.stCond.latest (s.condTrue p) es

theorem EventTrace.append {s' s'' : SceneInfo} (h : EventTrace s s' es)
    (he : EventEffect y.list iTime e a s' s'' added) : EventTrace s s'' (es ++ [e]) := by
  refine ⟨he.wf, he.consistent, he.disabled, fun p => (he.node p).trans (h.node p), ?_⟩
  intro p c hc
  have hp := h.node p
  rw [hc, map_some] at hp
  obtain ⟨c', hc', heq⟩ := map_eq_some_iff.mp hp
  have hdev : c'.unseen.stCond.acDevId = c.unseen.stCond.acDevId := by rw [heq]
  have hattr : c'.unseen.stCond.acKey = c.unseen.stCond.acKey := by rw [heq]
  have hfor : e.IsFor c'.stCond ↔ e.IsFor c.stCond := by
    rw [Event.IsFor, Event.IsFor, show c'.stCond.acDevId = c.stCond.acDevId from hdev,
      show c'.stCond.acKey = c.stCond.acKey from hattr]
  have htrue : sceneEventCondIsTrue c'.unseen.stCond e =
    sceneEventCondIsTrue c.unseen.stCond e := by
    rw [heq]
  rw [he.truth p c' hc', latest_append, h.truth p c hc]
  simp only [hfor]
  rw [show sceneEventCondIsTrue c'.stCond e = sceneEventCondIsTrue c.stCond e from htrue]

theorem run_deliver {es : List (Int × Event)} (hx : Indexed x.list)
    (hs : x.list.scene? a = some s) (hw : s.Wf) (hc : s.Consistent) (hen : s.disabled = false)
    (honce : s.InstantOnce) (hkeys : ∀ te ∈ es, te.2.Distinct s)
    (h : Run.run deliver x es = some (y, os)) :
    Indexed y.list ∧ ∃ s', y.list.scene? a = some s' ∧ EventTrace s s' (es.map Prod.snd) := by
  induction es using List.reverseRecOn generalizing y os with
  | nil =>
    simp only [Run.run, some.injEq, Prod.mk.injEq] at h
    obtain ⟨rfl, -⟩ := h
    exact ⟨hx, s, hs, hw, hc, hen, fun _ => rfl, fun _ _ _ => rfl⟩
  | append_singleton es te ih =>
    obtain ⟨z, o, o', hz, hy, -⟩ := Run.run_append.mp h
    obtain ⟨y', o₁, o₂, hte, hrest, -⟩ := Run.run_cons.mp hy
    simp only [Run.run, some.injEq, Prod.mk.injEq] at hrest
    obtain ⟨rfl, -⟩ := hrest
    obtain ⟨hzi, s', hs', htrace⟩ :=
      ih (fun te' hte' => hkeys te' (mem_append_left _ hte')) hz
    obtain ⟨s'', hs'', heffect⟩ := sceneListEvent_effect hs' htrace.disabled hzi htrace.wf
      htrace.consistent (honce.of_unseen htrace.node)
      ((hkeys te (by simp)).of_unseen htrace.node) hte
    refine ⟨sceneListEvent_indexed hzi hte, s'', hs'', ?_⟩
    rw [map_append]
    exact htrace.append heffect

/-- An event after any run of events, in any state reached: every condition has
the truth that the latest event for it gave it, and the scene is appended once
when the event fires it, and else not at all, unless the event is the press of a
panel bound to it. -/
theorem event_run_fires {as : List Act} {os₀ : List Effect}
    (hreach : Run.run Engine.step .init as = some (x, os₀)) (hs : x.list.scene? a = some s)
    (hw : s.Wf) (hc : s.Consistent) (hen : s.disabled = false) (honce : s.InstantOnce)
    {es : List (Int × Event)} (hkeys : ∀ te ∈ es ++ [(iTime, e)], te.2.Distinct s)
    (hrun : Run.run deliver x es = some (y, os)) {os' : List Effect}
    (h : sceneListEvent y iTime e = some (z, os')) :
    ∃ s₁ s₂ added, y.list.scene? a = some s₁ ∧ z.list.scene? a = some s₂ ∧
      z.list.pstExecQueue = y.list.pstExecQueue ++ added ∧
      (∀ (p : CondPtr .event) c, s.node? p = some c →
        s₂.condTrue p = c.stCond.latest (s.condTrue p) ((es ++ [(iTime, e)]).map Prod.snd)) ∧
      (Fires y.list e a s₁ s₂ →
        added.filter (fun q => q.pstScene = a) = [queueNode iTime a s₂]) ∧
      (¬ Fires y.list e a s₁ s₂ →
        e.nodes y.list ≠ [] ∨ (∀ n ∈ e.panelNodes y.list, n.pstScene ≠ a) →
          added.filter (fun q => q.pstScene = a) = []) := by
  obtain ⟨hy, s₁, hs₁, htrace⟩ := run_deliver (run_indexed hreach) hs hw hc hen honce
    (fun te hte => hkeys te (mem_append_left _ hte)) hrun
  have hkeys₁ : e.Distinct s₁ := Event.Distinct.of_unseen htrace.node
    (hkeys (iTime, e) (mem_append_right _ mem_cons_self))
  obtain ⟨s₂, hs₂, heffect⟩ := sceneListEvent_effect hs₁ htrace.disabled hy htrace.wf
    htrace.consistent (honce.of_unseen htrace.node) hkeys₁ h
  refine ⟨s₁, s₂, execs os', hs₁, hs₂, pstExecQueue_sceneListEvent h, ?_, heffect.fires,
    heffect.silent⟩
  rw [map_append]
  exact (htrace.append heffect).truth

theorem forall_node?_of_forall_mem {P : EventCond → Prop}
    (h : ∀ l, ∀ n ∈ (s.list l .event).stList, ∀ c ∈ n.pstCond, P c.stCond) (p : CondPtr .event)
    (c : CondNode .event) (hc : s.node? p = some c) : P c.stCond := by
  simp only [node?, bind_eq_bind, bind_eq_some_iff] at hc
  obtain ⟨n, hn, hc⟩ := hc
  exact h _ n (mem_of_find?_eq_some hn) c (mem_of_find?_eq_some hc)

theorem SceneInfo.instantOnce_of_forall_mem
    (h : ∀ l, ∀ n ∈ (s.list l .event).stList, ∀ c ∈ n.pstCond,
      c.stCond.acTriggerType = triggerInstantOnce) : s.InstantOnce :=
  forall_node?_of_forall_mem (P := fun c => c.acTriggerType = triggerInstantOnce) h

namespace Sample

/-- The attribute `key` of `d` has this value. -/
def changed (key value : CText) : Event := ⟨['d'], key, value⟩

/-- The engine with one scene and one condition, on `k`. -/
def oneCond : Engine := ⟨after (sceneEventOrCondAdd list 0 (eventCond ['k'] [])), .init⟩

/-- The manual trigger. -/
def manual : EventCond := { eventCond jsonValueKeyManual [] with acTriggerType := [] }

/-- The button `p` of the device `d`. -/
def panel : ScenePanel := ⟨['d'], ['p'], ['1'], ['1']⟩

/-- A scene with a condition on `k` that may be triggered by hand too, bound to
a panel. -/
def bound : List Act :=
  [.sceneAdd text, .condAdd ['1'] .or .event manual,
    .condAdd ['1'] .or .event (eventCond ['k'] []), .bind ['1'] panel]

end Sample

/-- The attribute is reported as 0, then as 1. -/
theorem event_run_fires_sample :
    ∃ y os z os', Run.run deliver Sample.oneCond [(0, Sample.changed ['k'] ['0'])] = some (y, os) ∧
      sceneListEvent y 1 (Sample.changed ['k'] ['1']) = some (z, os') ∧
      ∃ s₁ s₂ added, y.list.scene? 0 = some s₁ ∧ z.list.scene? 0 = some s₂ ∧
        z.list.pstExecQueue = y.list.pstExecQueue ++ added ∧
        (∀ (p : CondPtr .event) c, (Sample.scene Sample.oneCond.list).node? p = some c →
          s₂.condTrue p = c.stCond.latest ((Sample.scene Sample.oneCond.list).condTrue p)
            [Sample.changed ['k'] ['0'], Sample.changed ['k'] ['1']]) ∧
        (Fires y.list (Sample.changed ['k'] ['1']) 0 s₁ s₂ →
          added.filter (fun q => q.pstScene = 0) = [queueNode 1 0 s₂]) ∧
        (¬ Fires y.list (Sample.changed ['k'] ['1']) 0 s₁ s₂ →
          (Sample.changed ['k'] ['1']).nodes y.list ≠ [] ∨
            (∀ n ∈ (Sample.changed ['k'] ['1']).panelNodes y.list, n.pstScene ≠ 0) →
          added.filter (fun q => q.pstScene = 0) = []) := by
  have hreach : Run.run Engine.step .init (Sample.addOne ['k']) = some (Sample.oneCond, []) := by
    decide
  have hs : Sample.oneCond.list.scene? 0 = some (Sample.scene Sample.oneCond.list) := by decide
  have hkeys : ∀ te ∈ [((0 : Int), Sample.changed ['k'] ['0'])] ++
    [(1, Sample.changed ['k'] ['1'])],
      te.2.Distinct (Sample.scene Sample.oneCond.list) := by
    intro te hte
    refine forall_node?_of_forall_mem (P := fun c =>
      eventHashKey c.acDevId c.acKey = eventHashKey te.2.acDevId te.2.acKey → te.2.IsFor c) ?_
    rcases mem_cons.mp hte with rfl | hte
    · intro l
      cases l <;> decide
    · rw [mem_singleton.mp hte]
      intro l
      cases l <;> decide
  refine ⟨_, _, _, _, rfl, rfl, ?_⟩
  exact event_run_fires hreach hs (by decide) (by decide) (by decide)
    (SceneInfo.instantOnce_of_forall_mem (by intro l; cases l <;> decide)) hkeys rfl rfl

/-- The press of the panel is for no condition and appends the scene. -/
theorem event_run_fires_panel :
    ∃ x os₀ s y os, Run.run Engine.step .init Sample.bound = some (x, os₀) ∧
      x.list.scene? 0 = some s ∧ s.Wf ∧ s.Consistent ∧ s.disabled = false ∧ s.InstantOnce ∧
      sceneListEvent x 0 (Sample.changed ['p'] ['1']) = some (y, os) ∧
      (∀ p, ¬ Addressed x.list (Sample.changed ['p'] ['1']) 0 p) ∧
      y.list.scene? 0 = some s ∧
      y.list.pstExecQueue = x.list.pstExecQueue ++ [queueNode 0 0 s] := by
  refine ⟨_, _, _, _, _, rfl, rfl, by decide, by decide, by decide, ?_, rfl, ?_, rfl, by decide⟩
  · refine SceneInfo.instantOnce_of_forall_mem fun l => ?_
    cases l <;> decide
  · intro p hp
    have hreach : Run.run Engine.step .init Sample.bound = some _ := rfl
    obtain ⟨n, hn, -⟩ := (run_indexed hreach).node_of_addressed hp
    revert hn
    exact not_mem_nil

end Honyar.LocalScene
