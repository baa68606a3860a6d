import Honyar.LocalScene.IntegrityRun
import Honyar.LocalScene.Routing

/-!
# Events and panels

An event is looked up twice: under the text of its device and attribute for the
conditions, and under that of its device, attribute and value for the panels.
`scene_list_event` returns once it has gone through the conditions, and comes to
the panels only when there are none.

So the scenes a panel is bound to are activated when no node is filed for a
condition on the attribute, and masked by the first one that is.
-/

namespace Honyar.LocalScene

open CText Option List PtrNode SceneList

variable {x x' y y' : Engine} {iTime : Int} {e : Event} {p : PtrNode} {ps : List PtrNode}
  {a : Nat}

/-! ## Calls of `scene_active` -/

/-- What `scene_list_event` does, with its calls of `scene_active`. -/
inductive Call where
  | active (pstScene : Nat)
  | effect (o : Effect)
deriving DecidableEq

/-- What is to be seen of a call. -/
def Call.effect? : Call → Option Effect
  | .active _ => none
  | .effect o => some o

/-- The scene `scene_active` is called for. -/
def Call.active? : Call → Option Nat
  | .active a => some a
  | .effect _ => none

/-- The scenes `scene_active` was called for. -/
def actives (cs : List Call) : List Nat := cs.filterMap Call.active?

/-- `acEnable` of a panel is `"1"`. -/
def ScenePanel.enabled (c : ScenePanel) : Bool := strncmpEq stateMaxLen c.acEnable ['1']

/-- `eventCondNode`, which calls `scene_active` nowhere. -/
def eventCondNodeCalls (iTime : Int) (e : Event) (x : Engine) (p : PtrNode) :
    Option (Engine × List Call) :=
  (eventCondNode iTime e x p).map (Prod.map id (List.map .effect))

/-- `eventPanelNode`. -/
def eventPanelNodeCalls (iTime : Int) (x : Engine) (p : PtrNode) :
    Option (Engine × List Call) := do
  let s ← x.list.scene? p.pstScene
  let n ← s.panel? (← p.panelPtr?)
  if n.stPanel.enabled then
    let (y, os) ← x.list.active iTime p.pstScene
    return (⟨y, x.sync⟩, .active p.pstScene :: os.map .effect)
  else return (x, [])

/-- `scene_list_event`. -/
def sceneListEventCalls (x : Engine) (iTime : Int) (e : Event) : Option (Engine × List Call) :=
  if e.nodes x.list ≠ [] then Run.run (eventCondNodeCalls iTime e) x (e.nodes x.list)
  else Run.run (eventPanelNodeCalls iTime) x (e.panelNodes x.list)

theorem filterMap_effect?_map (os : List Effect) :
    (os.map Call.effect).filterMap Call.effect? = os := by
  rw [filterMap_map]
  exact filterMap_some

theorem actives_map_effect (os : List Effect) : actives (os.map Call.effect) = [] := by
  rw [actives, filterMap_map, filterMap_eq_nil_iff]
  exact fun _ _ => rfl

theorem eventCondNodeCalls_effects (iTime : Int) (e : Event) (y : Engine) (p : PtrNode) :
    (eventCondNodeCalls iTime e y p).map (Prod.map id (List.filterMap Call.effect?)) =
      eventCondNode iTime e y p := by
  rw [eventCondNodeCalls, Option.map_map]
  have hid : Prod.map id (List.filterMap Call.effect?) ∘ Prod.map id (List.map Call.effect) =
      (id : Engine × List Effect → Engine × List Effect) := by
    funext ⟨z, os⟩
    exact congrArg (Prod.mk z) (filterMap_effect?_map os)
  rw [hid, Option.map_id]
  rfl

theorem eventPanelNodeCalls_effects (y : Engine) (p : PtrNode) :
    (eventPanelNodeCalls iTime y p).map (Prod.map id (List.filterMap Call.effect?)) =
      eventPanelNode iTime y p := by
  rw [eventPanelNodeCalls, eventPanelNode]
  cases y.list.scene? p.pstScene with
  | none => rfl
  | some s =>
    cases p.panelPtr? with
    | none => rfl
    | some q =>
      simp only [bind_eq_bind, bind_some]
      cases s.panel? q with
      | none => rfl
      | some n =>
        by_cases hen : n.stPanel.enabled = true
        · have hen' : strncmpEq stateMaxLen n.stPanel.acEnable ['1'] = true := hen
          simp only [bind_some, hen, hen', if_true]
          cases y.list.active iTime p.pstScene with
          | none => rfl
          | some r =>
            exact congrArg (fun os => some (Engine.mk r.1 y.sync, os))
              (filterMap_effect?_map r.2)
        · have hen' : ¬ strncmpEq stateMaxLen n.stPanel.acEnable ['1'] = true := hen
          simp only [bind_some, hen, hen']
          rfl

theorem sceneListEventCalls_effects (x : Engine) (iTime : Int) (e : Event) :
    (sceneListEventCalls x iTime e).map (Prod.map id (List.filterMap Call.effect?)) =
      sceneListEvent x iTime e := by
  rw [sceneListEventCalls, sceneListEvent, Event.nodes, Event.panelNodes]
  split
  · exact Run.run_filterMap _ (eventCondNodeCalls_effects iTime e) x _
  · exact Run.run_filterMap _ eventPanelNodeCalls_effects x _

/-! ## What is to happen -/

/-- The event is that of the panel. -/
def Event.Presses (e : Event) (c : ScenePanel) : Prop :=
  c.acDevId = e.acDevId ∧ c.acKey = e.acKey ∧ c.acValue = e.acValue

instance Event.decidablePresses (e : Event) : DecidablePred e.Presses := fun c =>
  inferInstanceAs (Decidable (c.acDevId = e.acDevId ∧ c.acKey = e.acKey ∧ c.acValue = e.acValue))

/-- The scene has an enabled panel with the event. -/
def Bound (x : SceneList) (e : Event) (a : Nat) : Prop :=
  ∃ s, x.scene? a = some s ∧ ∃ m ∈ s.pstPanel, e.Presses m.stPanel ∧ m.stPanel.enabled = true

/-- The event is worked off, and `scene_active` is called for the scenes it is
bound to and no others, once for each. -/
def Activates (x : Engine) (iTime : Int) (e : Event) : Prop :=
  ∃ y cs, sceneListEventCalls x iTime e = some (y, cs) ∧ (actives cs).Nodup ∧
    ∀ a, a ∈ actives cs ↔ Bound x.list e a

/-- The panel a node leads to. -/
def PtrNode.panelIn? (x : SceneList) (p : PtrNode) : Option ScenePanelNode := do
  let s ← x.scene? p.pstScene
  s.panel? (← p.panelPtr?)

/-- Nothing keeps the event from the panels: with no node for a condition, each
node under the text of the panels leads to a panel, which is disabled or has the
event; with one, no panel waits for the event and the conditions are worked
off. -/
structure Unmasked (x : Engine) (iTime : Int) (e : Event) : Prop where
  panels : e.nodes x.list = [] → ∀ p ∈ e.panelNodes x.list,
    ∃ m ∈ p.panelIn? x.list, m.stPanel.enabled = true → e.Presses m.stPanel
  conds : e.nodes x.list ≠ [] → (∀ a, ¬ Bound x.list e a) ∧
    (∀ p ∈ e.nodes x.list, p.Leads x.list fun _ => True) ∧ SyncRoom x iTime e

/-! ## The chain of panels -/

theorem PtrNode.panelIn?_congr {z z' : SceneList} (h : z'.stList = z.stList) (p : PtrNode) :
    p.panelIn? z' = p.panelIn? z := by
  rw [panelIn?, panelIn?, scene?, scene?, h]

theorem eventPanelNodeCalls_eq (y : Engine) (p : PtrNode) :
    eventPanelNodeCalls iTime y p = (p.panelIn? y.list).bind fun n =>
      if n.stPanel.enabled then (y.list.active iTime p.pstScene).map fun r =>
        (⟨r.1, y.sync⟩, .active p.pstScene :: r.2.map .effect)
      else some (y, []) := by
  rw [eventPanelNodeCalls, panelIn?]
  cases y.list.scene? p.pstScene with
  | none => rfl
  | some s =>
    cases p.panelPtr? with
    | none => rfl
    | some q =>
      simp only [bind_eq_bind, bind_some]
      cases s.panel? q with
      | none => rfl
      | some n =>
        simp only [bind_some]
        cases y.list.active iTime p.pstScene <;> rfl

theorem SceneList.active_isSome {z : SceneList} {s : SceneInfo} (hs : z.scene? a = some s)
    (iTime : Int) : ∃ r, z.active iTime a = some r := by
  rw [active, hs]
  simp only [bind_eq_bind, bind_some]
  split
  · split <;> exact ⟨_, rfl⟩
  · split
    · split <;> exact ⟨_, rfl⟩
    · exact ⟨_, rfl⟩

theorem SceneList.stList_active {z z' : SceneList} {os : List Effect}
    (h : z.active iTime a = some (z', os)) : z'.stList = z.stList := by
  obtain ⟨s, -, ⟨rfl, -⟩ | ⟨-, hexec⟩⟩ := active_cases h
  · rfl
  · rw [exec, Prod.mk.injEq] at hexec
    rw [hexec.1]

/-- The node leads to an enabled panel. -/
def PtrNode.pressed (x : SceneList) (p : PtrNode) : Bool :=
  (p.panelIn? x).any fun m => m.stPanel.enabled

theorem eventPanelNodeCalls_spec {cs : List Call}
    (h : eventPanelNodeCalls iTime y p = some (y', cs)) :
    (p.panelIn? y.list).isSome = true ∧ y'.list.stList = y.list.stList ∧
      actives cs = if p.pressed y.list then [p.pstScene] else [] := by
  rw [eventPanelNodeCalls_eq] at h
  obtain ⟨n, hn, h⟩ := bind_eq_some_iff.mp h
  refine ⟨by rw [hn]; rfl, ?_⟩
  rw [pressed, hn, any_some]
  split at h
  · rename_i hen
    obtain ⟨r, hr, heq⟩ := map_eq_some_iff.mp h
    cases heq
    refine ⟨stList_active hr, ?_⟩
    rw [if_pos hen]
    exact congrArg (List.cons p.pstScene) (actives_map_effect r.2)
  · rename_i hen
    cases h
    exact ⟨rfl, (if_neg hen).symm⟩

theorem eventPanelNodeCalls_isSome (h : (p.panelIn? y.list).isSome = true) (iTime : Int) :
    ∃ r, eventPanelNodeCalls iTime y p = some r := by
  obtain ⟨n, hn⟩ := isSome_iff_exists.mp h
  rw [eventPanelNodeCalls_eq, hn, bind_some]
  split
  · rw [panelIn?] at hn
    obtain ⟨s, hs, -⟩ := bind_eq_some_iff.mp hn
    obtain ⟨r, hr⟩ := active_isSome hs iTime
    exact ⟨_, congrArg (Option.map _) hr⟩
  · exact ⟨_, rfl⟩

theorem run_panels_isSome (h : ∀ p ∈ ps, (p.panelIn? y.list).isSome = true) (iTime : Int) :
    ∃ r, Run.run (eventPanelNodeCalls iTime) y ps = some r := by
  induction ps generalizing y with
  | nil => exact ⟨_, rfl⟩
  | cons p ps ih =>
    obtain ⟨⟨z, cs⟩, hp⟩ := eventPanelNodeCalls_isSome (h p mem_cons_self) iTime
    obtain ⟨-, hlist, -⟩ := eventPanelNodeCalls_spec hp
    obtain ⟨⟨w, ds⟩, hps⟩ := ih (y := z) fun q hq => by
      rw [panelIn?_congr hlist]
      exact h q (mem_cons_of_mem p hq)
    exact ⟨_, Run.run_cons.mpr ⟨z, cs, ds, hp, hps, rfl⟩⟩

/-- Then the scenes of the enabled panels are activated, in the order of the
chain. -/
theorem run_panels_spec {cs : List Call}
    (h : Run.run (eventPanelNodeCalls iTime) y ps = some (y', cs)) :
    (∀ p ∈ ps, (p.panelIn? y.list).isSome = true) ∧
      actives cs = (ps.filter fun p => p.pressed y.list).map PtrNode.pstScene := by
  induction ps generalizing y cs with
  | nil =>
    cases h
    exact ⟨fun _ hp => absurd hp not_mem_nil, rfl⟩
  | cons p ps ih =>
    obtain ⟨z, o, os, hp, hps, rfl⟩ := Run.run_cons.mp h
    obtain ⟨hsome, hlist, hactive⟩ := eventPanelNodeCalls_spec hp
    obtain ⟨hrest, hactives⟩ := ih hps
    have hpressed : (fun q : PtrNode => q.pressed z.list) = fun q => q.pressed y.list := by
      funext q
      rw [pressed, pressed, panelIn?_congr hlist]
    rw [hpressed] at hactives
    constructor
    · intro q hq
      rcases mem_cons.mp hq with rfl | hq
      · exact hsome
      · rw [← panelIn?_congr hlist]
        exact hrest q hq
    · rw [show actives (o ++ os) = actives o ++ actives os from filterMap_append ..,
        hactive, hactives, filter_cons]
      split <;> rfl

/-! ## The panels of a state that is reached -/

section

variable {z : SceneList} {s : SceneInfo} {m : ScenePanelNode}

theorem Bindings.panel?_eq (hz : Bindings z) (hs : z.scene? a = some s) (hm : m ∈ s.pstPanel) :
    s.panel? m.addr = some m := by
  have hnodup := (hz.addrs _ (mem_of_scene? hs)).1
  rw [SceneInfo.panelKeys, List.map_map] at hnodup
  exact (Keyed.find?_eq_some_iff hnodup).mpr ⟨hm, rfl⟩

theorem Bindings.node_of_panel (hz : Bindings z) (hs : z.scene? a = some s)
    (hm : m ∈ s.pstPanel) : ∃ p ∈ ptrHashFindAll z.pHashTable m.stPanel.hashKey,
      p.pstScene = a ∧ p.panelIn? z = some m := by
  obtain ⟨p, hp, hpa, hpm⟩ := hz.filed _ (mem_of_scene? hs) (m.addr, m.stPanel.hashKey)
    (SceneInfo.mem_panelKeys.mpr ⟨m, hm, rfl, rfl⟩)
  refine ⟨p, mem_ptrHashFindAll.mpr hp, hpa, ?_⟩
  have hptr : p.panelPtr? = some m.addr := by rw [panelPtr?, hpm]
  rw [panelIn?, hpa, hs]
  simp only [bind_eq_bind, bind_some, hptr]
  exact hz.panel?_eq hs hm

theorem PtrNode.exists_of_panelIn? (h : p.panelIn? z = some m) :
    ∃ s, z.scene? p.pstScene = some s ∧ m ∈ s.pstPanel := by
  rw [panelIn?] at h
  obtain ⟨s, hs, h⟩ := bind_eq_some_iff.mp h
  obtain ⟨q, -, h⟩ := bind_eq_some_iff.mp h
  exact ⟨s, hs, mem_of_find?_eq_some h⟩

end

/-- An event that comes to the panels activates the scenes it is bound to when
and only when each node under its text leads to a panel, which is disabled or has
the event. -/
theorem panels_activated_iff (hx : Bindings x.list) :
    (∃ y cs, Run.run (eventPanelNodeCalls iTime) x (e.panelNodes x.list) = some (y, cs) ∧
      (actives cs).Nodup ∧ ∀ a, a ∈ actives cs ↔ Bound x.list e a) ↔
    ∀ p ∈ e.panelNodes x.list,
      ∃ m ∈ p.panelIn? x.list, m.stPanel.enabled = true → e.Presses m.stPanel := by
  have hnodup (h : ∀ p ∈ e.panelNodes x.list, (p.panelIn? x.list).isSome = true) :
      ((e.panelNodes x.list).map pstScene).Nodup := by
    refine hx.indexed.chain_nodup fun p hp => ?_
    obtain ⟨m, hm⟩ := isSome_iff_exists.mp (h p hp)
    obtain ⟨s, hs, -⟩ := exists_of_panelIn? hm
    exact ⟨s, hs⟩
  have hnode : ∀ a s, x.list.scene? a = some s → ∀ m ∈ s.pstPanel, e.Presses m.stPanel →
      ∃ p ∈ e.panelNodes x.list, p.pstScene = a ∧ p.panelIn? x.list = some m := by
    rintro a s hs m hm ⟨hdev, hkey, hvalue⟩
    have hp := hx.node_of_panel hs hm
    rw [ScenePanel.hashKey, hdev, hkey, hvalue] at hp
    exact hp
  constructor
  · rintro ⟨y, cs, hrun, -, hactives⟩ p hp
    obtain ⟨hsome, heq⟩ := run_panels_spec hrun
    obtain ⟨m, hm⟩ := isSome_iff_exists.mp (hsome p hp)
    refine ⟨m, hm, fun hen => ?_⟩
    -- the scene that is activated has a panel with the event, and this is the one of the node
    have hmem : p.pstScene ∈ actives cs := by
      rw [heq]
      refine List.mem_map_of_mem (mem_filter.mpr ⟨hp, ?_⟩)
      rw [pressed, hm, any_some, hen]
    obtain ⟨s, hs, m', hm', hpress, -⟩ := (hactives _).mp hmem
    obtain ⟨p', hp', hscene, hm''⟩ := hnode _ s hs m' hm' hpress
    obtain rfl := inj_on_of_nodup_map (hnodup hsome) hp' hp hscene
    obtain rfl := some.inj (hm.symm.trans hm'')
    exact hpress
  · intro h
    have hsome : ∀ p ∈ e.panelNodes x.list, (p.panelIn? x.list).isSome = true := by
      intro p hp
      obtain ⟨m, hm, -⟩ := h p hp
      rw [mem_def.mp hm]
      rfl
    obtain ⟨⟨y, cs⟩, hrun⟩ := run_panels_isSome hsome iTime
    obtain ⟨-, heq⟩ := run_panels_spec hrun
    refine ⟨y, cs, hrun, ?_, fun a => ?_⟩
    · rw [heq]
      exact (filter_sublist.map _).nodup (hnodup hsome)
    rw [heq, List.mem_map]
    constructor
    · rintro ⟨p, hp, rfl⟩
      obtain ⟨hp, hpressed⟩ := mem_filter.mp hp
      obtain ⟨m, hm, hpress⟩ := h p hp
      rw [pressed, mem_def.mp hm, any_some] at hpressed
      obtain ⟨s, hs, hms⟩ := exists_of_panelIn? (mem_def.mp hm)
      exact ⟨s, hs, m, hms, hpress hpressed, hpressed⟩
    · rintro ⟨s, hs, m, hm, hpress, hen⟩
      obtain ⟨p, hp, rfl, hpm⟩ := hnode a s hs m hm hpress
      refine ⟨p, mem_filter.mpr ⟨hp, ?_⟩, rfl⟩
      rw [pressed, hpm, any_some, hen]

/-! ## An event -/

theorem actives_of_conds {cs : List Call}
    (h : Run.run (eventCondNodeCalls iTime e) y ps = some (y', cs)) : actives cs = [] := by
  induction ps generalizing y cs with
  | nil =>
    cases h
    rfl
  | cons p ps ih =>
    obtain ⟨z, o, os, hp, hps, rfl⟩ := Run.run_cons.mp h
    obtain ⟨r, -, heq⟩ := map_eq_some_iff.mp hp
    cases heq
    rw [show actives (r.2.map Call.effect ++ os) = actives (r.2.map Call.effect) ++ actives os
      from filterMap_append .., actives_map_effect, ih hps, nil_append]

theorem actives_of_masked {cs : List Call} (hne : e.nodes x.list ≠ [])
    (h : sceneListEventCalls x iTime e = some (y, cs)) : actives cs = [] := by
  rw [sceneListEventCalls, if_pos hne] at h
  exact actives_of_conds h

theorem conds_isSome_iff :
    (Run.run (eventCondNodeCalls iTime e) y ps).isSome = true ↔
      (Run.run (eventCondNode iTime e) y ps).isSome = true := by
  rw [← Run.run_filterMap Call.effect? (eventCondNodeCalls_effects iTime e),
    isSome_map]

/-- In every state reached, an event activates exactly the scenes that have an
enabled panel with it, when and only when nothing keeps it from the panels. -/
theorem sceneListEvent_activates_iff {as : List Act} {os : List Effect}
    (hrun : Run.run Engine.step .init as = some (x, os)) (iTime : Int) (e : Event) :
    Activates x iTime e ↔ Unmasked x iTime e := by
  have hx := run_bindings hrun
  by_cases hnil : e.nodes x.list = []
  · rw [Activates, sceneListEventCalls, if_neg (not_not.mpr hnil), panels_activated_iff hx]
    exact ⟨fun h => ⟨fun _ => h, fun hne => absurd hnil hne⟩, fun h => h.panels hnil⟩
  · rw [Activates, sceneListEventCalls, if_pos hnil]
    constructor
    · rintro ⟨y, cs, h, -, hactives⟩
      refine ⟨fun h => absurd h hnil, fun _ => ⟨fun a ha => ?_, ?_⟩⟩
      · have hmem := (hactives a).mpr ha
        rw [actives_of_conds h] at hmem
        cases hmem
      · exact (run_nodes_isSome_iff hx.indexed).mp (conds_isSome_iff.mp (by rw [h]; rfl))
    · intro h
      obtain ⟨hnone, hworked⟩ := h.conds hnil
      obtain ⟨⟨y, cs⟩, hrun⟩ := isSome_iff_exists.mp
        (conds_isSome_iff.mpr ((run_nodes_isSome_iff hx.indexed).mpr hworked))
      refine ⟨y, cs, hrun, ?_, fun a => iff_of_false ?_ (hnone a)⟩ <;>
        rw [actives_of_conds hrun]
      · exact nodup_nil
      · exact not_mem_nil

namespace Sample

/-- A scene with the one panel `button`. -/
def boundRun : List Act := [.sceneAdd text, .bind ['1'] button]

/-- A scene with a condition on the attribute `k` of `d`, and a scene with a panel
of that attribute. -/
def maskedRun : List Act :=
  addOne ['k'] ++ [.sceneAdd { text with acSceneId := ['2'] },
    .bind ['2'] { button with acDevId := ['d'] }]

end Sample

open Sample in
/-- The panel is pressed, and its scene is activated. -/
theorem sceneListEvent_activates_button :
    ∃ x os, Run.run Engine.step .init boundRun = some (x, os) ∧
      Activates x 0 (reported ['p'] ['k']) := by
  refine ⟨_, _, rfl, ?_⟩
  have hrun : Run.run Engine.step .init boundRun = some _ := rfl
  refine (sceneListEvent_activates_iff hrun 0 _).mpr ⟨fun _ => ?_, fun hne => absurd ?_ hne⟩
  · decide
  · decide

open Sample in
/-- The panel is pressed, and the event goes to the condition of the other
scene. -/
theorem sceneListEvent_masked :
    ∃ x os, Run.run Engine.step .init maskedRun = some (x, os) ∧
      (sceneListEventCalls x 0 (reported ['d'] ['k'])).isSome = true ∧
      ¬ Activates x 0 (reported ['d'] ['k']) := by
  refine ⟨_, _, rfl, by decide, ?_⟩
  rintro ⟨y, cs, h, -, hactives⟩
  have hnone : actives cs = [] := actives_of_masked (by decide) h
  have hmem := (hactives 4).mpr ⟨_, rfl, ⟨5, { button with acDevId := ['d'] }⟩, by decide,
    ⟨rfl, rfl, rfl⟩, rfl⟩
  rw [hnone] at hmem
  cases hmem

end Honyar.LocalScene
