import Honyar.LocalScene.DevUnregister

/-!
# A device that is unregistered is gone

When `scene_list_dev_unregister` takes a device out of all scenes and nothing else.
It does not where a list, the panels or the actions of a scene have more of the
device than the arrays take; where a set of a list loses all its conditions and
its list has another; where the truths of the conditions that stay are not the
first bits of their set; and where the last condition of a list goes and the
words it was worked into stay.
-/

namespace Honyar.LocalScene

open CText Option

variable {l : Logic}

/-! ## One scene -/

namespace SceneInfo

variable {s s' t : SceneInfo} {pDevId : CText}

/-- The device is out of the scene, what else it has is as it was, and its truth
words are right. -/
structure Removed (s : SceneInfo) (pDevId : CText) (s' : SceneInfo) : Prop where
  conds : ∀ l, s.Clean l pDevId s'
  times : ∀ l, s'.list l .time = s.list l .time
  panels : s'.pstPanel = s.pstPanel.filter fun m => !isDev pDevId m.stPanel.acDevId
  texts : ({ s with pstPanel := s'.pstPanel } : SceneInfo).SameTexts s'
  consistent : s'.Consistent

/-- When the device is taken out of a scene with the action list `t`. -/
structure UnregisterSafe (s : SceneInfo) (t : ActionList) (pDevId : CText) : Prop where
  conds : ∀ l, (s.list l .event).DevSafe pDevId
  truth : s.TruthSafe pDevId
  panels : ∀ m ∈ s.pstPanel.drop sceneBindMaxNum, isDev pDevId m.stPanel.acDevId = false
  actions : ∀ n ∈ t.stList.drop actionMaxNum, isDev pDevId n.stActionInfo.acDevId = false

theorem devOut_frame (h : s.devOut pDevId = some s') :
    s.SameTexts s' ∧ ∀ l, s'.list l .time = s.list l .time := by
  obtain ⟨t, hrun, hrun'⟩ := bind_eq_some_iff.mp h
  have hfirst := condsOut_one hrun fun p => acLogic_of_mem_devPtrs
  have hsecond := condsOut_one hrun' fun p => acLogic_of_mem_devPtrs
  refine ⟨hfirst.texts.trans hsecond.texts, fun l => ?_⟩
  exact (hsecond.others l .time (by simp)).trans (hfirst.others l .time (by simp))

theorem consistent_devPanelsOut : (s.devPanelsOut pDevId).Consistent ↔ s.Consistent :=
  ⟨fun h => ⟨h.set, h.list, h.scene⟩, fun h => ⟨h.set, h.list, h.scene⟩⟩

theorem removed_iff (hw : s.Wf) (hc : s.Consistent)
    (hpanel : (s.pstPanel.map ScenePanelNode.addr).Nodup) :
    (∃ s', s.devOut pDevId = some s' ∧ s.Removed pDevId (s'.devPanelsOut pDevId)) ↔
      ((∀ l, (s.list l .event).DevSafe pDevId) ∧ s.TruthSafe pDevId) ∧
        ∀ m ∈ s.pstPanel.drop sceneBindMaxNum, isDev pDevId m.stPanel.acDevId = false := by
  rw [← devOut_iff hw hc, ← Keyed.filter_notMem_take_iff hpanel]
  have hpanels {s' : SceneInfo} (h : s.devOut pDevId = some s') :
      (s'.devPanelsOut pDevId).pstPanel = panelsLeft s.pstPanel pDevId := by
    obtain ⟨⟨o, a, w, rfl⟩, -⟩ := devOut_frame h
    rfl
  constructor
  · rintro ⟨s', h, hremoved⟩
    refine ⟨⟨s', h, fun l => (hremoved.conds l).congr rfl rfl,
      consistent_devPanelsOut.mp hremoved.consistent⟩, ?_⟩
    exact (hpanels h).symm.trans hremoved.panels
  · rintro ⟨⟨s', h, hclean, hcons⟩, hleft⟩
    obtain ⟨htexts, htimes⟩ := devOut_frame h
    refine ⟨s', h, fun l => (hclean l).congr rfl rfl, htimes, (hpanels h).trans hleft, ?_,
      consistent_devPanelsOut.mpr hcons⟩
    obtain ⟨o, a, w, rfl⟩ := htexts
    exact ⟨o, a, w, rfl⟩

end SceneInfo

/-! ## All scenes -/

/-- The device is out of every scene and its actions, and the rest is as it was. -/
structure Removed (pDevId : CText) (z z' : SceneList × (Nat → ActionList)) : Prop where
  addrs : z'.1.stList.map SceneNode.addr = z.1.stList.map SceneNode.addr
  scenes : ∀ n ∈ z.1.stList, ∃ s', z'.1.scene? n.addr = some s' ∧ n.stSceneInfo.Removed pDevId s'
  actions : ∀ n ∈ z.1.stList, (z'.2 n.addr).stList =
    (z.2 n.addr).stList.filter fun m => !isDev pDevId m.stActionInfo.acDevId

section

variable {x : SceneList}

theorem Looped.removed_iff {ts : Nat → ActionList} {pDevId : CText}
    {z' : SceneList × (Nat → ActionList)} (hx : Alive x)
    (h : Looped pDevId (x.stList.map SceneNode.addr) (x, ts) z') :
    Removed pDevId (x, ts) z' ↔ ∀ n ∈ x.stList,
      (∃ s', n.stSceneInfo.devOut pDevId = some s' ∧
        n.stSceneInfo.Removed pDevId (s'.devPanelsOut pDevId)) ∧
      ∀ m ∈ (ts n.addr).stList.drop actionMaxNum,
        isDev pDevId m.stActionInfo.acDevId = false := by
  have hscene (n : SceneNode) (hn : n ∈ x.stList) :=
    h.scenes n.addr (List.mem_map_of_mem hn) _ (hx.indexed.scene?_eq_some hn)
  have hactions (n : SceneNode) : (devActions (ts n.addr) pDevId).stList =
      ((ts n.addr).stList.filter fun m => !isDev pDevId m.stActionInfo.acDevId) ↔
        ∀ m ∈ (ts n.addr).stList.drop actionMaxNum,
          isDev pDevId m.stActionInfo.acDevId = false := by
    rw [stList_devActions]
    exact Keyed.filter_notMem_take_iff (ts n.addr).addrs _ _
  constructor
  · intro hremoved n hn
    obtain ⟨s', hout, hs', hact⟩ := hscene n hn
    obtain ⟨s'', hs'', hr⟩ := hremoved.scenes n hn
    obtain rfl := some.inj (hs'.symm.trans hs'')
    exact ⟨⟨s', hout, hr⟩, (hactions n).mp (hact ▸ hremoved.actions n hn)⟩
  · intro hall
    refine ⟨h.addrs, fun n hn => ?_, fun n hn => ?_⟩
    · obtain ⟨s', hout, hs', -⟩ := hscene n hn
      obtain ⟨s'', hout', hr⟩ := (hall n hn).1
      obtain rfl := some.inj (hout.symm.trans hout')
      exact ⟨_, hs', hr⟩
    · obtain ⟨s', -, -, hact⟩ := hscene n hn
      rw [hact]
      exact (hactions n).mpr (hall n hn).2

/-- The device is taken out of consistent scenes, and nothing else is, exactly when
that is so for each of them. -/
theorem sceneListDevUnregister_removed_iff (hx : Alive x) (ho : x.Orderly)
    (hc : ∀ n ∈ x.stList, n.stSceneInfo.Consistent) (ts : Nat → ActionList) (pDevId : CText) :
    (∃ z', sceneListDevUnregister x ts pDevId = some z' ∧ Removed pDevId (x, ts) z') ↔
      ∀ n ∈ x.stList, n.stSceneInfo.UnregisterSafe (ts n.addr) pDevId := by
  obtain ⟨hfrom, hto⟩ := sceneListDevUnregister_run hx ho ts pDevId
  have hsafe : (∀ n ∈ x.stList, n.stSceneInfo.UnregisterSafe (ts n.addr) pDevId) ↔
      ∀ n ∈ x.stList, (∃ s', n.stSceneInfo.devOut pDevId = some s' ∧
        n.stSceneInfo.Removed pDevId (s'.devPanelsOut pDevId)) ∧
      ∀ m ∈ (ts n.addr).stList.drop actionMaxNum,
        isDev pDevId m.stActionInfo.acDevId = false := by
    refine forall₂_congr fun n hn => ?_
    rw [SceneInfo.removed_iff (ho n hn).wf (hc n hn) (hx.panelAddrs n hn).1]
    exact ⟨fun h => ⟨⟨⟨h.conds, h.truth⟩, h.panels⟩, h.actions⟩,
      fun ⟨⟨⟨hconds, htruth⟩, hpanels⟩, hactions⟩ => ⟨hconds, htruth, hpanels, hactions⟩⟩
  rw [hsafe]
  constructor
  · rintro ⟨z', h, hremoved⟩
    exact ((hfrom z' h).removed_iff hx).mp hremoved
  · intro hall
    obtain ⟨z', h⟩ := hto fun n hn => ((hall n hn).1.imp fun s' hs' => hs'.1)
    exact ⟨z', h, ((hfrom z' h).removed_iff hx).mpr hall⟩

end

/-! ## Runs -/

/-- The engine with the action lists of its scenes. -/
structure Home where
  engine : Engine
  pstAction : Nat → ActionList

/-- The requests to an action list. -/
inductive ActionOp where
  | add (pstActionInfo : ActionInfo)
  | set (pstActionInfo : ActionInfo)
  | del (pstActionInfo : ActionInfo)
  | clear
  | sync (pastActionInfo : List ActionInfo)

def ActionOp.run (t : ActionList) : ActionOp → Option ActionList
  | .add i => some (actionListAdd t i)
  | .set i => some (actionListSet t i).1
  | .del i => some (actionListDel t i).1
  | .clear => some (actionListClear t)
  | .sync is => actionListSync t is

/-- What happens to the scenes and their actions. -/
inductive HomeAct where
  | index (a : IndexAct)
  | action (pcSceneId : CText) (op : ActionOp)
  | devUnregister (pDevId : CText)

namespace Home

/-- Nothing is there yet. -/
def init : Home := ⟨.init, fun _ => .new⟩

/-- One step.  A scene that was not there has an empty action list. -/
def step (y : Home) : HomeAct → Option (Home × List Effect)
  | .index a => (y.engine.indexStep a).map fun r =>
    (⟨r.1, fun b => if (y.engine.list.scene? b).isSome then y.pstAction b else .new⟩, r.2)
  | .action i op =>
    match sceneListGet y.engine.list i with
    | none => some (y, [])
    | some a => (op.run (y.pstAction a)).map fun t =>
      ({ y with pstAction := Function.update y.pstAction a t }, [])
  | .devUnregister d => (sceneListDevUnregister y.engine.list y.pstAction d).map fun z =>
    (⟨⟨z.1, y.engine.sync⟩, z.2⟩, [])

end Home

/-- The step keeps the index and the lists. -/
def HomeAct.Safe (y : Home) : HomeAct → Prop
  | .index a => a.Orderly y.engine
  | .action _ _ | .devUnregister _ => True

instance HomeAct.decidableSafe (y : Home) : (act : HomeAct) → Decidable (act.Safe y)
  | .index a => inferInstanceAs (Decidable (a.Orderly y.engine))
  | .action _ _ | .devUnregister _ => inferInstanceAs (Decidable True)

section

variable {y y' : Home} {os : List Effect}

theorem homeStep_sound {act : HomeAct} (hy : Alive y.engine.list) (ho : y.engine.list.Orderly)
    (hsafe : act.Safe y) (h : y.step act = some (y', os)) :
    Alive y'.engine.list ∧ y'.engine.list.Orderly := by
  cases act with
  | index a =>
    obtain ⟨⟨z, os'⟩, hz, heq⟩ := map_eq_some_iff.mp h
    obtain ⟨rfl, -⟩ := Prod.mk.inj heq
    have hsafe : a.Orderly y.engine := hsafe
    exact ⟨indexStep_alive hy hsafe.1 hz, indexStep_orderly hy.indexed ho hsafe hz⟩
  | action i op =>
    simp only [Home.step] at h
    split at h
    · obtain ⟨rfl, -⟩ := Prod.mk.inj (some.inj h)
      exact ⟨hy, ho⟩
    · obtain ⟨t, -, heq⟩ := map_eq_some_iff.mp h
      obtain ⟨rfl, -⟩ := Prod.mk.inj heq
      exact ⟨hy, ho⟩
  | devUnregister d =>
    obtain ⟨z, hz, heq⟩ := map_eq_some_iff.mp h
    obtain ⟨rfl, -⟩ := Prod.mk.inj heq
    have hloop := (sceneListDevUnregister_run hy ho y.pstAction d).1 z hz
    exact ⟨hloop.alive, hloop.orderly⟩

/-- In every run in which no condition is refused, every condition is deleted
through its own list, and no scene with panels is unbound as a whole: a device that
is unregistered while the truth words of the scenes are right is out of all of
them, the rest stays as it was and the words are right, exactly when every scene is
safe. -/
theorem devUnregister_removed_iff {as : List HomeAct}
    (hsafe : Run.Along Home.step (fun y a => a.Safe y) .init as)
    (h : Run.run Home.step .init as = some (y, os))
    (hc : ∀ n ∈ y.engine.list.stList, n.stSceneInfo.Consistent) (pDevId : CText) :
    (∃ y', y.step (.devUnregister pDevId) = some (y', []) ∧
        Removed pDevId (y.engine.list, y.pstAction) (y'.engine.list, y'.pstAction)) ↔
      ∀ n ∈ y.engine.list.stList, n.stSceneInfo.UnregisterSafe (y.pstAction n.addr) pDevId := by
  obtain ⟨hy, ho⟩ : Alive y.engine.list ∧ y.engine.list.Orderly :=
    Run.run_preserves_along (I := fun y : Home => Alive y.engine.list ∧ y.engine.list.Orderly)
      (fun _ _ _ _ hz hsafe hstep => homeStep_sound hz.1 hz.2 hsafe hstep)
      ⟨alive_init, fun n hn => (by cases hn)⟩ hsafe h
  rw [← sceneListDevUnregister_removed_iff hy ho hc]
  constructor
  · rintro ⟨y', hstep, hremoved⟩
    obtain ⟨z, hz, heq⟩ := map_eq_some_iff.mp hstep
    obtain ⟨rfl, -⟩ := Prod.mk.inj heq
    exact ⟨z, hz, hremoved⟩
  · rintro ⟨z, hz, hremoved⟩
    exact ⟨_, map_eq_some_iff.mpr ⟨z, hz, rfl⟩, hremoved⟩

end

namespace Sample

/-- A scene with one `And` condition, which is false. -/
def andRun : List HomeAct :=
  [.index (.act (.sceneAdd text)),
    .index (.act (.condAdd ['1'] .and .event (eventCond ['k'] [])))]

/-- An action of the device `d`. -/
def light : ActionInfo := ⟨['a'], ['d'], ['k'], [], ['1'], []⟩

/-- A scene with an `Or` condition of the device `d` and one of another device, both
false, a panel and an action of the device `d`. -/
def mixedRun : List HomeAct :=
  [.index (.act (.sceneAdd text)),
    .index (.act (.condAdd ['1'] .or .event (eventCond ['k'] []))),
    .index (.act (.condAdd ['1'] .or .event { eventCond ['k'] [] with acDevId := ['e'] })),
    .index (.act (.bind ['1'] button)), .action ['1'] (.add light)]

/-- What such a run leaves; nothing where it fails. -/
def homeAfter (as : List HomeAct) : Home :=
  ((Run.run Home.step .init as).map Prod.fst).getD .init

end Sample

open Sample in
/-- The device of a scene that has another condition in the same set. -/
theorem devUnregister_removed_mixed :
    ∃ y', (homeAfter mixedRun).step (.devUnregister ['d']) = some (y', []) ∧
      Removed ['d'] ((homeAfter mixedRun).engine.list, (homeAfter mixedRun).pstAction)
        (y'.engine.list, y'.pstAction) := by
  have hsafe : Run.Along Home.step (fun y a => a.Safe y) .init mixedRun := by decide
  have hrun : Run.run Home.step .init mixedRun = some (homeAfter mixedRun, []) := rfl
  have hlist : (homeAfter mixedRun).engine.list.stList =
      [⟨0, scene (homeAfter mixedRun).engine.list⟩] := by decide
  refine (devUnregister_removed_iff hsafe hrun (by rw [hlist]; decide) ['d']).mpr ?_
  rw [hlist, List.forall_mem_singleton]
  refine ⟨fun l => ?_, ⟨fun h => absurd h (by decide), fun h => absurd h (by decide),
    fun h => absurd h (by decide)⟩, by decide, by decide⟩
  cases l with
  | or => exact ⟨by decide, by decide, by decide⟩
  | and => exact ⟨by decide, by decide, by decide⟩

open Sample in
/-- The only condition of a scene goes: the bit of the `And` event list stays false. -/
theorem devUnregister_not_removed :
    ¬ ∀ (as : List HomeAct) (y : Home) (os : List Effect),
      Run.run Home.step .init as = some (y, os) → ∀ pDevId,
      ∃ y', y.step (.devUnregister pDevId) = some (y', []) ∧
        Removed pDevId (y.engine.list, y.pstAction) (y'.engine.list, y'.pstAction) := by
  intro h
  obtain ⟨y', hstep, hremoved⟩ := h andRun (homeAfter andRun) [] rfl ['d']
  obtain ⟨s', hs', hr⟩ :=
    hremoved.scenes ⟨0, scene (homeAfter andRun).engine.list⟩ (by decide)
  have hbad : ∀ x ∈ ((homeAfter andRun).step (.devUnregister ['d'])).map
      (fun r => r.1.engine.list), ∀ s ∈ x.scene? 0, ¬ s.Consistent := by decide
  exact hbad y'.engine.list (by rw [hstep]; rfl) s' hs' hr.consistent

end Honyar.LocalScene
