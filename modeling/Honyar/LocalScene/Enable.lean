import Honyar.LocalScene.TimeCheck

/-!
# Disabled scenes

Three paths append a scene to the execution queue without a request: an event, a
check of the time conditions, and a timer that runs out.  The first looks at
`acSceneEnable`, the other two do not.  A run appends no disabled scene exactly
when none of its checks finds a disabled scene due, and none of its timers runs
out for a disabled scene that is true.

Nothing is assumed of the scenes, their truth words or the hash table.
-/

namespace Honyar.LocalScene

open CText Option SceneInfo Engine

variable {s : SceneInfo} {x x' : Engine} {iTime : Int} {os : List Effect} {now : Tm}

/-- The copy of the scene in the queue is of a disabled scene. -/
def QueueNode.disabled (q : QueueNode) : Bool := strncmpEq stateMaxLen q.acSceneEnable ['0']

/-- No disabled scene was appended. -/
def EnabledOnly (o : Effect) : Prop := ∀ q, o = .exec q → q.disabled = false

theorem enabledOnly_iff (os : List Effect) :
    (∀ o ∈ os, EnabledOnly o) ↔ ∀ q ∈ execs os, q.disabled = false := by
  constructor
  · intro h q hq
    obtain ⟨o, ho, hoq⟩ := List.mem_filterMap.mp hq
    cases o with
    | eval a p => cases hoq
    | exec q' => exact h _ ho q (by simpa using hoq)
  · rintro h o ho q rfl
    exact h q (List.mem_filterMap.mpr ⟨.exec q, ho, rfl⟩)

/-! ## Events -/

theorem SceneInfo.disabled_of_enabled (h : s.enabled = true) : s.disabled = false := by
  rw [enabled, strncmpEq_iff] at h
  simp only [disabled, strncmpEq, h]
  decide

theorem eventCondNode_enabledOnly {e : Event} {p : PtrNode}
    (h : eventCondNode iTime e x p = some (x', os)) : ∀ q ∈ execs os, q.disabled = false := by
  obtain ⟨s, -, ⟨-, -, rfl⟩ | ⟨hs, q, c, -, -, ⟨-, y, -, -, rfl⟩ | ⟨-, s', ts, hu, -, rfl⟩⟩⟩ :=
    eventCondNode_cases h
  · simp [execs]
  · simp [execs]
  · intro z hz
    have hz' : z ∈ execs ((x.list.setScene p.pstScene s').fire iTime p.pstScene s' p.addr ts).2 :=
      hz
    rw [((mem_execs_fire ts z).mp hz').2]
    have henable : s'.acSceneEnable = s.acSceneEnable := by
      rw [acSceneEnable_of_eraseTruth_eq (sceneEventCondTrueUpdate_eraseTruth hu),
        acSceneEnable_modifyCond]
    rw [← hs, disabled, ← henable]
    rfl

theorem eventPanelNode_enabledOnly {p : PtrNode} (h : eventPanelNode iTime x p = some (x', os)) :
    ∀ q ∈ execs os, q.disabled = false := by
  obtain ⟨s, -, ⟨-, rfl⟩ | ⟨he, -, hexec⟩⟩ := eventPanelNode_cases h
  · simp [execs]
  · intro q hq
    rw [SceneList.exec, Prod.mk.injEq] at hexec
    rw [hexec.2] at hq
    rw [show q = queueNode iTime p.pstScene s by simpa [execs] using hq]
    exact disabled_of_enabled he

theorem sceneListEvent_enabledOnly {e : Event} (h : sceneListEvent x iTime e = some (x', os)) :
    ∀ o ∈ os, EnabledOnly o := by
  simp only [sceneListEvent] at h
  split at h <;> intro o ho <;> obtain ⟨bs, p, cs, t, ot, t', o', -, -, hp, ho'⟩ :=
    (Run.mem_run_iff h).mp ho
  · exact (enabledOnly_iff o').mpr (eventCondNode_enabledOnly hp) o ho'
  · exact (enabledOnly_iff o').mpr (eventPanelNode_enabledOnly hp) o ho'

/-! ## Checks and timers -/

theorem timeCondCheck_acSceneEnable {s' : SceneInfo} {p : CondPtr .time} {ts : List Trigger}
    (h : timeCondCheck now s p = some (s', ts)) : s'.acSceneEnable = s.acSceneEnable := by
  simp only [timeCondCheck, bind_eq_bind, bind_eq_some_iff] at h
  obtain ⟨c, -, h⟩ := h
  obtain ⟨-, s₁, old, f, -, hu, rfl, -, -⟩ := sceneTimeCondTrueUpdate_some h
  rw [acSceneEnable_modifyCond,
    acSceneEnable_of_eraseTruth_eq (condTrueUpdate_eraseTruth hu),
    acSceneEnable_modifyCond]

theorem sceneTimeCheck_acSceneEnable {s' : SceneInfo} {ts : List Trigger}
    (h : sceneTimeCheck now s = some (s', ts)) : s'.acSceneEnable = s.acSceneEnable := by
  refine Run.run_preserves (I := fun t => t.acSceneEnable = s.acSceneEnable) ?_ rfl h
  intro t p t' o ht hcheck
  rw [timeCondCheck_acSceneEnable hcheck, ht]

theorem sceneTimeCheck_of_timeTrueLoop {x x' : SceneList} {ns : List SceneNode}
    (h : timeTrueLoop iTime now x ns = some (x', os)) {n : SceneNode} (hn : n ∈ ns) :
    ∃ s' ts, sceneTimeCheck now n.stSceneInfo = some (s', ts) := by
  induction ns generalizing x x' os with
  | nil => cases hn
  | cons m ns ih =>
    obtain ⟨s', ts, os₁, hcheck, hloop, -⟩ := timeTrueLoop_cons h
    rcases List.mem_cons.mp hn with rfl | hn
    · exact ⟨s', ts, hcheck⟩
    · exact ih hloop hn

theorem sceneListTimeTrueAll_enabledOnly_iff {x x' : SceneList}
    (h : sceneListTimeTrueAll x iTime now = some (x', os)) :
    (∀ q ∈ execs os, q.disabled = false) ↔
      ∀ n ∈ x.stList, n.stSceneInfo.disabled = true → ¬ n.stSceneInfo.ComesDue now := by
  constructor
  · intro hq n hn hdis hdue
    obtain ⟨s', ts, hcheck⟩ := sceneTimeCheck_of_timeTrueLoop h hn
    have := hq _ ((mem_execs_timeTrueLoop h _).mpr ⟨n, hn, hdue, s', ts, hcheck, rfl⟩)
    rw [QueueNode.disabled, queueNode, sceneTimeCheck_acSceneEnable hcheck] at this
    rw [disabled, this] at hdis
    cases hdis
  · intro hno q hq
    obtain ⟨n, hn, hdue, s', ts, hcheck, rfl⟩ := (mem_execs_timeTrueLoop h q).mp hq
    rw [QueueNode.disabled, queueNode, sceneTimeCheck_acSceneEnable hcheck, ← Bool.not_eq_true]
    exact fun hdis => hno n hn hdis hdue

theorem sceneContinueTriggerTimerFun_enabledOnly_iff {x x' : SceneList} {i : Nat}
    (h : sceneContinueTriggerTimerFun x iTime i = some (x', os)) :
    (∀ q ∈ execs os, q.disabled = false) ↔
      ∀ t ∈ x.timers[i]?, ∀ e ∈ x.ptrNode? t.pstCondPtr, ∀ s ∈ x.scene? e.pstScene,
        s.disabled = true → s.ucSceneCondTrue = false := by
  obtain ⟨t, e, s, ht, he, hs, ⟨htrue, hexec⟩ | ⟨htrue, -, rfl⟩⟩ :=
    sceneContinueTriggerTimerFun_cases h
  · obtain ⟨-, rfl⟩ := Prod.mk.inj hexec
    simp [ht, he, hs, execs, QueueNode.disabled, queueNode, disabled, htrue]
  · simp [ht, he, hs, execs, htrue]

/-! ## Runs -/

/-- A step that executes no disabled scene: a check finds none due, and a timer
runs out for none that is true. -/
def Act.EnableSafe (x : Engine) : Act → Prop
  | .timeTrueAll _ now =>
    ∀ n ∈ x.list.stList, n.stSceneInfo.disabled = true → ¬ n.stSceneInfo.ComesDue now
  | .timeout _ i =>
    ∀ t ∈ x.list.timers[i]?, ∀ e ∈ x.list.ptrNode? t.pstCondPtr,
      ∀ s ∈ x.list.scene? e.pstScene, s.disabled = true → s.ucSceneCondTrue = false
  | _ => True

theorem Engine.request_snd {i : CText} {f : Nat → Option SceneList}
    (h : x.request i f = some (x', os)) : os = [] := by
  rw [request] at h
  split at h
  · simp only [some.injEq, Prod.mk.injEq] at h
    exact h.2.symm
  · obtain ⟨y, -, hy⟩ := map_eq_some_iff.mp h
    exact (congrArg Prod.snd hy).symm

theorem step_enabledOnly_iff {a : Act} (h : x.step a = some (x', os)) :
    (∀ o ∈ os, EnabledOnly o) ↔ a.EnableSafe x := by
  have hnone : os = [] → ((∀ o ∈ os, EnabledOnly o) ↔ True) := by
    rintro rfl
    simp
  cases a with
  | sceneAdd i =>
    simp only [step, some.injEq, Prod.mk.injEq] at h
    exact hnone h.2.symm
  | sceneDel i =>
    obtain ⟨y, -, hy⟩ := map_eq_some_iff.mp h
    exact hnone (congrArg Prod.snd hy).symm
  | condAdd i l k c => exact hnone (request_snd h)
  | condDel i l k c => exact hnone (request_snd h)
  | condClear i l k => exact hnone (request_snd h)
  | bind i n => exact hnone (request_snd h)
  | unbind i n => exact hnone (request_snd h)
  | event t e => exact iff_of_true (sceneListEvent_enabledOnly h) trivial
  | timeTrueAll t now =>
    obtain ⟨⟨y, os'⟩, hy, heq⟩ := map_eq_some_iff.mp h
    cases heq
    rw [enabledOnly_iff]
    exact sceneListTimeTrueAll_enabledOnly_iff hy
  | timeout t i =>
    obtain ⟨⟨y, os'⟩, hy, heq⟩ := map_eq_some_iff.mp h
    cases heq
    rw [enabledOnly_iff]
    exact sceneContinueTriggerTimerFun_enabledOnly_iff hy
  | execQueue t =>
    simp only [step, some.injEq, Prod.mk.injEq] at h
    exact hnone h.2.symm

namespace Sample

/-- The scene of `list`, disabled. -/
def disabledText : SceneText := { text with acSceneEnable := ['0'] }

/-- A scene with one `Or` time condition, from 8:00 to 8:01. -/
def oneTime : Engine :=
  ⟨after (sceneTimeOrCondAdd list 0 (timeCond ['a'] ['0'] ['1'])), .init⟩

end Sample

end Honyar.LocalScene
