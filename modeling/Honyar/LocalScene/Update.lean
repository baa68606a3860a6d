import Honyar.LocalScene.CondOps
import Honyar.LocalScene.Recompute

/-!
# The two updates of the source

`scene_event_cond_true_update` and `scene_time_cond_true_update` on a consistent
scene, in terms of the recomputation without short cuts: what they leave, and
what they set off.  The results about events and about time checks rest on the
two specifications here and do not look at the updates again.
-/

namespace Honyar.LocalScene

open CText Option

variable {s : SceneInfo}

theorem sceneEventCondTrueUpdateOnce_eq (hw : s.Wf) (hc : s.Consistent) {l : Logic}
    {p : CondPtr .event} (hp : p ∈ s.ptrs l .event) (b : Bool) :
    ∃ c s', s.node? p = some c ∧ condTrueInit s p b = some s' ∧
      sceneEventCondTrueUpdateOnce s b p =
        some (s', if b && !s.condTrue p && s'.ucSceneCondTrue then c.stCond.trigger else []) := by
  obtain ⟨-, n, c, hn, hcn⟩ := (SceneInfo.mem_ptrs_iff hw).mp hp
  obtain ⟨s', hs'⟩ := condTrueInit_isSome hw hp b
  have hnode : s.node? p = some c := by simp [SceneInfo.node?, hn, hcn]
  refine ⟨c, s', hnode, hs', ?_⟩
  simp only [sceneEventCondTrueUpdateOnce, hnode, condTrueUpdate_eq_init hw hc hp, hs',
    map_some, bind_eq_bind, bind_some, pure_def]
  split <;> rfl

theorem condTrueInit_step {k : Kind} {p : CondPtr k} {s' : SceneInfo} {b : Bool} (hw : s.Wf)
    (hc : s.Consistent) (h : condTrueInit s p b = some s') :
    s'.Wf ∧ s'.Consistent ∧ ∀ l' k', s'.ptrs l' k' = s.ptrs l' k' := by
  obtain ⟨n, c, hn, -⟩ := condTrueInit_some h
  exact ⟨condTrueInit_wf hw h, condTrueInit_consistent hw hn (hc.off _ _ _) h,
    SceneInfo.ptrs_of_eraseTruth_eq (condTrueInit_eraseTruth h)⟩

/-- The truth an event condition is left with: one that triggers every time is
put back to false. -/
def EventCond.leftTrue (c : EventCond) (b : Bool) : Bool :=
  b && !strstr c.acTriggerType triggerEvery

theorem sceneEventCondTrueUpdate_eq (hw : s.Wf) (hc : s.Consistent) {l : Logic}
    {p : CondPtr .event} (hp : p ∈ s.ptrs l .event) (b : Bool) :
    ∃ c s' s'', s.node? p = some c ∧ condTrueInit s p b = some s' ∧
      condTrueInit s p (c.stCond.leftTrue b) = some s'' ∧
      sceneEventCondTrueUpdate s b p =
        some (s'', if b && !s.condTrue p && s'.ucSceneCondTrue then c.stCond.trigger else []) := by
  obtain ⟨c, s', hnode, hs', honce⟩ := sceneEventCondTrueUpdateOnce_eq hw hc hp b
  obtain ⟨s'', hs''⟩ := condTrueInit_isSome hw hp (c.stCond.leftTrue b)
  refine ⟨c, s', s'', hnode, hs', hs'', ?_⟩
  simp only [sceneEventCondTrueUpdate, hnode, honce, bind_eq_bind, bind_some,
    pure_def]
  by_cases he : strstr c.stCond.acTriggerType triggerEvery && b
  · rw [if_pos he]
    obtain ⟨hw', hc', hptrs⟩ := condTrueInit_step hw hc hs'
    obtain ⟨c', s₂, -, hs₂, honce'⟩ :=
      sceneEventCondTrueUpdateOnce_eq hw' hc' (by rw [hptrs]; exact hp) false
    have hleft : c.stCond.leftTrue b = false := by
      simp only [Bool.and_eq_true] at he
      simp [EventCond.leftTrue, he.1]
    have hsame : s₂ = s'' := by
      rw [condTrueInit_condTrueInit hw hs', ← hleft, hs'', some.injEq] at hs₂
      exact hs₂.symm
    simp [honce', hsame]
  · rw [if_neg he]
    have hleft : c.stCond.leftTrue b = b := by
      simp only [EventCond.leftTrue]
      cases b <;> simp_all
    rw [hleft, hs', some.injEq] at hs''
    rw [hs'']

/-- What the time update leaves, up to the counter of the condition. -/
theorem sceneTimeCondTrueUpdate_eq (hw : s.Wf) (hc : s.Consistent) {l : Logic}
    {p : CondPtr .time} (hp : p ∈ s.ptrs l .time) (b : Bool) :
    ∃ c s' f, s.node? p = some c ∧ condTrueInit s p b = some s' ∧
      (∀ d : TimeCond, ∃ i, f d = { d with iTriggerInterval := i }) ∧
      sceneTimeCondTrueUpdate s b p =
        some (s'.modifyCond p f,
          if s'.ucSceneCondTrue && b && (!s.condTrue p ||
            strstr c.stCond.acTriggerType triggerEvery && decide (c.stCond.iTriggerInterval ≤ 0))
          then [.exec] else []) := by
  obtain ⟨-, n, c, hn, hcn⟩ := (SceneInfo.mem_ptrs_iff hw).mp hp
  obtain ⟨s', hs'⟩ := condTrueInit_isSome hw hp b
  have hnode : s.node? p = some c := by simp [SceneInfo.node?, hn, hcn]
  have hid : s'.modifyCond p id = s' := s'.modifyCond_id p
  have hupdate := condTrueUpdate_eq_init hw hc hp b
  rw [hs', map_some] at hupdate
  simp only [sceneTimeCondTrueUpdate, hnode, hupdate, bind_eq_bind, bind_some,
    pure_def]
  by_cases hb : b = s.condTrue p
  · rw [if_neg (not_not.mpr hb)]
    by_cases he : strstr c.stCond.acTriggerType triggerEvery && b && s'.ucSceneCondTrue
    · rw [if_pos he]
      simp only [Bool.and_eq_true] at he
      by_cases hi : c.stCond.iTriggerInterval ≤ 0
      · refine ⟨c, s', TimeCond.resetInterval, rfl, hs', fun d => ⟨_, rfl⟩, ?_⟩
        simp [hi, he]
      · refine ⟨c, s', TimeCond.countInterval, rfl, hs', fun d => ⟨_, rfl⟩, ?_⟩
        simp [hi, ← hb, he]
    · rw [if_neg he]
      refine ⟨c, s', id, rfl, hs', fun d => ⟨_, rfl⟩, ?_⟩
      rw [hid]
      simp only [Bool.and_eq_true] at he
      simp [← hb]
      grind
  · rw [if_pos hb]
    by_cases he : b && !s.condTrue p && s'.ucSceneCondTrue
    · rw [if_pos he]
      refine ⟨c, s', TimeCond.resetInterval, rfl, hs', fun d => ⟨_, rfl⟩, ?_⟩
      simp only [Bool.and_eq_true] at he
      simp [he]
    · rw [if_neg he]
      refine ⟨c, s', id, rfl, hs', fun d => ⟨_, rfl⟩, ?_⟩
      rw [hid]
      grind

/-- On a consistent scene the short-cutting updates leave the truth words the
recomputation leaves, and leave them consistent; the update of an event
condition that triggers every time leaves those of the recomputation for
false. -/
theorem condTrueUpdate_refines_condTrueInit (hw : s.Wf) (hc : s.Consistent) :
    (∀ l, ∀ p ∈ s.ptrs l .event, ∀ b, ∃ c s₁ s₂ t,
      s.node? p = some c ∧ sceneEventCondTrueUpdate s b p = some (s₂, t) ∧ s₂.Consistent ∧
        sceneEventCondTrueInit s
          (if strstr c.stCond.acTriggerType triggerEvery then false else b) p = some s₁ ∧
        s₂.truthState = s₁.truthState) ∧
    (∀ l, ∀ p ∈ s.ptrs l .time, ∀ b, ∃ s₁ s₂ t,
      sceneTimeCondTrueUpdate s b p = some (s₂, t) ∧ s₂.Consistent ∧
        sceneTimeCondTrueInit s b p = some s₁ ∧ s₂.truthState = s₁.truthState) := by
  constructor
  · intro l p hp b
    obtain ⟨c, s', s'', hnode, hs', hs'', hu⟩ := sceneEventCondTrueUpdate_eq hw hc hp b
    refine ⟨c, s'', s'', _, hnode, hu, (condTrueInit_step hw hc hs'').2.1, ?_, rfl⟩
    rw [← hs'', EventCond.leftTrue, sceneEventCondTrueInit]
    cases strstr c.stCond.acTriggerType triggerEvery <;> simp
  · intro l p hp b
    obtain ⟨c, s', f, -, hs', -, hu⟩ := sceneTimeCondTrueUpdate_eq hw hc hp b
    exact ⟨s', _, _, hu, (condTrueInit_step hw hc hs').2.1.modifyCond, hs',
      SceneInfo.truthState_modifyCond f⟩

/-- The scene with one condition, which an event makes true. -/
theorem condTrueUpdate_refines_condTrueInit_sample :
    ∃ c s₁ s₂ t,
      (Sample.scene (Sample.after
        (sceneEventOrCondAdd Sample.list 0 (Sample.eventCond ['k'] [])))).node?
          (⟨.or, 1, 2⟩ : CondPtr .event) = some c ∧
      sceneEventCondTrueUpdate (Sample.scene (Sample.after
        (sceneEventOrCondAdd Sample.list 0 (Sample.eventCond ['k'] [])))) true ⟨.or, 1, 2⟩ =
          some (s₂, t) ∧ s₂.Consistent ∧
      sceneEventCondTrueInit (Sample.scene (Sample.after
        (sceneEventOrCondAdd Sample.list 0 (Sample.eventCond ['k'] []))))
          (if strstr c.stCond.acTriggerType triggerEvery then false else true) ⟨.or, 1, 2⟩ =
          some s₁ ∧
      s₂.truthState = s₁.truthState :=
  (condTrueUpdate_refines_condTrueInit (by decide) (by decide)).1 .or ⟨.or, 1, 2⟩ (by decide) true

end Honyar.LocalScene
