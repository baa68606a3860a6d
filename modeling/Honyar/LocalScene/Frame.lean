import Honyar.LocalScene.Engine
import Honyar.LocalScene.Update

/-!
# What the updates leave alone

The updates with short cuts on scenes of which nothing is known but that their
sets are: they write truth words and nothing else, and of the conditions only
the one they are called for reads a new truth.
-/

namespace Honyar.LocalScene

open Option SceneInfo

variable {k : Kind}
variable {x x' : SceneList} {p : CondPtr .event} {b old : Bool} {ts : List Trigger}
  {c : CondNode .event} {iTime : Int} {os : List Effect} {a : Nat}

/-! ## Texts -/

namespace SceneInfo

variable (s : SceneInfo)

@[simp] theorem acSceneId_setList (l : Logic) (k : Kind) (x : CondList l k) :
    (s.setList l k x).acSceneId = s.acSceneId := by
  cases l <;> cases k <;> rfl

@[simp] theorem acSceneEnable_setList (l : Logic) (k : Kind) (x : CondList l k) :
    (s.setList l k x).acSceneEnable = s.acSceneEnable := by
  cases l <;> cases k <;> rfl

@[simp] theorem acSceneEnable_modifyCond (p : CondPtr k) (f : Cond k → Cond k) :
    (s.modifyCond p f).acSceneEnable = s.acSceneEnable := acSceneEnable_setList ..

variable {s} {s' : SceneInfo}

theorem acSceneId_of_eraseTruth_eq (h : s'.eraseTruth = s.eraseTruth) :
    s'.acSceneId = s.acSceneId := by
  have := congrArg acSceneId h
  exact this

theorem acSceneEnable_of_eraseTruth_eq (h : s'.eraseTruth = s.eraseTruth) :
    s'.acSceneEnable = s.acSceneEnable := by
  have := congrArg acSceneEnable h
  exact this

end SceneInfo

/-! ## Chains -/

/-- The sets of a list are at different addresses and well formed, whatever the
list counts. -/
structure CondList.Chained {l : Logic} (x : CondList l k) : Prop where
  addr : (x.stList.map CondSetNode.addr).Nodup
  sets : ∀ n ∈ x.stList, n.Wf

/-- All four lists are chained. -/
def SceneInfo.Chained (s : SceneInfo) : Prop := ∀ l k, (s.list l k).Chained

theorem CondList.Wf.chained {l : Logic} {x : CondList l k} (h : x.Wf) : x.Chained :=
  ⟨h.addr, h.sets⟩

theorem SceneInfo.forall_sets_of_eraseTruth_eq {s s' : SceneInfo} (h : s'.eraseTruth = s.eraseTruth)
    {l : Logic} {P : CondSetNode k → Prop} (hP : ∀ n, P n.eraseTruth ↔ P n)
    (hs : ∀ n ∈ (s.list l k).stList, P n) : ∀ n ∈ (s'.list l k).stList, P n := by
  intro n hn
  have hlist := congrArg (fun r => (r.list l k).stList) h
  simp only [list_eraseTruth, CondList.eraseTruth] at hlist
  obtain ⟨m, hm, hmn⟩ := List.mem_map.mp (hlist ▸ List.mem_map_of_mem hn)
  rw [← hP n, ← hmn, hP m]
  exact hs m hm

theorem SceneInfo.Chained.of_eraseTruth_eq {s s' : SceneInfo} (hs : s.Chained)
    (h : s'.eraseTruth = s.eraseTruth) : s'.Chained := by
  intro l k
  refine ⟨?_, ?_⟩
  · have hlist := congrArg (fun r => (r.list l k).stList.map CondSetNode.addr) h
    simp only [list_eraseTruth] at hlist
    rw [CondList.map_eraseTruth fun _ => rfl, CondList.map_eraseTruth fun _ => rfl] at hlist
    rw [hlist]
    exact (hs l k).addr
  · exact forall_sets_of_eraseTruth_eq h
      (fun n => ⟨fun h => ⟨h.index, h.count, h.pos, h.le, h.addr⟩,
        fun h => ⟨h.index, h.count, h.pos, h.le, h.addr⟩⟩) (hs l k).sets

/-! ## Truth words -/

theorem condSetTrueUpdate_eraseTruth (s : SceneInfo) (l : Logic) (k : Kind) (i : Nat) (b : Bool) :
    (condSetTrueUpdate s l k i b).eraseTruth = s.eraseTruth := by
  simp only [condSetTrueUpdate]
  split
  · split
    · split <;> simp
    · simp
  · rfl

theorem set?_condSetTrueUpdate (s : SceneInfo) (l : Logic) (k : Kind) (i : Nat) (b : Bool)
    {k' : Kind} (q : CondPtr k') : (condSetTrueUpdate s l k i b).set? q = s.set? q := by
  have hwrite : (s.writeCondSetTrue l k i b).set? q = s.set? q := by
    rw [set?, set?, writeCondSetTrue]
    by_cases h : q.acLogic = l ∧ k' = k
    · obtain ⟨rfl, rfl⟩ := h
      rw [list_setList_self]
      rfl
    · rw [list_setList_of_ne _ _ h]
  have hlist : ∀ c, ((s.writeCondSetTrue l k i b).setListTrue l k c).set? q = s.set? q := by
    intro c
    rw [← hwrite, set?, set?, list_setListTrue]
  simp only [condSetTrueUpdate]
  split
  · split
    · split
      · exact hlist _
      · exact hlist _
    · exact hwrite
  · rfl

theorem condTrueUpdate_some {s s' : SceneInfo} {p : CondPtr k}
    (h : condTrueUpdate s p b = some (s', old)) :
    ∃ n c, s.set? p = some n ∧ n.node? p.pCondNode = some c ∧
      old = Mask.test n.uiCondTrue c.iCondIndex ∧
      (b = old ∧ s' = s ∨
        b ≠ old ∧ s' = condSetTrueUpdate
          (s.modifySet p (.setCondTrue (Mask.write n.uiCondTrue c.iCondIndex b))) p.acLogic k
          n.iCondSetIndex
          (p.acLogic.wordTrue (Mask.write n.uiCondTrue c.iCondIndex b) n.ucCondCount)) := by
  simp only [condTrueUpdate, bind_eq_bind, bind_eq_some_iff] at h
  obtain ⟨n, hn, c, hc, h⟩ := h
  split at h
  · rename_i hne
    simp only [pure_def, some.injEq, Prod.mk.injEq] at h
    obtain ⟨rfl, rfl⟩ := h
    exact ⟨n, c, hn, hc, rfl, .inr ⟨hne, rfl⟩⟩
  · rename_i heq
    simp only [pure_def, some.injEq, Prod.mk.injEq] at h
    obtain ⟨rfl, rfl⟩ := h
    exact ⟨n, c, hn, hc, rfl, .inl ⟨not_not.mp heq, rfl⟩⟩

theorem condTrueUpdate_eraseTruth {s s' : SceneInfo} {p : CondPtr k}
    (h : condTrueUpdate s p b = some (s', old)) : s'.eraseTruth = s.eraseTruth := by
  obtain ⟨n, c, -, -, -, ⟨-, rfl⟩ | ⟨-, rfl⟩⟩ := condTrueUpdate_some h
  · rfl
  · rw [condSetTrueUpdate_eraseTruth]
    exact eraseTruth_modifySet s p _ fun _ => rfl

theorem condTrueUpdate_truths {s s' : SceneInfo} {p : CondPtr k} (hw : s.Chained)
    (h : condTrueUpdate s p b = some (s', old)) :
    old = s.condTrue p ∧ s'.truths = Function.update s.truths ⟨k, p⟩ b := by
  obtain ⟨n, c, hn, hc, hold, hs'⟩ := condTrueUpdate_some h
  have hnw := (hw _ _).sets n (List.mem_of_find?_eq_some hn)
  have hi := hnw.index_lt_32 (hnw.node?_eq_some.mp hc).1
  have hread : old = s.condTrue p := by
    rw [hold, Mask.test_eq _ hi, condTrue_eq hn hc]
  refine ⟨hread, ?_⟩
  rcases hs' with ⟨rfl, rfl⟩ | ⟨-, rfl⟩
  · exact (Function.update_eq_self_iff.mpr hread).symm
  · rw [← truths_modifySet_write hnw hn hc]
    funext ⟨k', q⟩
    simp only [truths, condTrue, set?_condSetTrueUpdate]

/-! ## The two updates -/

theorem sceneEventCondTrueUpdateOnce_some {s s' : SceneInfo}
    (h : sceneEventCondTrueUpdateOnce s b p = some (s', ts)) :
    ∃ old, condTrueUpdate s p b = some (s', old) := by
  simp only [sceneEventCondTrueUpdateOnce, bind_eq_bind, bind_eq_some_iff] at h
  obtain ⟨c, -, ⟨s₁, old⟩, hu, h⟩ := h
  refine ⟨old, ?_⟩
  split at h <;>
  · simp only [pure_def, some.injEq, Prod.mk.injEq] at h
    rw [hu, h.1]

theorem sceneEventCondTrueUpdate_eraseTruth {s s' : SceneInfo}
    (h : sceneEventCondTrueUpdate s b p = some (s', ts)) : s'.eraseTruth = s.eraseTruth := by
  simp only [sceneEventCondTrueUpdate, bind_eq_bind, bind_eq_some_iff] at h
  obtain ⟨c, -, ⟨s₁, ts₁⟩, h₁, h⟩ := h
  obtain ⟨old, hu⟩ := sceneEventCondTrueUpdateOnce_some h₁
  split at h
  · simp only [bind_eq_some_iff, pure_def, some.injEq, Prod.mk.injEq] at h
    obtain ⟨⟨s₂, ts₂⟩, h₂, rfl, -⟩ := h
    obtain ⟨old', hu'⟩ := sceneEventCondTrueUpdateOnce_some h₂
    rw [condTrueUpdate_eraseTruth hu', condTrueUpdate_eraseTruth hu]
  · simp only [pure_def, some.injEq, Prod.mk.injEq] at h
    rw [← h.1, condTrueUpdate_eraseTruth hu]

theorem sceneEventCondTrueUpdate_truths {s s' : SceneInfo} (hw : s.Chained)
    (hc : s.node? p = some c) (h : sceneEventCondTrueUpdate s b p = some (s', ts)) :
    s'.truths = Function.update s.truths ⟨.event, p⟩ (c.stCond.leftTrue b) := by
  simp only [sceneEventCondTrueUpdate, hc, bind_eq_bind, bind_some,
    bind_eq_some_iff] at h
  obtain ⟨⟨s₁, ts₁⟩, h₁, h⟩ := h
  obtain ⟨old, hu⟩ := sceneEventCondTrueUpdateOnce_some h₁
  have ht₁ := (condTrueUpdate_truths hw hu).2
  split at h
  · rename_i hevery
    simp only [bind_eq_some_iff, pure_def, some.injEq, Prod.mk.injEq] at h
    obtain ⟨⟨s₂, ts₂⟩, h₂, rfl, -⟩ := h
    obtain ⟨old', hu'⟩ := sceneEventCondTrueUpdateOnce_some h₂
    have hleft : c.stCond.leftTrue b = false := by
      simp only [Bool.and_eq_true] at hevery
      simp [EventCond.leftTrue, hevery.1]
    rw [(condTrueUpdate_truths (hw.of_eraseTruth_eq (condTrueUpdate_eraseTruth hu)) hu').2, ht₁,
      Function.update_idem, hleft]
  · rename_i hevery
    simp only [pure_def, some.injEq, Prod.mk.injEq] at h
    have hleft : c.stCond.leftTrue b = b := by
      cases b <;> simp_all [EventCond.leftTrue]
    rw [← h.1, ht₁, hleft]

theorem condTrueUpdate_isSome {s : SceneInfo} {p : CondPtr k} {c : CondNode k}
    (h : s.node? p = some c) (b : Bool) : ∃ r, condTrueUpdate s p b = some r := by
  simp only [node?, bind_eq_bind, bind_eq_some_iff] at h
  obtain ⟨n, hn, hc⟩ := h
  simp only [condTrueUpdate, hn, hc, bind_eq_bind, bind_some]
  split <;> exact ⟨_, rfl⟩

theorem sceneEventCondTrueUpdateOnce_isSome {s : SceneInfo} (h : s.node? p = some c) (b : Bool) :
    ∃ r, sceneEventCondTrueUpdateOnce s b p = some r := by
  obtain ⟨r, hr⟩ := condTrueUpdate_isSome h b
  simp only [sceneEventCondTrueUpdateOnce, h, hr, bind_eq_bind, bind_some]
  split <;> exact ⟨_, rfl⟩

theorem sceneEventCondTrueUpdate_isSome {s : SceneInfo} (h : s.node? p = some c) (b : Bool) :
    ∃ r, sceneEventCondTrueUpdate s b p = some r := by
  obtain ⟨⟨s₁, ts₁⟩, h₁⟩ := sceneEventCondTrueUpdateOnce_isSome h b
  obtain ⟨old, hu⟩ := sceneEventCondTrueUpdateOnce_some h₁
  have hnode : s₁.node? p = some c := by
    rw [node?_of_eraseTruth_eq (condTrueUpdate_eraseTruth hu), h]
  obtain ⟨r, hr⟩ := sceneEventCondTrueUpdateOnce_isSome hnode false
  simp only [sceneEventCondTrueUpdate, h, h₁, hr, bind_eq_bind, bind_some]
  split <;> exact ⟨_, rfl⟩

/-- The time update writes truth words and the counter of its condition. -/
theorem sceneTimeCondTrueUpdate_some {s s' : SceneInfo} {p : CondPtr .time}
    (h : sceneTimeCondTrueUpdate s b p = some (s', ts)) :
    ∃ c s₁ old f, s.node? p = some c ∧ condTrueUpdate s p b = some (s₁, old) ∧
      s' = s₁.modifyCond p f ∧ (∀ d : TimeCond, ∃ i, f d = { d with iTriggerInterval := i }) ∧
      ts = if b && (!old ||
          CText.strstr c.stCond.acTriggerType triggerEvery &&
            decide (c.stCond.iTriggerInterval ≤ 0)) && s₁.ucSceneCondTrue
        then [.exec] else [] := by
  have hid : ∀ z : SceneInfo, z = z.modifyCond p id := fun z => (z.modifyCond_id p).symm
  have hsame : ∀ d : TimeCond, ∃ i, id d = { d with iTriggerInterval := i } := fun d => ⟨_, rfl⟩
  have hreset : ∀ d : TimeCond, ∃ i, d.resetInterval = { d with iTriggerInterval := i } :=
    fun d => ⟨_, rfl⟩
  have hcount : ∀ d : TimeCond, ∃ i, d.countInterval = { d with iTriggerInterval := i } :=
    fun d => ⟨_, rfl⟩
  simp only [sceneTimeCondTrueUpdate, bind_eq_bind, bind_eq_some_iff] at h
  obtain ⟨c, hc, ⟨s₁, old⟩, hu, h⟩ := h
  simp only at h
  split at h
  · rename_i hne
    split at h <;> rename_i hfire <;>
      simp only [pure_def, some.injEq, Prod.mk.injEq] at h <;>
      obtain ⟨rfl, rfl⟩ := h
    · refine ⟨c, s₁, old, TimeCond.resetInterval, hc, hu, rfl, hreset, ?_⟩
      simp only [Bool.and_eq_true] at hfire
      simp [hfire]
    · refine ⟨c, s₁, old, id, hc, hu, hid _, hsame, ?_⟩
      rw [if_neg]
      grind
  · rename_i heq
    rw [not_not] at heq
    subst heq
    split at h
    · rename_i hevery
      simp only [Bool.and_eq_true] at hevery
      split at h <;> rename_i hinterval <;>
        simp only [pure_def, some.injEq, Prod.mk.injEq] at h <;>
        obtain ⟨rfl, rfl⟩ := h
      · refine ⟨c, s₁, b, TimeCond.resetInterval, hc, hu, rfl, hreset, ?_⟩
        simp [hevery, hinterval]
      · refine ⟨c, s₁, b, TimeCond.countInterval, hc, hu, rfl, hcount, ?_⟩
        simp [hevery, hinterval]
    · rename_i hevery
      simp only [pure_def, some.injEq, Prod.mk.injEq] at h
      obtain ⟨rfl, rfl⟩ := h
      refine ⟨c, s₁, b, id, hc, hu, hid _, hsame, ?_⟩
      rw [if_neg]
      grind

/-! ## One node of the chain of an event -/

/-- What `scene_list_event` does at a node: nothing for a disabled scene; else
the condition sees the value, and is updated unless it is of type `StateSync`. -/
theorem eventCondNode_cases {x x' : Engine} {e : Event} {p : PtrNode}
    (h : eventCondNode iTime e x p = some (x', os)) :
    ∃ s, x.list.scene? p.pstScene = some s ∧
      (s.disabled = true ∧ x' = x ∧ os = [] ∨
      s.disabled = false ∧ ∃ q c, p.condPtr? .event = some q ∧ s.node? q = some c ∧
        ((c.stCond.acTriggerType = triggerStateSync ∧ ∃ y,
            (if CText.strncmpEq valueMaxLen c.stCond.acLastValue e.acValue then some x.sync
              else stateSync x.sync iTime s e) = some y ∧
            x' = ⟨x.list.setScene p.pstScene (s.modifyCond q (EventCond.seen e)), y⟩ ∧
            os = [.eval p.pstScene q]) ∨
        (c.stCond.acTriggerType ≠ triggerStateSync ∧ ∃ s' ts,
            sceneEventCondTrueUpdate (s.modifyCond q (EventCond.seen e))
              (sceneEventCondIsTrue c.stCond e) q = some (s', ts) ∧
            x' = ⟨((x.list.setScene p.pstScene s').fire iTime p.pstScene s' p.addr ts).1,
              x.sync⟩ ∧
            os = .eval p.pstScene q ::
              ((x.list.setScene p.pstScene s').fire iTime p.pstScene s' p.addr ts).2))) := by
  simp only [eventCondNode, bind_eq_bind, bind_eq_some_iff] at h
  obtain ⟨s, hs, h⟩ := h
  refine ⟨s, hs, ?_⟩
  split at h
  · rename_i hdis
    simp only [pure_def, some.injEq, Prod.mk.injEq] at h
    exact .inl ⟨hdis, h.1.symm, h.2.symm⟩
  · rename_i hdis
    simp only [bind_eq_some_iff] at h
    obtain ⟨q, hq, c, hc, h⟩ := h
    refine .inr ⟨by simpa using hdis, q, c, hq, hc, ?_⟩
    split at h
    · rename_i hsync
      refine .inl ⟨hsync, ?_⟩
      split at h
      · rename_i hsame
        simp only [pure_def, bind_some, some.injEq, Prod.mk.injEq] at h
        exact ⟨_, if_pos hsame, h.1.symm, h.2.symm⟩
      · rename_i hsame
        simp only [bind_eq_some_iff, pure_def, some.injEq,
          Prod.mk.injEq] at h
        obtain ⟨y, hy, rfl, rfl⟩ := h
        exact ⟨y, (if_neg hsame).trans hy, rfl, rfl⟩
    · rename_i hsync
      simp only [bind_eq_some_iff, pure_def, some.injEq, Prod.mk.injEq] at h
      obtain ⟨⟨s', ts⟩, hu, rfl, rfl⟩ := h
      exact .inr ⟨hsync, s', ts, hu, rfl, rfl⟩

/-! ## One node of the chain of a panel -/

theorem active_cases (h : x.active iTime a = some (x', os)) :
    ∃ s, x.scene? a = some s ∧
      (x' = x ∧ os = [] ∨ s.enabled = true ∧ (x', os) = x.exec iTime a s) := by
  simp only [SceneList.active, bind_eq_bind, bind_eq_some_iff, pure_def] at h
  obtain ⟨s, hs, h⟩ := h
  refine ⟨s, hs, ?_⟩
  by_cases he : s.enabled = true
  · simp only [he, if_true] at h
    split at h
    · exact .inr ⟨he, (some.inj h).symm⟩
    · split at h
      · exact .inr ⟨he, (some.inj h).symm⟩
      · simp only [some.injEq, Prod.mk.injEq] at h
        exact .inl ⟨h.1.symm, h.2.symm⟩
  · simp only [he, if_false, ite_self, some.injEq, Prod.mk.injEq, Bool.false_eq_true] at h
    exact .inl ⟨h.1.symm, h.2.symm⟩

theorem eventPanelNode_cases {x x' : Engine} {p : PtrNode}
    (h : eventPanelNode iTime x p = some (x', os)) :
    ∃ s, x.list.scene? p.pstScene = some s ∧
      (x' = x ∧ os = [] ∨ s.enabled = true ∧ x'.sync = x.sync ∧
        (x'.list, os) = x.list.exec iTime p.pstScene s) := by
  simp only [eventPanelNode, bind_eq_bind, bind_eq_some_iff] at h
  obtain ⟨s, hs, a, -, n, -, h⟩ := h
  refine ⟨s, hs, ?_⟩
  split at h
  · simp only [bind_eq_some_iff, pure_def, some.injEq, Prod.mk.injEq] at h
    obtain ⟨⟨y, os'⟩, ha, rfl, rfl⟩ := h
    obtain ⟨s', hs', ⟨rfl, rfl⟩ | ⟨he, hexec⟩⟩ := active_cases ha
    · exact .inl ⟨rfl, rfl⟩
    · rw [hs, some.injEq] at hs'
      subst hs'
      exact .inr ⟨he, rfl, hexec⟩
  · simp only [pure_def, some.injEq, Prod.mk.injEq] at h
    exact .inl ⟨h.1.symm, h.2.symm⟩

/-! ## The loop over scenes, and timers -/

theorem timeTrueLoop_cons {now : Tm} {n : SceneNode} {ns : List SceneNode}
    (h : timeTrueLoop iTime now x (n :: ns) = some (x', os)) :
    ∃ s' ts os', sceneTimeCheck now n.stSceneInfo = some (s', ts) ∧
      timeTrueLoop iTime now ((x.setScene n.addr s').fire iTime n.addr s' 0 ts).1 ns =
        some (x', os') ∧
      os = ((x.setScene n.addr s').fire iTime n.addr s' 0 ts).2 ++ os' := by
  simp only [timeTrueLoop, bind_eq_bind, bind_eq_some_iff, pure_def,
    some.injEq, Prod.mk.injEq] at h
  obtain ⟨⟨s', ts⟩, hcheck, ⟨x₂, os₂⟩, hloop, rfl, rfl⟩ := h
  exact ⟨s', ts, os₂, hcheck, hloop, rfl⟩

theorem sceneContinueTriggerTimerFun_cases {i : Nat}
    (h : sceneContinueTriggerTimerFun x iTime i = some (x', os)) :
    ∃ t e s, x.timers[i]? = some t ∧ x.ptrNode? t.pstCondPtr = some e ∧
      x.scene? e.pstScene = some s ∧
      (s.ucSceneCondTrue = true ∧
        (x', os) = { x with timers := x.timers.eraseIdx i }.exec iTime e.pstScene s ∨
      s.ucSceneCondTrue = false ∧ x' = { x with timers := x.timers.eraseIdx i } ∧ os = []) := by
  simp only [sceneContinueTriggerTimerFun, bind_eq_bind, bind_eq_some_iff] at h
  obtain ⟨t, ht, e, he, s, hs, h⟩ := h
  refine ⟨t, e, s, ht, he, hs, ?_⟩
  split at h
  · rename_i htrue
    exact .inl ⟨htrue, (some.inj h).symm⟩
  · rename_i htrue
    obtain ⟨rfl, rfl⟩ := Prod.mk.inj (some.inj h)
    exact .inr ⟨by simpa using htrue, rfl, rfl⟩

theorem sceneContinueTriggerTimerFun_stList {i : Nat}
    (h : sceneContinueTriggerTimerFun x iTime i = some (x', os)) :
    x'.stList = x.stList ∧ x'.pHashTable = x.pHashTable ∧ x'.heap = x.heap := by
  obtain ⟨t, e, s, -, -, -, ⟨-, hexec⟩ | ⟨-, rfl, -⟩⟩ := sceneContinueTriggerTimerFun_cases h
  · obtain ⟨rfl, -⟩ := Prod.mk.inj hexec
    exact ⟨rfl, rfl, rfl⟩
  · exact ⟨rfl, rfl, rfl⟩

/-! ## Panels and scenes -/

/-- Binding writes the panel that is filed, or appends and files a new one. -/
theorem sceneBind_eq_some {i : ScenePanel} (h : sceneBind x a i = some x') :
    ∃ s, x.scene? a = some s ∧
      ((∃ e n t, ptrHashFind x.pHashTable (panelHashKey i.acDevId i.acKey i.acValue)
          s.acSceneId = some e ∧ e.panelPtr? = some n ∧ x.scene? e.pstScene = some t ∧
        x' = x.setScene e.pstScene { t with
          pstPanel := t.pstPanel.map fun m =>
            if m.addr = n then
              { m with stPanel := { m.stPanel with
                acEnable := CText.strncpy stateMaxLen i.acEnable } }
            else m }) ∨
      ptrHashFind x.pHashTable (panelHashKey i.acDevId i.acKey i.acValue) s.acSceneId = none ∧
        x' = { x.setScene a { s with pstPanel := s.pstPanel ++ [⟨x.heap, i⟩] } with
          pHashTable := ptrHashInst x.pHashTable (panelHashKey i.acDevId i.acKey i.acValue)
            ⟨x.heap + 1, CText.strncpy indexMaxLen s.acSceneId, a, .panel x.heap⟩
          heap := x.heap + 2 }) := by
  simp only [sceneBind, bind_eq_bind, bind_eq_some_iff] at h
  obtain ⟨s, hs, h⟩ := h
  refine ⟨s, hs, ?_⟩
  split at h
  · rename_i e hfind
    simp only [bind_eq_some_iff, pure_def, some.injEq] at h
    obtain ⟨n, hn, t, ht, rfl⟩ := h
    exact .inl ⟨e, n, t, hfind, hn, ht, rfl⟩
  · rename_i hfind
    exact .inr ⟨hfind, (some.inj h).symm⟩

theorem sceneUnbind_eq_some {i : ScenePanel} {r : ErrNo} (h : sceneUnbind x a i = some (x', r)) :
    ∃ s, x.scene? a = some s ∧
      ((∃ e n, ptrHashFind x.pHashTable (panelHashKey i.acDevId i.acKey i.acValue)
          s.acSceneId = some e ∧ e.panelPtr? = some n ∧ e.pstScene = a ∧
        x' = { x.setScene a { s with pstPanel := s.pstPanel.filter (·.addr != n) } with
          pHashTable := ptrHashDel x.pHashTable (panelHashKey i.acDevId i.acKey i.acValue)
            s.acSceneId }) ∨ x' = x) := by
  simp only [sceneUnbind, bind_eq_bind, bind_eq_some_iff] at h
  obtain ⟨s, hs, h⟩ := h
  refine ⟨s, hs, ?_⟩
  split at h
  · rename_i e hfind
    obtain ⟨n, hn, h⟩ := bind_eq_some_iff.mp h
    split at h
    · rename_i hea
      obtain ⟨rfl, -⟩ := Prod.mk.inj (some.inj h)
      exact .inl ⟨e, n, hfind, hn, hea, rfl⟩
    · cases h
  · exact .inr (Prod.mk.inj (some.inj h)).1.symm

theorem sceneListDel_eq_some {i : CText} {r : ErrNo} (h : sceneListDel x i = some (x', r)) :
    x' = x ∨ ∃ a x₁ x₂ x₃ x₄ s, sceneListGet x i = some a ∧
      condClear x a .or .time = some x₁ ∧ condClear x₁ a .or .event = some x₂ ∧
      condClear x₂ a .and .time = some x₃ ∧ condClear x₃ a .and .event = some x₄ ∧
      x₄.scene? a = some s ∧
      x' = { x₄ with
        pHashTable := s.pstPanel.foldl (fun h n =>
          ptrHashDel h (panelHashKey n.stPanel.acDevId n.stPanel.acKey n.stPanel.acValue)
            s.acSceneId) x₄.pHashTable
        stList := x₄.stList.filter (·.addr != a) } := by
  rw [sceneListDel] at h
  split at h
  · exact .inl (Prod.mk.inj (some.inj h)).1.symm
  · rename_i a hget
    simp only [bind_eq_bind, bind_eq_some_iff, pure_def, some.injEq,
      Prod.mk.injEq, sceneBindClear] at h
    obtain ⟨x₁, h₁, x₂, h₂, x₃, h₃, x₄, h₄, x₅, ⟨s, hs, rfl⟩, rfl, -⟩ := h
    exact .inr ⟨a, x₁, x₂, x₃, x₄, s, hget, h₁, h₂, h₃, h₄, hs, rfl⟩

end Honyar.LocalScene
