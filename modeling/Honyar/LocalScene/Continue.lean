import Honyar.LocalScene.IntegrityRun
import Honyar.LocalScene.Routing
import Honyar.LocalScene.SceneTimer
import Mathlib.Data.List.Perm.Basic

/-!
# `Continue` triggers

A condition that triggers when the scene was true for some time starts a timer
where it comes true.  Nothing stops the timer when the scene falls: when the time
is over the scene is looked at again, and a scene that fell and rose in between
is executed as if it had been true throughout.

`Continues` is what a run of events and ticks should satisfy.  It does when, as
long as a timer runs for a scene that is false, no event changes the truth of a
condition of that scene.
-/

namespace Honyar.LocalScene

open CText Option SceneList EventCond SceneInfo Clocked Run ClockOut
open List hiding pure_def
open List (append_assoc append_nil cons_append countP_append countP_map map_cons mem_append
  mem_cons_self mem_filter nil_append)

variable {n : PtrNode} {c : CondNode .event} {s s' : SceneInfo} {q : CondPtr .event} {b : Bool}

/-! ## What is to hold -/

/-- The event makes the condition the node leads to true, which was false and
triggers when the scene was true for `ulTime` ticks. -/
def RisingEdge (x : SceneList) (e : Event) (n : PtrNode) (ulTime : Nat) : Prop :=
  ∃ s q c, x.scene? n.pstScene = some s ∧ s.disabled = false ∧ n.condPtr? .event = some q ∧
    s.node? q = some c ∧ s.condTrue q = false ∧ sceneEventCondIsTrue c.stCond e = true ∧
    strstr c.stCond.acTriggerType triggerContinue = true ∧
    atoi c.stCond.acContinueTime = ulTime ∧ 0 < ulTime

/-- A tick. -/
def ClockAct.isTick : ClockAct → Bool
  | .tick _ => true
  | .event _ _ => false

/-- The number of ticks. -/
def ticks (as : List ClockAct) : Nat := as.countP ClockAct.isTick

/-- A timer was started for the condition of a node. -/
def ClockOut.isArmed (pstCondPtr : Nat) : ClockOut → Bool
  | .armed p _ => p == pstCondPtr
  | .queued _ _ _ => false

/-- The timer of the condition of a node executed the scene. -/
def ClockOut.isQueued (pstCondPtr : Nat) : ClockOut → Bool
  | .armed _ _ => false
  | .queued p _ _ => p == pstCondPtr

/-- With one tick more, it is `ulTime` ticks since the condition of a node came
true, and the scene was true ever since. -/
def Lasted (z₀ : Clocked) (as : List ClockAct) (pstCondPtr ulTime : Nat) : Prop :=
  ∃ bs iTime e cs z o, as = bs ++ .event iTime e :: cs ∧ Run.run Clocked.step z₀ bs = some (z, o) ∧
    (∃ n ∈ e.nodes z.engine.list, n.addr = pstCondPtr ∧
      RisingEdge z.engine.list e n ulTime) ∧
    ticks cs + 1 = ulTime ∧
    ∀ ds, ds <+: cs → ∀ w o, Run.run Clocked.step z₀ (bs ++ .event iTime e :: ds) = some (w, o) →
      w.engine.list.sceneTrue? pstCondPtr = some true

/-- The timers of a run: one executes the scene only when it lasted, one is
started only where a condition comes true, once for each condition, and each
executes the scene at most once. -/
structure Continues (z₀ : Clocked) (as : List ClockAct) (os : List ClockOut) : Prop where
  lasted : ∀ bs iTime cs z o z' o', as = bs ++ .tick iTime :: cs →
    Run.run Clocked.step z₀ bs = some (z, o) → z.step (.tick iTime) = some (z', o') →
    ∀ p n q, .queued p n q ∈ o' → Lasted z₀ bs p n
  edges : ∀ bs iTime e cs z o z' o', as = bs ++ .event iTime e :: cs →
    Run.run Clocked.step z₀ bs = some (z, o) → z.step (.event iTime e) = some (z', o') →
    ∃ ns, ns.Sublist (e.nodes z.engine.list) ∧ List.Forall₂ (fun n w => ∃ ulTime,
      w = .armed n.addr ulTime ∧ RisingEdge z.engine.list e n ulTime) ns o'
  once : ∀ p, os.countP (ClockOut.isQueued p) ≤ os.countP (ClockOut.isArmed p)

/-- The event changes the truth of the condition a node leads to. -/
def Event.Changes (e : Event) (x : SceneList) (n : PtrNode) : Prop :=
  ∃ s ∈ x.scene? n.pstScene, s.disabled = false ∧ ∃ q ∈ n.condPtr? .event, ∃ c ∈ s.node? q,
    c.stCond.acTriggerType ≠ triggerStateSync ∧
      (sceneEventCondIsTrue c.stCond e ≠ s.condTrue q ∨
        strstr c.stCond.acTriggerType triggerEvery = true ∧ sceneEventCondIsTrue c.stCond e = true)

instance (e : Event) (x : SceneList) (n : PtrNode) : Decidable (e.Changes x n) :=
  inferInstanceAs (Decidable (∃ s ∈ x.scene? n.pstScene, s.disabled = false ∧
    ∃ q ∈ n.condPtr? .event, ∃ c ∈ s.node? q, c.stCond.acTriggerType ≠ triggerStateSync ∧
      (sceneEventCondIsTrue c.stCond e ≠ s.condTrue q ∨
        strstr c.stCond.acTriggerType triggerEvery = true ∧
          sceneEventCondIsTrue c.stCond e = true)))

/-- The timers in use. -/
def TimerList.pending {α : Type} (ts : TimerList α) : List (TaskTimer α) := ts.filterMap id

/-- As long as a timer runs for a scene that is false, no event changes the
truth of a condition of that scene. -/
def ClockAct.Quiet (z : Clocked) : ClockAct → Prop
  | .tick _ => True
  | .event _ e => ∀ t ∈ TimerList.pending z.timers,
      z.engine.list.sceneTrue? t.pFunArg = some false →
        ∀ m ∈ z.engine.list.ptrNode? t.pFunArg, ∀ n ∈ e.nodes z.engine.list,
          n.pstScene = m.pstScene → ¬ e.Changes z.engine.list n

instance ClockAct.decidableQuiet (z : Clocked) : (act : ClockAct) → Decidable (act.Quiet z)
  | .tick _ => inferInstanceAs (Decidable True)
  | .event _ e => inferInstanceAs (Decidable (∀ t ∈ TimerList.pending z.timers,
      z.engine.list.sceneTrue? t.pFunArg = some false →
        ∀ m ∈ z.engine.list.ptrNode? t.pFunArg, ∀ n ∈ e.nodes z.engine.list,
          n.pstScene = m.pstScene → ¬ e.Changes z.engine.list n))

/-! ## Addresses of nodes -/

/-- The nodes of the hash table are at different addresses. -/
structure NodeAddrs (x : SceneList) : Prop where
  nodup : (x.pHashTable.map fun e => e.2.addr).Nodup
  below : ∀ e ∈ x.pHashTable, e.2.addr < x.heap

namespace NodeAddrs

variable {x x' : SceneList}

theorem sublist (hx : NodeAddrs x) (hsub : x'.pHashTable.Sublist x.pHashTable)
    (hheap : x.heap ≤ x'.heap) : NodeAddrs x' :=
  ⟨(hsub.map _).nodup hx.nodup, fun e he => lt_of_lt_of_le (hx.below e (hsub.subset he)) hheap⟩

theorem inst (hx : NodeAddrs x) {key : CText}
    (hhash : x'.pHashTable = ptrHashInst x.pHashTable key n) (hle : x.heap ≤ n.addr)
    (hlt : n.addr < x'.heap) : NodeAddrs x' := by
  refine ⟨?_, fun e he => ?_⟩
  · rw [hhash, ptrHashInst, map_cons, nodup_cons]
    refine ⟨fun hmem => ?_, hx.nodup⟩
    obtain ⟨e, he, hea⟩ := mem_map.mp hmem
    exact absurd (hx.below e he) (not_lt.mpr (hea ▸ hle))
  · rw [hhash] at he
    rcases mem_cons.mp he with rfl | he
    · exact hlt
    · exact lt_trans (lt_of_lt_of_le (hx.below e he) hle) hlt

theorem touches (hx : NodeAddrs x) (h : x.Touches x') : NodeAddrs x' :=
  hx.sublist (h.pHashTable ▸ List.Sublist.refl _) h.heap.ge

theorem ptrNode?_eq (hx : NodeAddrs x) {key : CText} (hn : (key, n) ∈ x.pHashTable) :
    x.ptrNode? n.addr = some n := by
  rw [ptrNode?, (Keyed.find?_eq_some_iff hx.nodup).mpr ⟨hn, rfl⟩]
  rfl

end NodeAddrs

section

variable {l : Logic} {k : Kind} {x x' : SceneList} {a : Nat}
variable {r : ErrNo}

theorem sceneCondAdd_nodeAddrs {c : Cond k} (hx : NodeAddrs x)
    (h : sceneCondAdd x a l c = some (x', r)) : NodeAddrs x' := by
  rcases sceneCondAdd_cases h with ⟨-, s, -, rfl⟩ | ⟨-, x₁, e, hfile, hrest⟩
  · exact hx.sublist (List.Sublist.refl _) le_rfl
  have hx₁ : NodeAddrs x₁ := by
    have hscene := hfile
    simp only [fileCond, bind_eq_bind, bind_eq_some_iff] at hscene
    obtain ⟨s, hs, -⟩ := hscene
    rcases fileCond_cases hs hfile with ⟨p, t, d, -, -, -, -, -, rfl⟩ |
      ⟨y, p, -, -, -, rfl, rfl⟩ | ⟨-, -, -, rfl, rfl⟩
    · exact hx.sublist (List.Sublist.refl _) le_rfl
    · exact hx.inst rfl (Nat.le_add_right _ 2) (Nat.lt_succ_self _)
    · exact hx.inst rfl (Nat.le_add_right _ 2) (Nat.lt_succ_self _)
  rcases hrest with ⟨-, rfl⟩ | ⟨-, ⟨b, htrue⟩ | ⟨s₁, -, rfl⟩⟩
  · exact hx₁
  · simp only [SceneList.condTrueInit, bind_eq_bind, bind_eq_some_iff,
      pure_def, some.injEq] at htrue
    obtain ⟨p, -, s, -, s', -, rfl⟩ := htrue
    exact hx₁.sublist (List.Sublist.refl _) le_rfl
  · exact hx₁.sublist (List.Sublist.refl _) le_rfl

theorem sceneCondDel_nodeAddrs {c : Cond k} (hx : NodeAddrs x)
    (h : sceneCondDel x a l c = some (x', r)) : NodeAddrs x' := by
  rcases sceneCondDel_cases h with ⟨-, s, -, rfl⟩ | ⟨-, hdel⟩
  · exact hx.sublist (List.Sublist.refl _) le_rfl
  · obtain ⟨s, hs, -⟩ := bind_eq_some_iff.mp hdel
    obtain ⟨-, -, rfl⟩ | ⟨e, p, s₁, s', -, -, -, -, -, -, rfl⟩ := condDel_eq_some hs hdel
    · exact hx
    · exact hx.sublist (ptrHashDel_sublist ..) le_rfl

theorem condClear_nodeAddrs (hx : NodeAddrs x) (h : condClear x a l k = some x') :
    NodeAddrs x' := by
  obtain ⟨s, -, -, rfl⟩ := condClear_eq_some h
  exact hx.sublist (foldl_ptrHashDel_sublist _ _ _) le_rfl

theorem sceneCondClear_nodeAddrs (hx : NodeAddrs x) (h : sceneCondClear x a l k = some x') :
    NodeAddrs x' := by
  cases l <;> cases k <;> exact condClear_nodeAddrs hx h

theorem sceneBind_nodeAddrs {i : ScenePanel} (hx : NodeAddrs x) (h : sceneBind x a i = some x') :
    NodeAddrs x' := by
  obtain ⟨s, -, ⟨e, n, t, -, -, -, rfl⟩ | ⟨-, rfl⟩⟩ := sceneBind_eq_some h
  · exact hx.sublist (List.Sublist.refl _) le_rfl
  · exact hx.inst rfl (Nat.le_succ _) (Nat.lt_succ_self _)

theorem sceneUnbind_nodeAddrs {i : ScenePanel} (hx : NodeAddrs x)
    (h : sceneUnbind x a i = some (x', r)) : NodeAddrs x' := by
  obtain ⟨s, -, ⟨e, n, -, -, -, rfl⟩ | rfl⟩ := sceneUnbind_eq_some h
  · exact hx.sublist (ptrHashDel_sublist ..) le_rfl
  · exact hx

theorem sceneListDel_nodeAddrs {i : CText} (hx : NodeAddrs x)
    (h : sceneListDel x i = some (x', r)) :
    NodeAddrs x' := by
  obtain rfl | ⟨a, x₁, x₂, x₃, x₄, s, -, h₁, h₂, h₃, h₄, -, rfl⟩ := sceneListDel_eq_some h
  · exact hx
  · have hx₄ := condClear_nodeAddrs (condClear_nodeAddrs (condClear_nodeAddrs
      (condClear_nodeAddrs hx h₁) h₂) h₃) h₄
    exact hx₄.sublist (foldl_ptrHashDel_sublist _ _ _) le_rfl

theorem hySceneAdd_nodeAddrs {i : SceneText} (hx : NodeAddrs x) :
    NodeAddrs (hySceneAdd x i) := by
  cases hget : sceneListGet x i.acSceneId with
  | some b => exact hx.touches (hySceneAdd_touches hget)
  | none =>
    simp only [hySceneAdd, hget]
    exact hx.sublist (List.Sublist.refl _) (Nat.le_succ _)

theorem Requested.nodeAddrs {act : Act} (hx : NodeAddrs x) (h : Requested x act x') :
    NodeAddrs x' := by
  cases h with
  | absent => exact hx
  | sceneAdd i => exact hySceneAdd_nodeAddrs hx
  | sceneDel h => exact sceneListDel_nodeAddrs hx h
  | condAdd _ _ h => exact sceneCondAdd_nodeAddrs hx h
  | condDel _ _ h => exact sceneCondDel_nodeAddrs hx h
  | condClear _ _ h => exact sceneCondClear_nodeAddrs hx h
  | bind h => exact sceneBind_nodeAddrs hx h
  | unbind h => exact sceneUnbind_nodeAddrs hx h

theorem step_nodeAddrs {y y' : Engine} {act : Act} {os : List Effect} (hy : Indexed y.list)
    (hx : NodeAddrs y.list) (h : y.step act = some (y', os)) : NodeAddrs y'.list := by
  cases hact : act.isRequest with
  | true => exact (step_requested hy hact h).nodeAddrs hx
  | false => exact hx.touches (step_touches hy hact h)

theorem run_nodeAddrs {y : Engine} {as : List Act} {os : List Effect}
    (h : Run.run Engine.step .init as = some (y, os)) : NodeAddrs y.list := by
  have hinit : NodeAddrs Engine.init.list := ⟨nodup_nil, fun e he => by cases he⟩
  have hboth : Indexed y.list ∧ NodeAddrs y.list := by
    refine run_preserves (I := fun y => Indexed y.list ∧ NodeAddrs y.list) ?_
      ⟨indexed_init, hinit⟩ h
    rintro z a z' o ⟨hz, hz'⟩ hstep
    exact ⟨step_indexed hz hstep, step_nodeAddrs hz hz' hstep⟩
  exact hboth.2

end

/-! ## What an event does to the timers -/

/-- The time of the timer a trigger starts. -/
def Trigger.time? : Trigger → Option Int
  | .exec => none
  | .timer ulTime => some ulTime

theorem SceneList.timers_fire (x : SceneList) (iTime : Int) (a : Nat) (s : SceneInfo)
    (pstCondPtr : Nat) (ts : List Trigger) :
    (x.fire iTime a s pstCondPtr ts).1.timers =
      x.timers ++ (ts.filterMap Trigger.time?).map fun ulTime => ⟨pstCondPtr, ulTime⟩ := by
  induction ts generalizing x with
  | nil => simp [fire]
  | cons t ts ih =>
    cases t with
    | exec => exact ih _
    | timer ulTime =>
      rw [fire, ih]
      exact append_assoc ..

/-- A pass of the update starts a timer only where the condition comes true. -/
theorem time?_of_updateOnce {ts : List Trigger} (hw : s.Chained) (hc : s.node? q = some c)
    (h : sceneEventCondTrueUpdateOnce s b q = some (s', ts)) :
    ts.filterMap Trigger.time? = [] ∨
      b = true ∧ s.condTrue q = false ∧ strstr c.stCond.acTriggerType triggerContinue = true ∧
        0 < atoi c.stCond.acContinueTime ∧
        ts.filterMap Trigger.time? = [atoi c.stCond.acContinueTime] := by
  simp only [sceneEventCondTrueUpdateOnce, hc, bind_eq_bind, bind_some,
    bind_eq_some_iff] at h
  obtain ⟨⟨s₁, old⟩, hu, h⟩ := h
  obtain ⟨hold, -⟩ := condTrueUpdate_truths hw hu
  split at h
  · rename_i hrises
    simp only [Bool.and_eq_true, Bool.not_eq_true'] at hrises
    simp only [pure_def, some.injEq, Prod.mk.injEq] at h
    rw [← h.2, trigger]
    split
    · rename_i hcont
      split
      · rename_i hpos
        exact .inr ⟨hrises.1.1, hold ▸ hrises.1.2, hcont, hpos, rfl⟩
      · exact .inl rfl
    · split <;> exact .inl rfl
  · simp only [pure_def, some.injEq, Prod.mk.injEq] at h
    exact .inl (by rw [← h.2]; rfl)

theorem time?_of_update {ts : List Trigger} (hw : s.Chained) (hc : s.node? q = some c)
    (h : sceneEventCondTrueUpdate s b q = some (s', ts)) :
    ts.filterMap Trigger.time? = [] ∨
      b = true ∧ s.condTrue q = false ∧ strstr c.stCond.acTriggerType triggerContinue = true ∧
        0 < atoi c.stCond.acContinueTime ∧
        ts.filterMap Trigger.time? = [atoi c.stCond.acContinueTime] := by
  simp only [sceneEventCondTrueUpdate, hc, bind_eq_bind, bind_some,
    bind_eq_some_iff] at h
  obtain ⟨⟨s₁, ts₁⟩, h₁, h⟩ := h
  have honce := time?_of_updateOnce hw hc h₁
  split at h
  · simp only [bind_eq_some_iff, pure_def, some.injEq, Prod.mk.injEq] at h
    obtain ⟨⟨s₂, ts₂⟩, h₂, -, rfl⟩ := h
    obtain ⟨old, hu⟩ := sceneEventCondTrueUpdateOnce_some h₁
    have heq := condTrueUpdate_eraseTruth hu
    have hc₁ : s₁.node? q = some c := (node?_of_eraseTruth_eq heq q).trans hc
    -- the second pass makes the condition false
    have hnone : ts₂.filterMap Trigger.time? = [] := by
      rcases time?_of_updateOnce (hw.of_eraseTruth_eq heq) hc₁ h₂ with hnone | ⟨hfalse, -⟩
      · exact hnone
      · cases hfalse
    rw [filterMap_append, hnone, append_nil]
    exact honce
  · simp only [pure_def, some.injEq, Prod.mk.injEq] at h
    exact h.2 ▸ honce

section

variable {y y' : Engine} {iTime : Int} {e : Event} {p : PtrNode} {os : List Effect}

theorem eventCondNode_timers (hy : Indexed y.list)
    (h : eventCondNode iTime e y p = some (y', os)) :
    y'.list.timers = y.list.timers ∨ ∃ ulTime : Nat,
      y'.list.timers = y.list.timers ++ [⟨p.addr, ulTime⟩] ∧ RisingEdge y.list e p ulTime := by
  obtain ⟨s, hs, ⟨-, rfl, -⟩ | ⟨hdis, q, c, hq, hc, ⟨-, z, -, rfl, -⟩ | ⟨-, s', ts, hu, rfl, -⟩⟩⟩ :=
    eventCondNode_cases h
  · exact .inl rfl
  · exact .inl rfl
  · have hplaced := hy.placed _ (mem_of_scene? hs)
    have hshrinks : s.Shrinks (s.modifyCond q (seen e)) :=
      .modifyCond fun d _ => hashKey_seen e d.stCond
    have hseen : (s.modifyCond q (seen e)).node? q =
        some { c with stCond := c.stCond.seen e } := by
      rw [node?_modifyCond_self, hc]
      rfl
    have htype : (c.stCond.seen e).acTriggerType = c.stCond.acTriggerType := by
      rw [seen]
      split <;> rfl
    have htime : (c.stCond.seen e).acContinueTime = c.stCond.acContinueTime := by
      rw [seen]
      split <;> rfl
    simp only [timers_fire]
    rcases time?_of_update (hshrinks.placed hplaced).chained hseen hu with
      hnone | ⟨htrue, hfalse, hcont, hpos, hone⟩
    · rw [hnone]
      exact .inl (append_nil _)
    · rw [htype] at hcont
      rw [htime] at hpos hone
      rw [condTrue_modifyCond] at hfalse
      refine .inr ⟨(atoi c.stCond.acContinueTime).toNat, ?_, s, q, c, hs, hdis, hq, hc, hfalse,
        htrue, hcont, (Int.toNat_of_nonneg hpos.le).symm, ?_⟩
      · rw [hone, Int.toNat_of_nonneg hpos.le]
        rfl
      · exact (Int.lt_toNat).mpr hpos

theorem RisingEdge.congr {x x' : SceneList} {ulTime : Nat}
    (h : x'.scene? n.pstScene = x.scene? n.pstScene) (hedge : RisingEdge x' e n ulTime) :
    RisingEdge x e n ulTime := by
  rw [RisingEdge, h] at hedge
  exact hedge

/-- The timers an event starts, one at most for each node it is passed to. -/
theorem run_eventCondNode_timers {ps : List PtrNode} (hy : Indexed y.list)
    (hnodup : (ps.map PtrNode.pstScene).Nodup)
    (h : Run.run (eventCondNode iTime e) y ps = some (y', os)) :
    ∃ ns added, ns.Sublist ps ∧ y'.list.timers = y.list.timers ++ added ∧
      List.Forall₂ (fun n t => ∃ ulTime : Nat, t = ⟨n.addr, ulTime⟩ ∧
        RisingEdge y.list e n ulTime) ns added := by
  induction ps generalizing y os with
  | nil =>
    simp only [run, some.injEq, Prod.mk.injEq] at h
    exact ⟨[], [], List.Sublist.refl _, by rw [← h.1, append_nil], .nil⟩
  | cons p ps ih =>
    obtain ⟨z, o, os', hp, hps, rfl⟩ := run_cons.mp h
    rw [map_cons, nodup_cons] at hnodup
    obtain ⟨ns, added, hsub, htimers, hedges⟩ :=
      ih (eventCondNode_indexed hy hp) hnodup.2 hps
    obtain ⟨-, -, -, -, hframe, -⟩ := eventCondNode_visits hy hp
    have hback : List.Forall₂ (fun n t => ∃ ulTime : Nat, t = ⟨n.addr, ulTime⟩ ∧
        RisingEdge y.list e n ulTime) ns added := by
      refine (forall₂_iff_get.mpr ⟨hedges.length_eq, fun i hi hi' => ?_⟩)
      obtain ⟨ulTime, ht, hedge⟩ := (forall₂_iff_get.mp hedges).2 i hi hi'
      refine ⟨ulTime, ht, hedge.congr (hframe _ fun heq => hnodup.1 ?_)⟩
      exact heq ▸ mem_map_of_mem (hsub.subset (get_mem ns ⟨i, hi⟩))
    rcases eventCondNode_timers hy hp with hnone | ⟨ulTime, hone, hedge⟩
    · exact ⟨ns, added, hsub.cons _, by rw [htimers, hnone], hback⟩
    · refine ⟨p :: ns, ⟨p.addr, ulTime⟩ :: added, hsub.cons_cons _, ?_,
        .cons ⟨ulTime, rfl, hedge⟩ hback⟩
      rw [htimers, hone, append_assoc]
      rfl

theorem sceneListEvent_timers (hy : Indexed y.list)
    (h : sceneListEvent y iTime e = some (y', os)) :
    ∃ ns added, ns.Sublist (e.nodes y.list) ∧ y'.list.timers = y.list.timers ++ added ∧
      List.Forall₂ (fun n t => ∃ ulTime : Nat, t = ⟨n.addr, ulTime⟩ ∧
        RisingEdge y.list e n ulTime) ns added := by
  simp only [sceneListEvent] at h
  split at h
  · exact run_eventCondNode_timers hy (hy.chain_nodup (scene?_of_run hy h)) h
  · refine ⟨[], [], nil_sublist _, ?_, .nil⟩
    rw [append_nil]
    refine run_preserves (I := fun z => z.list.timers = y.list.timers) ?_ rfl h
    intro z n z' o hz hstep
    obtain ⟨s, -, ⟨rfl, -⟩ | ⟨-, -, hexec⟩⟩ := eventPanelNode_cases hstep
    · exact hz
    · rw [exec, Prod.mk.injEq] at hexec
      rw [hexec.1]
      exact hz

/-- Writing the truth a condition has leaves the truth of the scene. -/
theorem ucSceneCondTrue_update {ts : List Trigger} {heap : Nat} (hs : s.Placed heap)
    (hc : s.node? q = some c) (hb : b = s.condTrue q)
    (hevery : strstr c.stCond.acTriggerType triggerEvery = true → ¬ b = true)
    (h : sceneEventCondTrueUpdate (s.modifyCond q (EventCond.seen e)) b q = some (s', ts)) :
    s'.ucSceneCondTrue = s.ucSceneCondTrue := by
  have hshrinks : s.Shrinks (s.modifyCond q (seen e)) :=
    .modifyCond fun d _ => hashKey_seen e d.stCond
  have hseen : (s.modifyCond q (seen e)).node? q =
      some { c with stCond := c.stCond.seen e } := by
    rw [node?_modifyCond_self, hc]
    rfl
  have htype : (c.stCond.seen e).acTriggerType = c.stCond.acTriggerType := by
    rw [seen]
    split <;> rfl
  simp only [sceneEventCondTrueUpdate, hseen, htype, bind_eq_bind, bind_some,
    bind_eq_some_iff] at h
  obtain ⟨⟨s₁, ts₁⟩, h₁, h⟩ := h
  obtain ⟨old, hu⟩ := sceneEventCondTrueUpdateOnce_some h₁
  have hold := (condTrueUpdate_truths (hshrinks.placed hs).chained hu).1
  rw [condTrue_modifyCond, ← hb] at hold
  obtain ⟨n, d, -, -, -, ⟨-, rfl⟩ | ⟨hne, -⟩⟩ := condTrueUpdate_some hu
  · rw [if_neg (by simpa using hevery)] at h
    simp only [pure_def, some.injEq, Prod.mk.injEq] at h
    rw [← h.1]
    exact ucSceneCondTrue_setList ..
  · exact absurd hold.symm hne

/-- An event that changes no condition of a scene leaves its truth. -/
theorem ucSceneCondTrue_of_unchanged {a : Nat} (hy : Indexed y.list)
    (h : sceneListEvent y iTime e = some (y', os)) (hs : y.list.scene? a = some s)
    (hsame : ∀ n ∈ e.nodes y.list, n.pstScene = a → ¬ e.Changes y.list n) :
    ∃ s', y'.list.scene? a = some s' ∧ s'.ucSceneCondTrue = s.ucSceneCondTrue := by
  simp only [sceneListEvent] at h
  split at h
  · have hrun : run (eventCondNode iTime e) y (e.nodes y.list) = some (y', os) := h
    by_cases ha : a ∈ (e.nodes y.list).map PtrNode.pstScene
    · obtain ⟨n, hn, rfl⟩ := mem_map.mp ha
      obtain ⟨z, z', o, hz, hvisit, hbefore, hafter, -⟩ :=
        run_visit hy (hy.chain_nodup (scene?_of_run hy hrun)) hrun hn
      have hidle := hsame n hn rfl
      rw [hafter]
      rw [hs] at hbefore
      obtain ⟨t, ht, ⟨-, rfl, -⟩ |
        ⟨hdis, q, c, hq, hc, ⟨-, w, -, rfl, -⟩ | ⟨hsync, s', ts, hu, rfl, -⟩⟩⟩ :=
        eventCondNode_cases hvisit
      · exact ⟨s, hbefore, rfl⟩
      · obtain rfl := some.inj (hbefore.symm.trans ht)
        exact ⟨_, scene?_setScene_self ht _, ucSceneCondTrue_setList ..⟩
      · obtain rfl := some.inj (hbefore.symm.trans ht)
        refine ⟨s', ?_, ?_⟩
        · rw [scene?_fire]
          exact scene?_setScene_self ht _
        · -- the update writes the truth the condition has
          have hchanges : ¬ (sceneEventCondIsTrue c.stCond e ≠ s.condTrue q ∨
              strstr c.stCond.acTriggerType triggerEvery = true ∧
                sceneEventCondIsTrue c.stCond e = true) := fun hch =>
            hidle ⟨s, hs, hdis, q, hq, c, hc, hsync, hch⟩
          rw [not_or, not_not, not_and] at hchanges
          have hplaced := hz.placed _ (mem_of_scene? ht)
          exact ucSceneCondTrue_update hplaced hc hchanges.1 hchanges.2 hu
    · exact ⟨s, ((run_frame hy hrun ha).1).trans hs, rfl⟩
  · obtain ⟨hlist, -⟩ := run_eventPanelNode h
    exact ⟨s, by rw [scene?, hlist]; exact hs, rfl⟩

end

/-! ## The table -/

theorem pending_takeFree {α : Type} {t : TaskTimer α} {ts ts' : TimerList α}
    (h : takeFree t ts = some ts') :
    (TimerList.pending ts').Perm (t :: TimerList.pending ts) := by
  induction ts generalizing ts' with
  | nil => cases h
  | cons u us ih =>
    cases u with
    | none =>
      rw [takeFree, some.injEq] at h
      rw [← h]
      exact List.Perm.refl _
    | some u =>
      obtain ⟨us', hus, rfl⟩ := map_eq_some_iff.mp h
      exact ((ih hus).cons u).trans (List.Perm.swap t u _)

/-- A timer as an event starts it. -/
def ContinueTimer.task (t : ContinueTimer) : TaskTimer Nat :=
  ⟨t.pstCondPtr, timerTaskOnce, t.ulTime.toNat, t.ulTime.toNat⟩

theorem pending_createTimers {ts ts' : TimerList Nat} {started : List ContinueTimer}
    (hpos : ∀ t ∈ started, 0 < t.ulTime.toNat) (h : createTimers ts started = some ts') :
    (TimerList.pending ts').Perm (started.map ContinueTimer.task ++ TimerList.pending ts) := by
  induction started generalizing ts with
  | nil =>
    simp only [createTimers, foldlM_nil, pure_def, some.injEq] at h
    rw [← h]
    exact List.Perm.refl _
  | cons t started ih =>
    simp only [createTimers, foldlM_cons, bind_eq_bind, bind_eq_some_iff] at h
    obtain ⟨ts₁, h₁, h⟩ := h
    have hne : t.ulTime.toNat ≠ 0 := (hpos t mem_cons_self).ne'
    rw [sceneTaskTimerCreate, if_neg hne, if_neg (by decide)] at h₁
    have hrest := ih (fun u hu => hpos u (mem_cons_of_mem _ hu)) h
    refine hrest.trans (((pending_takeFree h₁).append_left _).trans ?_)
    exact perm_middle

theorem pending_sceneTaskTimerRun {α : Type} {ts : TimerList α}
    (honce : ∀ t ∈ TimerList.pending ts, t.iFunExecTime = timerTaskOnce) :
    TimerList.pending (sceneTaskTimerRun ts).1 =
        ((TimerList.pending ts).filter fun t => 1 < t.ulRunTime).map
          (fun t => { t with ulRunTime := t.ulRunTime - 1 }) ∧
      (sceneTaskTimerRun ts).2 = (TimerList.pending ts).filter fun t => t.ulRunTime ≤ 1 := by
  induction ts with
  | nil => exact ⟨rfl, rfl⟩
  | cons u us ih =>
    cases u with
    | none => exact ih honce
    | some u =>
      have hsplit : TimerList.pending (some u :: us) = u :: TimerList.pending us := rfl
      rw [hsplit] at honce ⊢
      obtain ⟨hleft, hran⟩ := ih fun t ht => honce t (mem_cons_of_mem _ ht)
      by_cases hdue : u.ulRunTime ≤ 1
      · have hagain : u.again = none := by
          rw [TaskTimer.again, honce u mem_cons_self]
          rfl
        rw [sceneTaskTimerRun, if_pos hdue, hagain, filter_cons_of_neg (by simpa using hdue),
          filter_cons_of_pos (by simpa using hdue), hran]
        exact ⟨hleft, rfl⟩
      · rw [sceneTaskTimerRun, if_neg hdue, filter_cons_of_pos (by simpa using hdue),
          filter_cons_of_neg (by simpa using hdue), map_cons]
        exact ⟨congrArg (cons _) hleft, hran⟩

/-! ## A tick -/

section

variable {x x' : SceneList} {iTime : Int} {ts : List (TaskTimer Nat)} {os : List ClockOut}

/-- Only the queue, and the list of timers that are being started. -/
structure SceneList.QueueOnly (x x' : SceneList) : Prop where
  stList : x'.stList = x.stList
  pHashTable : x'.pHashTable = x.pHashTable
  heap : x'.heap = x.heap

theorem SceneList.QueueOnly.sceneTrue? (h : x.QueueOnly x') (p : Nat) :
    x'.sceneTrue? p = x.sceneTrue? p := by
  simp only [SceneList.sceneTrue?, SceneList.ptrNode?, SceneList.scene?, h.stList, h.pHashTable]

theorem timerFun_cases {t : TaskTimer Nat} (h : timerFun iTime x t = some (x', os)) :
    x.QueueOnly x' ∧ x'.timers = [] ∧
      (os = [] ∨ x.sceneTrue? t.pFunArg = some true ∧
        ∃ q, os = [.queued t.pFunArg t.ulTime q]) := by
  simp only [timerFun, sceneContinueTriggerTimerFun, bind_eq_bind, getElem?_cons_zero,
    bind_some, eraseIdx_cons_zero, bind_eq_some_iff, pure_def,
    some.injEq, Prod.mk.injEq, Prod.exists] at h
  obtain ⟨x₁, o, ⟨e, he, s, hs, h⟩, rfl, rfl⟩ := h
  have he' : x.ptrNode? t.pFunArg = some e := he
  have hs' : x.scene? e.pstScene = some s := hs
  split at h
  · rename_i htrue
    simp only [exec, some.injEq, Prod.mk.injEq] at h
    obtain ⟨rfl, rfl⟩ := h
    refine ⟨⟨rfl, rfl, rfl⟩, rfl, .inr ⟨?_, queueNode iTime e.pstScene s, rfl⟩⟩
    simp [sceneTrue?, he', hs', htrue]
  · simp only [some.injEq, Prod.mk.injEq] at h
    obtain ⟨rfl, rfl⟩ := h
    exact ⟨⟨rfl, rfl, rfl⟩, rfl, .inl rfl⟩

theorem run_timerFun (hx : x.timers = []) (h : Run.run (timerFun iTime) x ts = some (x', os)) :
    x.QueueOnly x' ∧ x'.timers = [] ∧
      (∀ w ∈ os, ∃ t ∈ ts, x.sceneTrue? t.pFunArg = some true ∧
        ∃ q, w = .queued t.pFunArg t.ulTime q) ∧
      ∀ p, os.countP (ClockOut.isArmed p) = 0 ∧
        os.countP (ClockOut.isQueued p) ≤ ts.countP fun t => t.pFunArg == p := by
  induction ts generalizing x os with
  | nil =>
    simp only [run, some.injEq, Prod.mk.injEq] at h
    obtain ⟨rfl, rfl⟩ := h
    refine ⟨⟨rfl, rfl, rfl⟩, hx, ?_, fun p => ⟨rfl, le_rfl⟩⟩
    intro w hw
    cases hw
  | cons t ts ih =>
    obtain ⟨x₁, o, os', ht, hts, rfl⟩ := run_cons.mp h
    obtain ⟨hsame, hnil, hout⟩ := timerFun_cases ht
    obtain ⟨hsame', hnil', hall, hcount⟩ := ih hnil hts
    refine ⟨⟨hsame'.stList.trans hsame.stList, hsame'.pHashTable.trans hsame.pHashTable,
      hsame'.heap.trans hsame.heap⟩, hnil', fun w hw => ?_, fun p => ?_⟩
    · rcases mem_append.mp hw with hw | hw
      · rcases hout with rfl | ⟨htrue, q, rfl⟩
        · cases hw
        · exact ⟨t, mem_cons_self, htrue, q, mem_singleton.mp hw⟩
      · obtain ⟨u, hu, htrue, hq⟩ := hall w hw
        exact ⟨u, mem_cons_of_mem _ hu, (hsame.sceneTrue? _).symm.trans htrue, hq⟩
    · obtain ⟨harmed, hqueued⟩ := hcount p
      rw [countP_append, countP_append, countP_cons, harmed]
      rcases hout with rfl | ⟨-, q, rfl⟩
      · exact ⟨rfl, by simp only [countP_nil]; omega⟩
      · refine ⟨rfl, ?_⟩
        rw [countP_cons, countP_nil, isQueued]
        omega

end

/-! ## Runs -/

/-- The timer was started by an event of the run, so many ticks ago as it has run
down, and the scene is false now or was true ever since. -/
def TaskTimer.Runs (z₀ z : Clocked) (as : List ClockAct) (t : TaskTimer Nat) : Prop :=
  ∃ bs iTime e cs w o, as = bs ++ .event iTime e :: cs ∧ Run.run Clocked.step z₀ bs = some (w, o) ∧
    (∃ n ∈ e.nodes w.engine.list, n.addr = t.pFunArg ∧ RisingEdge w.engine.list e n t.ulTime) ∧
    ticks cs + t.ulRunTime = t.ulTime ∧ 0 < t.ulRunTime ∧
    (z.engine.list.sceneTrue? t.pFunArg = some false ∨
      ∀ ds, ds <+: cs → ∀ w o, Run.run Clocked.step z₀ (bs ++ .event iTime e :: ds) = some (w, o) →
        w.engine.list.sceneTrue? t.pFunArg = some true)

/-- What holds after every run, of the state and what was to be seen. -/
structure ClockInv (z : Clocked) (os : List ClockOut) : Prop where
  indexed : Indexed z.engine.list
  addrs : NodeAddrs z.engine.list
  drained : z.engine.list.timers = []
  once : ∀ t ∈ TimerList.pending z.timers, t.iFunExecTime = timerTaskOnce
  count : ∀ p, os.countP (ClockOut.isQueued p) +
    (TimerList.pending z.timers).countP (fun t => t.pFunArg == p) ≤ os.countP (ClockOut.isArmed p)

section

variable {z₀ z z' : Clocked} {as : List ClockAct} {os o : List ClockOut} {iTime : Int} {e : Event}

theorem Clocked.event_cases (hz : Indexed z.engine.list) (hdrained : z.engine.list.timers = [])
    (h : z.event iTime e = some (z', o)) :
    ∃ y os' ns added, sceneListEvent z.engine iTime e = some (y, os') ∧
      ns.Sublist (e.nodes z.engine.list) ∧
      List.Forall₂ (fun n t => ∃ ulTime : Nat, t = ⟨n.addr, ulTime⟩ ∧
        RisingEdge z.engine.list e n ulTime) ns added ∧
      z'.engine = { y with list := { y.list with timers := [] } } ∧
      (TimerList.pending z'.timers).Perm
        (added.map ContinueTimer.task ++ TimerList.pending z.timers) ∧
      o = added.map fun t => .armed t.pstCondPtr t.ulTime.toNat := by
  simp only [event, bind_eq_bind, bind_eq_some_iff, pure_def,
    some.injEq, Prod.mk.injEq, Prod.exists] at h
  obtain ⟨y, os', hevent, ts, hts, rfl, rfl⟩ := h
  obtain ⟨ns, added, hsub, htimers, hedges⟩ := sceneListEvent_timers hz hevent
  rw [hdrained, nil_append] at htimers
  rw [htimers] at hts ⊢
  refine ⟨y, os', ns, added, hevent, hsub, hedges, rfl, pending_createTimers ?_ hts, rfl⟩
  intro t ht
  obtain ⟨n, -, ulTime, rfl, -, -, -, -, -, -, -, -, -, -, -, hpos⟩ :=
    Keyed.exists_of_forall₂ hedges ht
  exact hpos

theorem ClockInv.step {act : ClockAct} (hz : ClockInv z os) (h : z.step act = some (z', o)) :
    ClockInv z' (os ++ o) := by
  cases act with
  | event iTime e =>
    obtain ⟨y, os', ns, added, hevent, -, -, hengine, hperm, rfl⟩ :=
      Clocked.event_cases hz.indexed hz.drained h
    have htouches := sceneListEvent_touches hz.indexed hevent
    have hmem : ∀ t ∈ TimerList.pending z'.timers, t ∈ added.map ContinueTimer.task ∨
        t ∈ TimerList.pending z.timers := fun t ht => mem_append.mp (hperm.subset ht)
    refine ⟨?_, ?_, by rw [hengine], fun t ht => ?_, fun p => ?_⟩
    · rw [hengine]
      exact (sceneListEvent_indexed hz.indexed hevent).congr rfl rfl rfl
    · rw [hengine]
      exact (hz.addrs.touches htouches).sublist (List.Sublist.refl _) le_rfl
    · rcases hmem t ht with ht | ht
      · obtain ⟨u, -, rfl⟩ := mem_map.mp ht
        rfl
      · exact hz.once t ht
    · have hcount := hz.count p
      have hqueued : (added.map fun t : ContinueTimer =>
          ClockOut.armed t.pstCondPtr t.ulTime.toNat).countP (ClockOut.isQueued p) = 0 := by
        rw [countP_map, countP_eq_zero]
        intro t _
        exact Bool.false_ne_true
      have harmed : (added.map fun t : ContinueTimer =>
          ClockOut.armed t.pstCondPtr t.ulTime.toNat).countP (ClockOut.isArmed p) =
            (added.map ContinueTimer.task).countP (fun t => t.pFunArg == p) := by
        rw [countP_map, countP_map]
        rfl
      rw [countP_append, countP_append, hqueued, harmed, hperm.countP_eq,
        countP_append]
      omega
  | tick iTime =>
    simp only [Clocked.step, Clocked.tick, bind_eq_bind, bind_eq_some_iff,
      pure_def, some.injEq, Prod.mk.injEq, Prod.exists] at h
    obtain ⟨x, o', hrun, rfl, rfl⟩ := h
    obtain ⟨hsame, hnil, -, hcounts⟩ := run_timerFun hz.drained hrun
    obtain ⟨hleft, hran⟩ := pending_sceneTaskTimerRun hz.once
    refine ⟨hz.indexed.congr hsame.stList hsame.pHashTable hsame.heap,
      hz.addrs.sublist (hsame.pHashTable ▸ List.Sublist.refl _) hsame.heap.ge, hnil,
      fun t ht => ?_, fun p => ?_⟩
    · simp only [hleft] at ht
      obtain ⟨u, hu, rfl⟩ := mem_map.mp ht
      exact hz.once u (mem_filter.mp hu).1
    · have hcount := hz.count p
      obtain ⟨harmed, hqueued⟩ := hcounts p
      have hsplit := countP_eq_countP_filter_add (TimerList.pending z.timers)
        (fun t => t.pFunArg == p) fun t => decide (t.ulRunTime ≤ 1)
      have hnot : (fun t : TaskTimer Nat => !decide (t.ulRunTime ≤ 1)) =
          fun t => decide (1 < t.ulRunTime) := by
        funext t
        rw [← decide_not, decide_eq_decide, not_le]
      rw [hnot] at hsplit
      rw [hran] at hqueued
      simp only [hleft, countP_append, countP_map, harmed]
      have hmap : ((fun t : TaskTimer Nat => t.pFunArg == p) ∘
          fun t : TaskTimer Nat => { t with ulRunTime := t.ulRunTime - 1 }) =
            fun t => t.pFunArg == p := rfl
      rw [hmap]
      omega

theorem exists_sceneTrue?_of_touches {x x' : SceneList} (hx' : Indexed x') (h : x.Touches x')
    {p : Nat} (hb : x.sceneTrue? p = some b) : ∃ b', x'.sceneTrue? p = some b' := by
  simp only [sceneTrue?, bind_eq_bind, bind_eq_some_iff] at hb
  obtain ⟨n, hn, s, hs, -⟩ := hb
  obtain ⟨m, hm, hmn, -⟩ := h.exists_after (mem_of_scene? hs)
  have hnode : x'.ptrNode? p = some n := by
    rw [ptrNode?, h.pHashTable]
    exact hn
  have hscene : x'.scene? n.pstScene = some m.stSceneInfo := by
    rw [← show m.addr = n.pstScene from hmn]
    exact hx'.scene?_eq_some hm
  refine ⟨m.stSceneInfo.ucSceneCondTrue, ?_⟩
  simp [sceneTrue?, hnode, hscene]

theorem sceneTrue?_of_quiet {y y' : Engine} {os' : List Effect} {p : Nat} (hy : Indexed y.list)
    (h : sceneListEvent y iTime e = some (y', os'))
    (hquiet : ∀ m ∈ y.list.ptrNode? p, ∀ n ∈ e.nodes y.list, n.pstScene = m.pstScene →
      ¬ e.Changes y.list n)
    (hfalse : y.list.sceneTrue? p = some false) : y'.list.sceneTrue? p = some false := by
  simp only [sceneTrue?, bind_eq_bind, bind_eq_some_iff, pure_def,
    some.injEq] at hfalse
  obtain ⟨m, hm, s, hs, hs'⟩ := hfalse
  obtain ⟨s', hscene, hsame⟩ := ucSceneCondTrue_of_unchanged hy h hs (hquiet m hm)
  have hnode : y'.list.ptrNode? p = some m := by
    rw [ptrNode?, (sceneListEvent_touches hy h).pHashTable]
    exact hm
  simp [sceneTrue?, hnode, hscene, hsame, hs']

theorem ever_since_snoc {bs cs : List ClockAct} {act : ClockAct} {p : Nat}
    (h : ∀ ds, ds <+: cs → ∀ w o, Run.run Clocked.step z₀ (bs ++ .event iTime e :: ds) =
      some (w, o) →
      w.engine.list.sceneTrue? p = some true)
    (hrun : Run.run Clocked.step z₀ (bs ++ .event iTime e :: (cs ++ [act])) = some (z', os))
    (htrue : z'.engine.list.sceneTrue? p = some true) :
    ∀ ds, ds <+: cs ++ [act] → ∀ w o,
      Run.run Clocked.step z₀ (bs ++ .event iTime e :: ds) = some (w, o) →
        w.engine.list.sceneTrue? p = some true := by
  intro ds hds w o hw
  rcases prefix_concat_iff.mp hds with rfl | hds
  · rw [hrun, some.injEq, Prod.mk.injEq] at hw
    rw [← hw.1]
    exact htrue
  · exact h ds hds w o hw

theorem ticks_snoc (as : List ClockAct) (act : ClockAct) :
    ticks (as ++ [act]) = ticks as + if act.isTick then 1 else 0 := by
  rw [ticks, ticks, countP_append, countP_singleton]

theorem runs_of_run (hz₀ : ClockInv z₀ []) (hempty : TimerList.pending z₀.timers = [])
    (hquiet : Run.Along Clocked.step (fun z a => a.Quiet z) z₀ as)
    (h : Run.run Clocked.step z₀ as = some (z, os)) :
    ∀ t ∈ TimerList.pending z.timers, t.Runs z₀ z as := by
  induction as using reverseRecOn generalizing z os with
  | nil =>
    simp only [run, some.injEq, Prod.mk.injEq] at h
    rw [← h.1, hempty]
    exact fun t ht => by cases ht
  | append_singleton as act ih =>
    obtain ⟨hquiet₁, hquiet₂⟩ := along_append.mp hquiet
    obtain ⟨z₁, o₁, o₂, h₁, hstep, -⟩ := run_snoc.mp h
    have hinv : ClockInv z₁ ([] ++ o₁) :=
      run_invariant (fun _ _ _ _ _ hz _ => hz.step) hz₀ hquiet₁ h₁
    have hruns := ih hquiet₁ h₁
    have hact : act.Quiet z₁ := (hquiet₂ z₁ o₁ h₁).1
    cases act with
    | event iTime e =>
      obtain ⟨y, os', ns, added, hevent, hsub, hedges, hengine, hperm, rfl⟩ :=
        event_cases hinv.indexed hinv.drained hstep
      have htouches := sceneListEvent_touches hinv.indexed hevent
      have hlist : ∀ p, z.engine.list.sceneTrue? p = y.list.sceneTrue? p := by
        intro p
        rw [hengine]
        rfl
      intro t ht
      rcases mem_append.mp (hperm.subset ht) with ht | ht
      · -- a timer that this event starts
        obtain ⟨u, hu, rfl⟩ := mem_map.mp ht
        obtain ⟨n, hn, ulTime, rfl, hedge⟩ := Keyed.exists_of_forall₂ hedges hu
        have hnode := mem_nodes.mp (hsub.subset hn)
        obtain ⟨s, q, c, hs, hdis, hq, hc, hfalse, htrue, hcont, htime, hpos⟩ := hedge
        have hbefore : z₁.engine.list.sceneTrue? n.addr = some s.ucSceneCondTrue := by
          simp [sceneTrue?, hinv.addrs.ptrNode?_eq hnode, hs]
        obtain ⟨b, hb⟩ := exists_sceneTrue?_of_touches
          (sceneListEvent_indexed hinv.indexed hevent) htouches hbefore
        refine ⟨as, iTime, e, [], z₁, o₁, rfl, h₁, ⟨n, hsub.subset hn, rfl, s, q, c, hs, hdis,
          hq, hc, hfalse, htrue, hcont, htime, hpos⟩, Nat.zero_add _, hpos, ?_⟩
        cases b with
        | false => exact .inl ((hlist _).trans hb)
        | true =>
          refine .inr fun ds hds w o hw => ?_
          rw [prefix_nil.mp hds, h, some.injEq, Prod.mk.injEq] at hw
          rw [← hw.1]
          exact (hlist _).trans hb
      · -- a timer that runs already
        obtain ⟨bs, iTime', e', cs, w, o, rfl, hw, hedge, hticks, hpos, hsince⟩ := hruns t ht
        have hrun' : run step z₀
            (bs ++ .event iTime' e' :: (cs ++ [.event iTime e])) = some (z, os) := by
          rw [← cons_append, ← append_assoc]
          exact h
        refine ⟨bs, iTime', e', cs ++ [.event iTime e], w, o, ?_, hw, hedge, ?_, hpos, ?_⟩
        · rw [append_assoc, cons_append]
        · rw [ticks_snoc]
          exact hticks
        rcases hsince with hfalse | hall
        · left
          rw [hlist]
          exact sceneTrue?_of_quiet hinv.indexed hevent (hact t ht hfalse) hfalse
        · have htrue := hall cs (prefix_refl cs) z₁ o₁ h₁
          obtain ⟨b, hb⟩ := exists_sceneTrue?_of_touches
            (sceneListEvent_indexed hinv.indexed hevent) htouches htrue
          cases b with
          | false => exact .inl ((hlist _).trans hb)
          | true => exact .inr (ever_since_snoc hall hrun' ((hlist _).trans hb))
    | tick iTime =>
      simp only [step, tick, bind_eq_bind, bind_eq_some_iff,
        pure_def, some.injEq, Prod.mk.injEq, Prod.exists] at hstep
      obtain ⟨x, o', hx, rfl, rfl⟩ := hstep
      obtain ⟨hsame, -, -, -⟩ := run_timerFun hinv.drained hx
      obtain ⟨hleft, -⟩ := pending_sceneTaskTimerRun hinv.once
      intro t ht
      simp only [hleft] at ht
      obtain ⟨u, hu, rfl⟩ := mem_map.mp ht
      obtain ⟨hu, hrest⟩ := mem_filter.mp hu
      have hrest : 1 < u.ulRunTime := by simpa using hrest
      obtain ⟨bs, iTime', e', cs, w, o, rfl, hw, hedge, hticks, hpos, hsince⟩ := hruns u hu
      refine ⟨bs, iTime', e', cs ++ [.tick iTime], w, o, ?_, hw, hedge, ?_, ?_, ?_⟩
      · rw [append_assoc, cons_append]
      · rw [ticks_snoc]
        show ticks cs + 1 + (u.ulRunTime - 1) = u.ulTime
        omega
      · exact Nat.sub_pos_of_lt hrest
      rcases hsince with hfalse | hall
      · exact .inl ((hsame.sceneTrue? _).trans hfalse)
      · rw [append_assoc, cons_append] at h
        refine .inr (ever_since_snoc hall h ?_)
        exact (hsame.sceneTrue? _).trans (hall cs (prefix_refl cs) z₁ o₁ h₁)

/-- In every run of events and ticks in which, as long as a timer runs for a
scene that is false, no event changes the truth of a condition of that scene, a
timer executes the scene only after uninterrupted truth, and at most once for each
time its condition came true. -/
theorem continue_run {y : Engine} {acts : List Act} {os₀ : List Effect}
    (hreach : Run.run Engine.step .init acts = some (y, os₀)) (hidle : y.list.timers = [])
    (iTimerNum : Nat)
    (hquiet : Run.Along Clocked.step (fun z a => a.Quiet z) (.start y iTimerNum) as)
    (h : Run.run Clocked.step (.start y iTimerNum) as = some (z, os)) :
    Continues (.start y iTimerNum) as os := by
  have hempty : TimerList.pending (Clocked.start y iTimerNum).timers = [] := by
    rw [TimerList.pending, Clocked.start, List.filterMap_replicate_of_none rfl]
  have hz₀ : ClockInv (.start y iTimerNum) [] := by
    refine ⟨run_indexed hreach, run_nodeAddrs hreach, hidle, ?_, fun p => ?_⟩
    · rw [hempty]
      exact fun t ht => by cases ht
    · rw [hempty]
      exact le_rfl
  have hinv : ∀ {bs z o}, Run.Along Clocked.step (fun z a => a.Quiet z) (.start y iTimerNum) bs →
      Run.run Clocked.step (.start y iTimerNum) bs = some (z, o) → ClockInv z o := by
    intro bs z o hbs hrun
    exact Run.run_invariant (fun _ _ _ _ _ hz _ => hz.step) hz₀ hbs hrun
  refine ⟨?_, ?_, fun p => ?_⟩
  · rintro bs iTime cs w o w' o' rfl hw hstep p n q hq
    have hbs := (Run.along_append.mp hquiet).1
    have hw' := hinv hbs hw
    simp only [Clocked.step, Clocked.tick, bind_eq_bind, bind_eq_some_iff,
      pure_def, some.injEq, Prod.mk.injEq, Prod.exists] at hstep
    obtain ⟨x, o'', hx, -, rfl⟩ := hstep
    obtain ⟨-, -, hall, -⟩ := run_timerFun hw'.drained hx
    obtain ⟨t, ht, htrue, q', hq'⟩ := hall _ hq
    rw [(pending_sceneTaskTimerRun hw'.once).2] at ht
    obtain ⟨ht, hdue⟩ := mem_filter.mp ht
    have hdue : t.ulRunTime ≤ 1 := by simpa using hdue
    simp only [ClockOut.queued.injEq] at hq'
    obtain ⟨rfl, rfl, -⟩ := hq'
    obtain ⟨bs₁, iTime', e, cs₁, v, o₁, hsplit, hv, hedge, hticks, hpos, hsince⟩ :=
      runs_of_run hz₀ hempty hbs hw t ht
    refine ⟨bs₁, iTime', e, cs₁, v, o₁, hsplit, hv, hedge, by omega, ?_⟩
    rcases hsince with hfalse | hall
    · rw [hfalse] at htrue
      cases htrue
    · exact hall
  · rintro bs iTime e cs w o w' o' rfl hw hstep
    have hw' := hinv (Run.along_append.mp hquiet).1 hw
    obtain ⟨y', os', ns, added, -, hsub, hedges, -, -, rfl⟩ :=
      Clocked.event_cases hw'.indexed hw'.drained hstep
    refine ⟨ns, hsub, ?_⟩
    rw [List.forall₂_map_right_iff]
    refine hedges.imp ?_
    rintro n t ⟨ulTime, rfl, hedge⟩
    exact ⟨ulTime, rfl, hedge⟩
  · have hcount := (hinv hquiet h).count p
    omega

end

namespace Sample

/-- A scene on "the attribute `k` of `d` equals `1` for 2 seconds". -/
def twoSeconds : List Act :=
  [.sceneAdd text, .condAdd ['1'] .or .event
    { lamp with acTriggerType := triggerContinue, acContinueTime := ['2'] }]

/-- The attribute is reported as 1, or as 0. -/
def on : ClockAct := .event 0 ⟨['d'], ['k'], ['1']⟩
def off : ClockAct := .event 0 ⟨['d'], ['k'], ['0']⟩

/-- The engine with that scene and the table of 16 timers the source has. -/
def clock : Clocked := .start (engineAfter twoSeconds) 16

/-- What a run leaves, and what is to be seen of it. -/
def clockAfter (as : List ClockAct) : Clocked :=
  ((Run.run Clocked.step clock as).map Prod.fst).getD clock

def clockOuts (as : List ClockAct) : List ClockOut :=
  ((Run.run Clocked.step clock as).map Prod.snd).getD []

end Sample

open Sample in
/-- The attribute stays 1 for two ticks, and the scene is executed. -/
theorem continue_run_lasting :
    clockOuts [on, .tick 1, .tick 2] =
        [.armed 3 2, .queued 3 2 (queueNode 2 0 (scene (clockAfter [on]).engine.list))] ∧
      Continues clock [on, .tick 1, .tick 2] (clockOuts [on, .tick 1, .tick 2]) := by
  refine ⟨by decide, ?_⟩
  have hreach : Run.run Engine.step .init twoSeconds =
      some (engineAfter twoSeconds, effectsOf twoSeconds) := by decide
  have hquiet : Run.Along Clocked.step (fun z a => a.Quiet z) (.start (engineAfter twoSeconds) 16)
      [on, .tick 1, .tick 2] := by decide
  have hrun : Run.run Clocked.step (.start (engineAfter twoSeconds) 16) [on, .tick 1, .tick 2] =
      some (clockAfter [on, .tick 1, .tick 2], clockOuts [on, .tick 1, .tick 2]) := by decide
  exact continue_run hreach (by decide) 16 hquiet hrun

open Sample in
/-- The attribute falls to 0 and is 1 again before the two ticks are over: the
timer of the first time executes the scene all the same. -/
theorem continue_run_interrupted :
    ¬ ∀ (acts : List Act) (y : Engine) (os₀ : List Effect),
      Run.run Engine.step .init acts = some (y, os₀) → y.list.timers = [] →
      ∀ (iTimerNum : Nat) (as : List ClockAct) (z : Clocked) (os : List ClockOut),
        Run.run Clocked.step (.start y iTimerNum) as = some (z, os) →
        Continues (.start y iTimerNum) as os := by
  intro h
  have hcont := h twoSeconds (engineAfter twoSeconds) (effectsOf twoSeconds) (by decide) (by decide)
    16 [on, .tick 1, off, on, .tick 2] (clockAfter [on, .tick 1, off, on, .tick 2])
    (clockOuts [on, .tick 1, off, on, .tick 2]) (by decide)
  have hlast := hcont.lasted [on, .tick 1, off, on] 2 [] (clockAfter [on, .tick 1, off, on])
    (clockOuts [on, .tick 1, off, on]) (clockAfter [on, .tick 1, off, on, .tick 2])
    [.queued 3 2 (queueNode 2 0 (scene (clockAfter [on, .tick 1, off, on]).engine.list))]
    rfl (by decide) (by decide) 3 2 _ mem_cons_self
  obtain ⟨bs, t, e, cs, w, o, hsplit, -, -, hticks, hall⟩ := hlast
  rcases bs with _ | ⟨b₁, _ | ⟨b₂, _ | ⟨b₃, _ | ⟨b₄, bs⟩⟩⟩⟩
  · -- the first time: the scene is false behind `off`
    simp only [nil_append, List.cons.injEq] at hsplit
    obtain ⟨hon, rfl⟩ := hsplit
    have hfalse := hall [.tick 1, off] ⟨[on], rfl⟩ (clockAfter [on, .tick 1, off])
      (clockOuts [on, .tick 1, off]) (by rw [← hon]; decide)
    exact absurd hfalse (by decide)
  · simp only [cons_append, nil_append, List.cons.injEq] at hsplit
    cases hsplit.2.1
  · simp only [cons_append, nil_append, List.cons.injEq] at hsplit
    obtain ⟨-, -, -, rfl⟩ := hsplit
    exact absurd hticks (by decide)
  · simp only [cons_append, nil_append, List.cons.injEq] at hsplit
    obtain ⟨-, -, -, -, rfl⟩ := hsplit
    exact absurd hticks (by decide)
  · have hlen := congrArg List.length hsplit
    simp only [List.length_cons, List.length_append, List.length_nil] at hlen
    omega

end Honyar.LocalScene
