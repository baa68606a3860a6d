import Honyar.LocalScene.Frame
import Mathlib.Data.List.Flatten

/-!
# The check of the time conditions

`scene_list_time_true_all` goes through the time conditions of a scene one after
the other, gives each its truth at the time of the check and decides there
whether the scene is executed.  What it looks at is a mixture: the conditions up
to this one are refreshed, the later ones are as the last check left them.  On a
consistent scene the decision is the scene formula over that mixture, which
gives the exact condition under which a check executes a scene only when its
formula holds for the time of the check.
-/

namespace Honyar.LocalScene

open CText Option List SceneInfo SceneList

variable {now : Tm} {s : SceneInfo} {p : CondPtr .time}
variable {s' : SceneInfo} {ts : List Trigger} {x : SceneList} {iTime : Int}

/-! ## Any scene -/

namespace SceneInfo

/-- A condition that is true triggers when it was false, and when it triggers
every so often and its interval has run out. -/
def rises (c : TimeCond) (iNewTrue iOldTrue : Bool) : Bool :=
  iNewTrue && (!iOldTrue || strstr c.acTriggerType triggerEvery && decide (c.iTriggerInterval ≤ 0))

/-- The check, when it comes to this condition, finds it risen and the scene
true. -/
def dueAt (now : Tm) (s : SceneInfo) (p : CondPtr .time) : Bool :=
  (s.node? p).any fun c =>
    let r := sceneTimeCondIsTrue now c.stCond
    (condTrueUpdate (s.modifyCond p fun _ => r.2) p r.1).any fun u =>
      rises c.stCond r.1 u.2 && u.1.ucSceneCondTrue

/-- The check comes to a condition that it finds risen with the scene true. -/
def ComesDue (now : Tm) (s : SceneInfo) : Prop :=
  ∃ ps p qs t ts, s.timePtrs = ps ++ p :: qs ∧ Run.run (timeCondCheck now) s ps = some (t, ts) ∧
    t.dueAt now p = true

end SceneInfo

theorem timeCondCheck_triggers (h : timeCondCheck now s p = some (s', ts)) :
    ts = if s.dueAt now p then [.exec] else [] := by
  simp only [timeCondCheck, bind_eq_bind, bind_eq_some_iff] at h
  obtain ⟨c, hc, h⟩ := h
  obtain ⟨c', s₁, old, f, hc', hu, -, -, rfl⟩ := sceneTimeCondTrueUpdate_some h
  rw [node?_modifyCond_self, hc, map_some, some.injEq] at hc'
  subst hc'
  obtain ⟨lose, hlose⟩ := sceneTimeCondIsTrue_snd now c.stCond
  have hdue : s.dueAt now p =
      (rises c.stCond (sceneTimeCondIsTrue now c.stCond).1 old &&
        s₁.ucSceneCondTrue) := by
    simp only [dueAt, hc, any_some, hu]
  rw [hdue, rises]
  simp only [hlose]

theorem mem_timeCondCheck_iff {w : Trigger} (h : timeCondCheck now s p = some (s', ts)) :
    w ∈ ts ↔ w = .exec ∧ s.dueAt now p = true := by
  rw [timeCondCheck_triggers h]
  split <;> simp_all

theorem mem_sceneTimeCheck_iff {w : Trigger} (h : sceneTimeCheck now s = some (s', ts)) :
    w ∈ ts ↔ w = .exec ∧ s.ComesDue now := by
  rw [Run.mem_run_iff h]
  constructor
  · rintro ⟨ps, p, qs, t, ot, t', o, hps, ht, hp, hw⟩
    obtain ⟨rfl, hdue⟩ := (mem_timeCondCheck_iff hp).mp hw
    exact ⟨rfl, ps, p, qs, t, ot, hps, ht, hdue⟩
  · rintro ⟨rfl, ps, p, qs, t, ot, hps, ht, hdue⟩
    rw [sceneTimeCheck, hps] at h
    obtain ⟨u, ou, oc, hu, hc, rfl⟩ := Run.run_append.mp h
    rw [ht, some.injEq, Prod.mk.injEq] at hu
    obtain ⟨rfl, rfl⟩ := hu
    obtain ⟨u', o', os', hp, -, rfl⟩ := Run.run_cons.mp hc
    exact ⟨ps, p, qs, t, ot, u', o', hps, ht, hp, (mem_timeCondCheck_iff hp).mpr ⟨rfl, hdue⟩⟩

/-! ## Consistent scenes -/

namespace SceneInfo

/-- The truth of a time condition at the time of the check. -/
def timeTrue (now : Tm) (s : SceneInfo) (p : CondPtr .time) : Bool :=
  (s.node? p).any fun c => (sceneTimeCondIsTrue now c.stCond).1

/-- The condition has risen since the last check. -/
def risen (now : Tm) (s : SceneInfo) (p : CondPtr .time) : Bool :=
  (s.node? p).any fun c => rises c.stCond (s.timeTrue now p) (s.condTrue p)

/-- The truths with some of the time conditions refreshed. -/
def refreshed (now : Tm) (s : SceneInfo) (ps : List (CondPtr .time)) : AnyPtr → Bool
  | ⟨.time, p⟩ => if p ∈ ps then s.timeTrue now p else s.condTrue p
  | ⟨.event, p⟩ => s.condTrue p

theorem refreshed_nil : s.refreshed now [] = s.truths := by
  funext ⟨k, q⟩
  cases k with
  | time => simp [refreshed, truths]
  | event => rfl

theorem refreshed_append_singleton (ps : List (CondPtr .time)) :
    s.refreshed now (ps ++ [p]) =
      Function.update (s.refreshed now ps) ⟨.time, p⟩ (s.timeTrue now p) := by
  funext ⟨k, q⟩
  cases k with
  | time =>
    by_cases hq : q = p
    · subst hq
      simp [refreshed]
    · have hne : (⟨.time, q⟩ : AnyPtr) ≠ ⟨.time, p⟩ := by
        intro h
        cases h
        exact hq rfl
      rw [Function.update_of_ne hne]
      simp [refreshed, hq]
  | event =>
    have hne : (⟨.event, q⟩ : AnyPtr) ≠ ⟨.time, p⟩ := by
      intro h
      cases h
    rw [Function.update_of_ne hne]
    rfl

theorem Wf.ptrs_eq_nil_iff {k : Kind} (hw : s.Wf) (l : Logic) :
    s.ptrs l k = [] ↔ (s.list l k).stList = [] := by
  constructor
  · intro h
    cases hx : (s.list l k).stList with
    | nil => rfl
    | cons n ns =>
      have hpos := ((hw l k).sets n (by simp [hx])).pos
      have := congrArg List.length h
      simp only [ptrs, hx, flatMap_cons, length_append, length_map,
        length_nil] at this
      omega
  · intro h
    simp [ptrs, h]

theorem Wf.formula_congr (hw : s.Wf) (hw' : s'.Wf) (h : ∀ l k, s'.ptrs l k = s.ptrs l k) :
    s'.formula = s.formula := by
  have hempty : ∀ l, s'.logicEmpty l = s.logicEmpty l := by
    intro l
    apply Bool.eq_iff_iff.mpr
    simp only [logicEmpty, Bool.and_eq_true, List.isEmpty_iff, ← hw.ptrs_eq_nil_iff,
      ← hw'.ptrs_eq_nil_iff, h]
  funext t
  simp only [formula, hempty, allPtrs, h]

theorem Chained.ptrs_nodup {k : Kind} (hs : s.Chained) (l : Logic) : (s.ptrs l k).Nodup := by
  rw [ptrs, nodup_flatMap]
  constructor
  · intro n hn
    have haddr := ((hs l k).sets n hn).addr
    rw [List.Nodup, pairwise_map] at haddr ⊢
    refine haddr.imp fun hne h => hne ?_
    exact congrArg CondPtr.pCondNode h
  · have haddr := (hs l k).addr
    rw [List.Nodup, pairwise_map] at haddr
    refine haddr.imp fun hne q hq hq' => ?_
    obtain ⟨c, -, rfl⟩ := List.mem_map.mp hq
    obtain ⟨c', -, h⟩ := List.mem_map.mp hq'
    exact hne (congrArg CondPtr.pCondSetNode h).symm

theorem Wf.chained (hw : s.Wf) : s.Chained := fun l k => (hw l k).chained

theorem Wf.timePtrs_eq (hw : s.Wf) : s.timePtrs = s.ptrs .or .time ++ s.ptrs .and .time := by
  simp only [timePtrs, CondList.walk_eq (hw _ _).size]
  rfl

theorem Wf.mem_timePtrs (hw : s.Wf) (hp : p ∈ s.timePtrs) : ∃ l, p ∈ s.ptrs l .time := by
  rw [hw.timePtrs_eq, mem_append] at hp
  rcases hp with hp | hp
  · exact ⟨_, hp⟩
  · exact ⟨_, hp⟩

theorem Chained.timePtrs_nodup (hs : s.Chained) : s.timePtrs.Nodup := by
  have hsub (l : Logic) : ((s.list l .time).walk.flatMap fun n =>
      n.pstCond.map fun c => (⟨l, n.addr, c.addr⟩ : CondPtr .time)).Sublist (s.ptrs l .time) := by
    refine List.Sublist.flatMap ?_ _
    rw [CondList.walk]
    split
    · exact nil_sublist _
    · exact List.Sublist.refl _
  refine List.Nodup.append ((hs.ptrs_nodup .or).sublist (hsub .or))
    ((hs.ptrs_nodup .and).sublist (hsub .and)) fun q hq hq' => ?_
  obtain ⟨n, -, hn⟩ := mem_flatMap.mp hq
  obtain ⟨m, -, hm⟩ := mem_flatMap.mp hq'
  obtain ⟨c, -, rfl⟩ := List.mem_map.mp hn
  obtain ⟨d, -, h⟩ := List.mem_map.mp hm
  cases congrArg CondPtr.acLogic h

theorem Wf.timePtrs_nodup (hw : s.Wf) : s.timePtrs.Nodup := hw.chained.timePtrs_nodup

end SceneInfo

theorem timeCondCheck_eq (now : Tm) (hw : s.Wf) (hc : s.Consistent) {l : Logic}
    (hp : p ∈ s.ptrs l .time) :
    ∃ s' ts, timeCondCheck now s p = some (s', ts) ∧ s'.Wf ∧ s'.Consistent ∧
      (∀ l k, s'.ptrs l k = s.ptrs l k) ∧
      s'.truths = Function.update s.truths ⟨.time, p⟩ (s.timeTrue now p) ∧
      (∀ q : CondPtr .time, q ≠ p → s'.node? q = s.node? q) ∧
      s.dueAt now p = (s.risen now p &&
        s.formula (Function.update s.truths ⟨.time, p⟩ (s.timeTrue now p))) := by
  obtain ⟨-, n, c, hn, hcn⟩ := (mem_ptrs_iff hw).mp hp
  have hnode : s.node? p = some c := by simp [node?, hn, hcn]
  -- the scene once the condition may have been marked as lost
  generalize hr : sceneTimeCondIsTrue now c.stCond = r
  have htrue : s.timeTrue now p = r.1 := by simp [timeTrue, hnode, hr]
  have hw₁ : (s.modifyCond p fun _ => r.2).Wf := hw.modifyCond
  have hc₁ : (s.modifyCond p fun _ => r.2).Consistent := hc.modifyCond
  have hptrs₁ : ∀ l k, (s.modifyCond p fun _ => r.2).ptrs l k = s.ptrs l k :=
    fun l k => ptrs_modifyCond l k
  have htruths₁ : (s.modifyCond p fun _ => r.2).truths = s.truths :=
    funext fun q => condTrue_modifyCond q.2
  obtain ⟨c', s', f, -, hs', -, hu⟩ := sceneTimeCondTrueUpdate_eq hw₁ hc₁
    (by rw [hptrs₁]; exact hp) r.1
  obtain ⟨hw', hc', hptrs'⟩ := condTrueInit_step hw₁ hc₁ hs'
  have htruths' := condTrueInit_truths hw₁ hs'
  have hcheck : timeCondCheck now s p =
      sceneTimeCondTrueUpdate (s.modifyCond p fun _ => r.2) r.1 p := by
    rw [timeCondCheck, hnode]
    simp only [bind_eq_bind, bind_some, hr]
  rw [hu] at hcheck
  refine ⟨_, _, hcheck, hw'.modifyCond, hc'.modifyCond, ?_, ?_, ?_, ?_⟩
  · intro l k
    rw [ptrs_modifyCond, hptrs', hptrs₁]
  · rw [htrue, ← htruths₁, ← htruths']
    exact funext fun q => condTrue_modifyCond q.2
  · intro q hq
    have hne : (⟨.time, q⟩ : AnyPtr) ≠ ⟨.time, p⟩ := by
      intro h
      cases h
      exact hq rfl
    rw [node?_modifyCond_of_ne hne,
      node?_of_eraseTruth_eq (condTrueInit_eraseTruth hs'),
      node?_modifyCond_of_ne hne]
  · have hformula : s'.ucSceneCondTrue =
        s.formula (Function.update s.truths ⟨.time, p⟩ (s.timeTrue now p)) := by
      rw [hc'.scene_eq_formula hw', htruths', htruths₁, htrue,
        hw.formula_congr hw' fun l k => by rw [hptrs', hptrs₁]]
    have hupdate := condTrueUpdate_eq_init hw₁ hc₁ (by rw [hptrs₁]; exact hp) r.1
    rw [hs', map_some, condTrue_modifyCond] at hupdate
    simp only [dueAt, risen, hnode, any_some, hr, hupdate, hformula,
      htrue]

theorem run_timeCondCheck_eq (now : Tm) (hw : s.Wf) (hc : s.Consistent) {ps : List (CondPtr .time)}
    (hnodup : ps.Nodup) (hps : ∀ p ∈ ps, ∃ l, p ∈ s.ptrs l .time) :
    ∃ t ts, Run.run (timeCondCheck now) s ps = some (t, ts) ∧ t.Wf ∧ t.Consistent ∧
      (∀ l k, t.ptrs l k = s.ptrs l k) ∧ t.truths = s.refreshed now ps ∧
      ∀ q : CondPtr .time, q ∉ ps → t.node? q = s.node? q := by
  induction ps using List.reverseRecOn with
  | nil => exact ⟨s, [], rfl, hw, hc, fun _ _ => rfl, refreshed_nil.symm, fun _ _ => rfl⟩
  | append_singleton ps p ih =>
    rw [nodup_append] at hnodup
    obtain ⟨hnodup, -, hdisj⟩ := hnodup
    have hpps : p ∉ ps := fun h => hdisj p h p (mem_singleton.mpr rfl) rfl
    obtain ⟨t, ts, hrun, hwt, hct, hptrs, htruths, hnode⟩ :=
      ih hnodup fun q hq => hps q (mem_append_left _ hq)
    obtain ⟨l, hp⟩ := hps p (by simp)
    obtain ⟨t', ts', hcheck, hwt', hct', hptrs', htruths', hnode', -⟩ :=
      timeCondCheck_eq now hwt hct (by rw [hptrs]; exact hp)
    refine ⟨t', ts ++ ts', ?_, hwt', hct', fun l k => by rw [hptrs', hptrs], ?_, ?_⟩
    · refine Run.run_append.mpr ⟨t, ts, ts', hrun, ?_, rfl⟩
      exact Run.run_cons.mpr ⟨t', ts', [], hcheck, rfl, by simp⟩
    · rw [htruths', htruths, refreshed_append_singleton, timeTrue,
        hnode p hpps, timeTrue]
    · intro q hq
      rw [mem_append, mem_singleton, not_or] at hq
      rw [hnode' q hq.2, hnode q hq.1]

/-- A consistent scene comes due when a condition has risen and the formula
holds with the conditions up to it refreshed. -/
theorem SceneInfo.comesDue_iff (hw : s.Wf) (hc : s.Consistent) :
    s.ComesDue now ↔ ∃ ps p qs, s.timePtrs = ps ++ p :: qs ∧ s.risen now p = true ∧
      s.formula (s.refreshed now (ps ++ [p])) = true := by
  have key : ∀ ps p qs, s.timePtrs = ps ++ p :: qs →
      ∃ t ts, Run.run (timeCondCheck now) s ps = some (t, ts) ∧
        t.dueAt now p = (s.risen now p && s.formula (s.refreshed now (ps ++ [p]))) := by
    intro ps p qs hps
    have hnodup := hw.timePtrs_nodup
    rw [hps, nodup_append] at hnodup
    have hpps : p ∉ ps := fun h => hnodup.2.2 p h p mem_cons_self rfl
    obtain ⟨t, ts, hrun, hwt, hct, hptrs, htruths, hnode⟩ :=
      run_timeCondCheck_eq now hw hc hnodup.1 fun q hq =>
        hw.mem_timePtrs (by rw [hps]; simp [hq])
    obtain ⟨l, hp⟩ := hw.mem_timePtrs (p := p) (by rw [hps]; simp)
    obtain ⟨-, -, -, -, -, -, -, -, hdue⟩ :=
      timeCondCheck_eq now hwt hct (by rw [hptrs]; exact hp)
    have htrue : t.timeTrue now p = s.timeTrue now p := by
      rw [timeTrue, hnode p hpps, timeTrue]
    have hold : t.condTrue p = s.condTrue p := by
      have := congrFun htruths ⟨.time, p⟩
      rw [refreshed, if_neg hpps] at this
      exact this
    refine ⟨t, ts, hrun, ?_⟩
    rw [hdue, hw.formula_congr hwt hptrs, htruths, htrue, refreshed_append_singleton, risen,
      hnode p hpps, htrue, hold, risen]
  constructor
  · rintro ⟨ps, p, qs, t, ts, hps, hrun, hdue⟩
    obtain ⟨t', ts', hrun', hdue'⟩ := key ps p qs hps
    rw [hrun, some.injEq, Prod.mk.injEq] at hrun'
    rw [← hrun'.1, hdue, Bool.true_eq, Bool.and_eq_true] at hdue'
    exact ⟨ps, p, qs, hps, hdue'⟩
  · rintro ⟨ps, p, qs, hps, hrisen, hformula⟩
    obtain ⟨t, ts, hrun, hdue⟩ := key ps p qs hps
    exact ⟨ps, p, qs, t, ts, hps, hrun, by rw [hdue, hrisen, hformula]; rfl⟩

/-! ## The list -/

theorem execs_append (os os' : List Effect) : execs (os ++ os') = execs os ++ execs os' :=
  filterMap_append

theorem execs_fire {a : Nat} {pstCondPtr : Nat} (ts : List Trigger) :
    execs (x.fire iTime a s pstCondPtr ts).2 =
      (ts.filter (· = .exec)).map fun _ => queueNode iTime a s := by
  induction ts generalizing x with
  | nil => rfl
  | cons t ts ih =>
    cases t with
    | exec =>
      rw [fire, execs_append, ih]
      rfl
    | timer ulTime => exact ih

theorem mem_execs_fire {a : Nat} {pstCondPtr : Nat} (ts : List Trigger) (q : QueueNode) :
    q ∈ execs (x.fire iTime a s pstCondPtr ts).2 ↔ .exec ∈ ts ∧ q = queueNode iTime a s := by
  rw [execs_fire, List.mem_map]
  constructor
  · rintro ⟨t, ht, rfl⟩
    obtain ⟨ht, hexec⟩ := mem_filter.mp ht
    exact ⟨of_decide_eq_true hexec ▸ ht, rfl⟩
  · rintro ⟨ht, rfl⟩
    exact ⟨.exec, mem_filter.mpr ⟨ht, by simp⟩, rfl⟩

theorem mem_execs_timeTrueLoop {x' : SceneList} {ns : List SceneNode} {os : List Effect}
    (h : timeTrueLoop iTime now x ns = some (x', os)) (q : QueueNode) :
    q ∈ execs os ↔ ∃ n ∈ ns, n.stSceneInfo.ComesDue now ∧
      ∃ s' ts, sceneTimeCheck now n.stSceneInfo = some (s', ts) ∧
        q = queueNode iTime n.addr s' := by
  induction ns generalizing x os with
  | nil =>
    simp only [timeTrueLoop, some.injEq, Prod.mk.injEq] at h
    simp [← h.2, execs]
  | cons n ns ih =>
    obtain ⟨s', ts, os₁, hcheck, hloop, rfl⟩ := timeTrueLoop_cons h
    rw [execs_append, mem_append, ih hloop, mem_execs_fire,
      mem_sceneTimeCheck_iff hcheck, exists_mem_cons_iff]
    refine or_congr ⟨?_, ?_⟩ Iff.rfl
    · rintro ⟨⟨-, hdue⟩, hq⟩
      exact ⟨hdue, s', ts, hcheck, hq⟩
    · rintro ⟨hdue, s₂, ts₂, hcheck₂, hq⟩
      rw [hcheck, some.injEq, Prod.mk.injEq] at hcheck₂
      exact ⟨⟨rfl, hdue⟩, hcheck₂.1 ▸ hq⟩

theorem pstExecQueue_fire (x : SceneList) (iTime : Int) (a : Nat) (s : SceneInfo)
    (pstCondPtr : Nat) (ts : List Trigger) :
    (x.fire iTime a s pstCondPtr ts).1.pstExecQueue =
      x.pstExecQueue ++ execs (x.fire iTime a s pstCondPtr ts).2 := by
  induction ts generalizing x with
  | nil => simp [fire, execs]
  | cons t ts ih =>
    cases t with
    | exec =>
      simp only [fire, ih, execs_append]
      simp [exec, execs]
    | timer ulTime => simp only [fire, ih]

theorem pstExecQueue_timeTrueLoop {x' : SceneList} {ns : List SceneNode} {os : List Effect}
    (h : timeTrueLoop iTime now x ns = some (x', os)) :
    x'.pstExecQueue = x.pstExecQueue ++ execs os := by
  induction ns generalizing x os with
  | nil =>
    simp only [timeTrueLoop, some.injEq, Prod.mk.injEq] at h
    simp [← h.1, ← h.2, execs]
  | cons n ns ih =>
    obtain ⟨s', ts, os₁, -, hloop, rfl⟩ := timeTrueLoop_cons h
    rw [ih hloop, pstExecQueue_fire, execs_append, append_assoc,
      pstExecQueue_setScene]

/-- A check executes a consistent scene only when its formula holds with all
time conditions refreshed, exactly when it does hold or no condition that has
risen finds the formula true with the conditions behind it as they were. -/
theorem sceneListTimeTrueAll_fires_iff {x x' : SceneList} {iTime : Int} {now : Tm} {a : Nat}
    {s : SceneInfo} {os : List Effect} (haddr : (x.stList.map SceneNode.addr).Nodup)
    (hs : x.scene? a = some s) (hw : s.Wf) (hc : s.Consistent)
    (h : sceneListTimeTrueAll x iTime now = some (x', os)) :
    x'.pstExecQueue = x.pstExecQueue ++ execs os ∧
      (((∃ q ∈ execs os, q.pstScene = a) → s.formula (s.refreshed now s.timePtrs) = true) ↔
        (s.formula (s.refreshed now s.timePtrs) = true ∨
          ∀ ps p qs, s.timePtrs = ps ++ p :: qs → s.risen now p = true →
            s.formula (s.refreshed now (ps ++ [p])) = false)) := by
  refine ⟨pstExecQueue_timeTrueLoop h, ?_⟩
  have hfires : (∃ q ∈ execs os, q.pstScene = a) ↔ s.ComesDue now := by
    obtain ⟨n, hn, rfl⟩ := map_eq_some_iff.mp hs
    obtain ⟨hnm, rfl⟩ := Keyed.mem_and_key_of_find? hn
    constructor
    · rintro ⟨q, hq, hqa⟩
      obtain ⟨m, hm, hdue, s', ts, -, rfl⟩ := (mem_execs_timeTrueLoop h q).mp hq
      rwa [← Keyed.eq_of_key_eq haddr hm hnm hqa]
    · intro hdue
      obtain ⟨t, ts, hrun, -⟩ := run_timeCondCheck_eq now hw hc hw.timePtrs_nodup
        fun p hp => hw.mem_timePtrs hp
      exact ⟨_, (mem_execs_timeTrueLoop h _).mpr ⟨n, hnm, hdue, t, ts, hrun, rfl⟩, rfl⟩
  rw [hfires, comesDue_iff hw hc]
  constructor
  · intro honly
    by_cases hf : s.formula (s.refreshed now s.timePtrs) = true
    · exact .inl hf
    · refine .inr fun ps p qs hps hrisen => ?_
      rw [← Bool.not_eq_true]
      exact fun hmix => hf (honly ⟨ps, p, qs, hps, hrisen, hmix⟩)
  · rintro (hf | hno) ⟨ps, p, qs, hps, hrisen, hmix⟩
    · exact hf
    · rw [hno ps p qs hps hrisen] at hmix
      cases hmix

namespace Sample

/-- Two `And` time conditions, from 8:02 to 8:03 and from 8:00 to 8:01, checked
at 8:00 on a Monday. -/
def twoTimes : SceneList :=
  ((sceneListTimeTrueAll
    (after (sceneTimeAndCondAdd
      (after (sceneTimeAndCondAdd list 0 (timeCond ['b'] ['2'] ['3']))) 0
      (timeCond ['a'] ['0'] ['1']))) 0 ⟨1, 8, 0⟩).map Prod.fst).getD .init

end Sample

/-- At 8:01 the scene is not executed. -/
theorem sceneListTimeTrueAll_fires_iff_sample :
    ∃ x' os, sceneListTimeTrueAll Sample.twoTimes 0 ⟨1, 8, 1⟩ = some (x', os) ∧
      (x'.pstExecQueue = Sample.twoTimes.pstExecQueue ++ execs os ∧
        (((∃ q ∈ execs os, q.pstScene = 0) →
            (Sample.scene Sample.twoTimes).formula ((Sample.scene Sample.twoTimes).refreshed
              ⟨1, 8, 1⟩ (Sample.scene Sample.twoTimes).timePtrs) = true) ↔
          ((Sample.scene Sample.twoTimes).formula ((Sample.scene Sample.twoTimes).refreshed
              ⟨1, 8, 1⟩ (Sample.scene Sample.twoTimes).timePtrs) = true ∨
            ∀ ps p qs, (Sample.scene Sample.twoTimes).timePtrs = ps ++ p :: qs →
              (Sample.scene Sample.twoTimes).risen ⟨1, 8, 1⟩ p = true →
                (Sample.scene Sample.twoTimes).formula
                  ((Sample.scene Sample.twoTimes).refreshed ⟨1, 8, 1⟩ (ps ++ [p])) = false))) :=
  ⟨_, _, rfl, sceneListTimeTrueAll_fires_iff (x := Sample.twoTimes) (a := 0) (by decide) rfl
    (by decide) (by decide) rfl⟩

/-- At 8:02 the first condition becomes true while the second, which ended, still
reads true: the scene is executed. -/
theorem sceneListTimeTrueAll_fires_stale :
    (Sample.scene Sample.twoTimes).Wf ∧ (Sample.scene Sample.twoTimes).Consistent ∧
      Sample.twoTimes.scene? 0 = some (Sample.scene Sample.twoTimes) ∧
      ∃ x' os, sceneListTimeTrueAll Sample.twoTimes 0 ⟨1, 8, 2⟩ = some (x', os) ∧
        x'.pstExecQueue = Sample.twoTimes.pstExecQueue ++ execs os ∧
        ¬ ((∃ q ∈ execs os, q.pstScene = 0) →
          (Sample.scene Sample.twoTimes).formula ((Sample.scene Sample.twoTimes).refreshed
            ⟨1, 8, 2⟩ (Sample.scene Sample.twoTimes).timePtrs) = true) := by
  refine ⟨by decide, by decide, rfl, _, _, rfl, by decide, ?_⟩
  decide

end Honyar.LocalScene
