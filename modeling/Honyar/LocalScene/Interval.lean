import Honyar.LocalScene.Routing
import Honyar.LocalScene.Stored

/-!
# The interval of a time condition

A time condition of type `Every` executes its scene again and again while it stays true,
`acTriggerInterval` checks apart: a counter is loaded when the scene is put into the queue and
counted down at the checks after it.

What the check does to one condition is a function of the condition, its old and its new truth
and the truth of the scene (`TimeCond.check`).  Other conditions, events, panels and timers leave
a time condition and its truth alone, so that the checks of a condition are those of its own
counter, whatever happens in between.
-/

namespace Honyar.LocalScene

open CText Option List SceneInfo SceneList TimeCond

variable {ts : List Trigger} {old : Bool} {iTime : Int} {os : List Effect}

/-! ## One condition -/

namespace TimeCond

/-- The trigger type contains `Every`. -/
def isEvery (c : TimeCond) : Bool := strstr c.acTriggerType triggerEvery

/-- What `scene_time_cond_true_update` does to a condition, and whether it puts the scene into
the queue. -/
def check (c : TimeCond) (iNewCondTrue iOldCondTrue ucSceneCondTrue : Bool) : TimeCond × Bool :=
  if iNewCondTrue ≠ iOldCondTrue then
    if iNewCondTrue && !iOldCondTrue && ucSceneCondTrue then (c.resetInterval, true) else (c, false)
  else if c.isEvery && iNewCondTrue && ucSceneCondTrue then
    if c.iTriggerInterval ≤ 0 then (c.resetInterval, true) else (c.countInterval, false)
  else (c, false)

end TimeCond

/-- A time condition, and its truth. -/
def SceneInfo.timeView (s : SceneInfo) (p : CondPtr .time) : Option (TimeCond × Bool) :=
  (s.node? p).map fun c => (c.stCond, s.condTrue p)

variable {now : Tm} {s s' : SceneInfo} {p q : CondPtr .time}

theorem SceneInfo.timeView_eq_some {c : TimeCond} {b : Bool} :
    s.timeView p = some (c, b) ↔
      (∃ n, s.node? p = some n ∧ n.stCond = c) ∧ s.condTrue p = b := by
  rw [timeView, map_eq_some_iff]
  constructor
  · rintro ⟨n, hn, heq⟩
    cases heq
    exact ⟨⟨n, hn, rfl⟩, rfl⟩
  · rintro ⟨⟨n, hn, rfl⟩, rfl⟩
    exact ⟨n, hn, rfl⟩

theorem SceneInfo.timeView_congr (hnode : s'.node? p = s.node? p)
    (htrue : s'.condTrue p = s.condTrue p) : s'.timeView p = s.timeView p := by
  rw [timeView, timeView, hnode, htrue]

/-- The update of a condition, as far as its own record is concerned. -/
theorem sceneTimeCondTrueUpdate_view {b : Bool} {c : TimeCond} (hs : s.Chained)
    (hv : s.timeView p = some (c, old)) (h : sceneTimeCondTrueUpdate s b p = some (s', ts)) :
    s'.timeView p = some ((c.check b old s'.ucSceneCondTrue).1, b) ∧
      ts = if (c.check b old s'.ucSceneCondTrue).2 then [.exec] else [] := by
  obtain ⟨⟨n, hn, rfl⟩, rfl⟩ := timeView_eq_some.mp hv
  simp only [sceneTimeCondTrueUpdate, hn, bind_eq_bind, bind_some,
    bind_eq_some_iff] at h
  obtain ⟨⟨s₁, old⟩, hu, h⟩ := h
  obtain ⟨rfl, htruths⟩ := condTrueUpdate_truths hs hu
  have hnode : s₁.node? p = some n :=
    (node?_of_eraseTruth_eq (condTrueUpdate_eraseTruth hu) p).trans hn
  have htrue : s₁.condTrue p = b := by
    have := congrFun htruths ⟨.time, p⟩
    rwa [Function.update_self] at this
  have hview : ∀ f : TimeCond → TimeCond,
      (s₁.modifyCond p f).timeView p = some (f n.stCond, b) := by
    intro f
    rw [timeView, node?_modifyCond_self, hnode,
      condTrue_modifyCond, htrue]
    rfl
  have hself : s₁.timeView p = some (n.stCond, b) := by
    rw [timeView, hnode, htrue]
    rfl
  have hscene : ∀ f : TimeCond → TimeCond,
      (s₁.modifyCond p f).ucSceneCondTrue = s₁.ucSceneCondTrue := by
    intro f
    obtain ⟨l, a, d⟩ := p
    cases l <;> rfl
  -- each branch of the update is one of the function of the record
  have hbranch : ∃ c q, n.stCond.check b (s.condTrue p) s'.ucSceneCondTrue = (c, q) ∧
      s'.timeView p = some (c, b) ∧ ts = if q then [.exec] else [] := by
    split at h
    · rename_i hne
      split at h <;> rename_i hrise <;>
        simp only [Option.pure_def, some.injEq, Prod.mk.injEq] at h <;>
        obtain ⟨rfl, rfl⟩ := h
      · refine ⟨_, true, ?_, hview _, rfl⟩
        rw [hscene, check, if_pos hne, if_pos hrise]
      · refine ⟨_, false, ?_, hself, rfl⟩
        rw [check, if_pos hne, if_neg hrise]
    · rename_i heq
      split at h
      · rename_i hevery
        split at h <;> rename_i hover <;>
          simp only [Option.pure_def, some.injEq, Prod.mk.injEq] at h <;>
          obtain ⟨rfl, rfl⟩ := h
        · refine ⟨_, true, ?_, hview _, rfl⟩
          rw [hscene, check, if_neg heq, isEvery, if_pos hevery, if_pos hover]
        · refine ⟨_, false, ?_, hview _, rfl⟩
          rw [hscene, check, if_neg heq, isEvery, if_pos hevery, if_neg hover]
      · rename_i hevery
        simp only [Option.pure_def, some.injEq, Prod.mk.injEq] at h
        obtain ⟨rfl, rfl⟩ := h
        refine ⟨_, false, ?_, hself, rfl⟩
        rw [check, if_neg heq, isEvery, if_neg hevery]
  obtain ⟨c, q, hcheck, hview', rfl⟩ := hbranch
  rw [hcheck]
  exact ⟨hview', rfl⟩

variable {heap : Nat}

theorem timeCondCheck_view {c : TimeCond} (hs : s.Placed heap) (hv : s.timeView p = some (c, old))
    (h : timeCondCheck now s p = some (s', ts)) :
    let r := sceneTimeCondIsTrue now c
    s'.timeView p = some ((r.2.check r.1 old s'.ucSceneCondTrue).1, r.1) ∧
      ts = if (r.2.check r.1 old s'.ucSceneCondTrue).2 then [.exec] else [] := by
  obtain ⟨⟨n, hn, rfl⟩, rfl⟩ := timeView_eq_some.mp hv
  simp only [timeCondCheck, hn, bind_eq_bind, bind_some] at h
  have hplaced := (SceneInfo.Marked.lose now hn).shrinks.placed hs
  refine sceneTimeCondTrueUpdate_view hplaced.chained ?_ h
  rw [timeView, node?_modifyCond_self, hn, condTrue_modifyCond]
  rfl

theorem timeCondCheck_view_of_ne (hs : s.Placed heap) (hne : p ≠ q)
    (h : timeCondCheck now s q = some (s', ts)) : s'.timeView p = s.timeView p := by
  have hptr : (⟨.time, p⟩ : AnyPtr) ≠ ⟨.time, q⟩ := by
    intro heq
    cases heq
    exact hne rfl
  simp only [timeCondCheck, bind_eq_bind, bind_eq_some_iff] at h
  obtain ⟨c, hc, hcheck⟩ := h
  obtain ⟨-, t, old, f, -, hu, rfl, hf, -⟩ := sceneTimeCondTrueUpdate_some hcheck
  have hchained := ((SceneInfo.Marked.lose now hc).shrinks.placed hs).chained
  have htruths := congrFun (condTrueUpdate_truths hchained hu).2 ⟨.time, p⟩
  rw [Function.update_of_ne hptr] at htruths
  refine timeView_congr ?_ ?_
  · rw [node?_modifyCond_of_ne hptr,
      node?_of_eraseTruth_eq (condTrueUpdate_eraseTruth hu),
      node?_modifyCond_of_ne hptr]
  · rw [condTrue_modifyCond]
    exact htruths.trans (condTrue_modifyCond p)

theorem run_timeCondCheck_view_of_notMem {ps : List (CondPtr .time)} (hs : s.Placed heap)
    (hp : p ∉ ps) (h : Run.run (timeCondCheck now) s ps = some (s', ts)) :
    s'.Placed heap ∧ s'.timeView p = s.timeView p := by
  induction ps generalizing s ts with
  | nil =>
    simp only [Run.run, some.injEq, Prod.mk.injEq] at h
    exact h.1 ▸ ⟨hs, rfl⟩
  | cons q ps ih =>
    rw [mem_cons, not_or] at hp
    obtain ⟨t, o, os, ht, hrest, -⟩ := Run.run_cons.mp h
    obtain ⟨hs', hv⟩ := ih ((timeCondCheck_marked ht).shrinks.placed hs) hp.2 hrest
    exact ⟨hs', hv.trans (timeCondCheck_view_of_ne hs hp.1 ht)⟩

/-! ## The check of a scene -/

/-- What the update of a condition finds at a check, and whether it puts the scene into the
queue. -/
structure CondCheck where
  iNewCondTrue : Bool
  iOldCondTrue : Bool
  ucSceneCondTrue : Bool
  queued : Bool
deriving DecidableEq

namespace SceneInfo

/-- The check of the scene comes to a condition: the conditions before it have been checked. -/
def condCheck (now : Tm) (s : SceneInfo) (p : CondPtr .time) : Option CondCheck :=
  if s.timePtrs.contains p then do
    let t ← Run.run (timeCondCheck now) s (s.timePtrs.takeWhile (· ≠ p))
    let c ← t.1.timeView p
    let u ← timeCondCheck now t.1 p
    return ⟨(sceneTimeCondIsTrue now c.1).1, c.2, u.1.ucSceneCondTrue, u.2.contains .exec⟩
  else none

end SceneInfo

/-- A condition after a check, and what the check found. -/
def TimeCond.atCheck (now : Tm) (c : TimeCond) (old scene : Bool) : TimeCond × CondCheck :=
  let r := sceneTimeCondIsTrue now c
  ((r.2.check r.1 old scene).1, ⟨r.1, old, scene, (r.2.check r.1 old scene).2⟩)

/-- The check of a scene checks each of its time conditions once. -/
theorem sceneTimeCheck_view {c : TimeCond} (hs : s.Placed heap) (hv : s.timeView p = some (c, old))
    (h : sceneTimeCheck now s = some (s', ts)) :
    s.condCheck now p = none ∧ s'.timeView p = some (c, old) ∨
      ∃ scene, s.condCheck now p = some (c.atCheck now old scene).2 ∧
        s'.timeView p =
          some ((c.atCheck now old scene).1, (c.atCheck now old scene).2.iNewCondTrue) := by
  by_cases hp : p ∈ s.timePtrs
  · right
    obtain ⟨ps, qs, hps, hpps⟩ := eq_append_cons_of_mem hp
    have hnodup := hs.chained.timePtrs_nodup
    rw [hps, nodup_append, nodup_cons] at hnodup
    have hother : ∀ q ∈ ps, decide (q ≠ p) = true :=
      fun q hq => decide_eq_true fun heq => hpps (heq ▸ hq)
    have htake : s.timePtrs.takeWhile (· ≠ p) = ps := by
      rw [hps, takeWhile_append_of_pos hother, takeWhile_cons_of_neg (by simp),
        append_nil]
    rw [sceneTimeCheck, hps] at h
    obtain ⟨t, ot, oc, ht, hrest, -⟩ := Run.run_append.mp h
    obtain ⟨u, o, os, hu, hqs, -⟩ := Run.run_cons.mp hrest
    obtain ⟨hst, hvt⟩ := run_timeCondCheck_view_of_notMem hs hpps ht
    rw [hv] at hvt
    obtain ⟨hvu, ho⟩ := timeCondCheck_view hst hvt hu
    obtain ⟨-, hvs⟩ := run_timeCondCheck_view_of_notMem
      ((timeCondCheck_marked hu).shrinks.placed hst)
      hnodup.2.1.1 hqs
    refine ⟨u.ucSceneCondTrue, ?_, hvs.trans hvu⟩
    have hqueued : o.contains .exec = (c.atCheck now old u.ucSceneCondTrue).2.queued := by
      rw [ho, atCheck]
      split
      · rename_i hq
        rw [hq]
        rfl
      · rename_i hq
        rw [Bool.not_eq_true] at hq
        rw [hq]
        rfl
    rw [condCheck, if_pos (contains_iff_mem.mpr hp), htake, ht]
    simp only [bind_eq_bind, bind_some, hvt, hu, Option.pure_def, hqueued]
    rfl
  · left
    exact ⟨if_neg fun h => hp (contains_iff_mem.mp h),
      (run_timeCondCheck_view_of_notMem hs hp h).2.trans hv⟩

/-! ## The list -/

/-- The view of a condition of the scene at an address. -/
def SceneList.timeView (x : SceneList) (a : Nat) (p : CondPtr .time) : Option (TimeCond × Bool) :=
  (x.scene? a).bind fun s => s.timeView p

variable {x x' : SceneList} {a : Nat}

theorem SceneList.timeView_congr (h : x'.stList = x.stList) : x'.timeView a p = x.timeView a p := by
  rw [timeView, timeView, scene?, scene?, h]

theorem scene?_timeTrueLoop_of_notMem {ns : List SceneNode} (ha : ∀ n ∈ ns, n.addr ≠ a)
    (h : timeTrueLoop iTime now x ns = some (x', os)) : x'.scene? a = x.scene? a := by
  induction ns generalizing x os with
  | nil =>
    simp only [timeTrueLoop, some.injEq, Prod.mk.injEq] at h
    rw [h.1]
  | cons n ns ih =>
    obtain ⟨s', ts, os₂, -, hloop, -⟩ := timeTrueLoop_cons h
    obtain ⟨hn, hns⟩ := forall_mem_cons.mp ha
    rw [ih hns hloop, scene?_fire, scene?_setScene_of_ne (Ne.symm hn)]

theorem scene?_timeTrueLoop {ns : List SceneNode} (hns : (ns.map SceneNode.addr).Nodup)
    (hx : ∀ n ∈ ns, x.scene? n.addr = some n.stSceneInfo)
    (h : timeTrueLoop iTime now x ns = some (x', os)) {n : SceneNode} (hn : n ∈ ns) :
    ∃ s' ts, sceneTimeCheck now n.stSceneInfo = some (s', ts) ∧ x'.scene? n.addr = some s' := by
  induction ns generalizing x os with
  | nil => cases hn
  | cons m ns ih =>
    obtain ⟨s', ts, os₂, hcheck, hloop, -⟩ := timeTrueLoop_cons h
    rw [map_cons, nodup_cons] at hns
    obtain ⟨hm, hrest⟩ := forall_mem_cons.mp hx
    have hother : ∀ d ∈ ns, d.addr ≠ m.addr := fun d hd heq =>
      hns.1 (heq ▸ List.mem_map_of_mem hd)
    rcases mem_cons.mp hn with rfl | hn
    · refine ⟨s', ts, hcheck, ?_⟩
      rw [scene?_timeTrueLoop_of_notMem hother hloop, scene?_fire]
      exact scene?_setScene_self hm s'
    · refine ih hns.2 (fun d hd => ?_) hloop hn
      rw [scene?_fire, scene?_setScene_of_ne (hother d hd)]
      exact hrest d hd

/-! ## Steps -/

/-- The check of a condition of the scene at `a` in a step, if the step is one. -/
def SceneList.condCheck (x : SceneList) (a : Nat) (p : CondPtr .time) : Act → Option CondCheck
  | .timeTrueAll _ now => (x.scene? a).bind fun s => s.condCheck now p
  | _ => none

/-- The checks of a condition in a run. -/
def condChecks (a : Nat) (p : CondPtr .time) : Engine → List Act → List CondCheck
  | _, [] => []
  | x, act :: acts =>
    match x.step act with
    | none => []
    | some y => (x.list.condCheck a p act).toList ++ condChecks a p y.1 acts

variable {y y' : Engine}

theorem eventCondNode_timeView {e : Event} {n : PtrNode} (hy : Indexed y.list)
    (h : eventCondNode iTime e y n = some (y', os)) :
    y'.list.timeView a p = y.list.timeView a p := by
  obtain ⟨s, s', hs, hs', hother, hvisit⟩ := eventCondNode_visits hy h
  by_cases ha : a = n.pstScene
  · subst ha
    rw [SceneList.timeView, SceneList.timeView, hs, hs', bind_some, bind_some]
    obtain ⟨-, rfl, -⟩ | ⟨-, q, -, hvisit, -⟩ := hvisit
    · rfl
    · have hptr : (⟨.time, p⟩ : AnyPtr) ≠ ⟨.event, q⟩ := by
        intro heq
        cases heq
      obtain ⟨hnode, htrue⟩ := hvisit.others .time p hptr
      exact timeView_congr hnode htrue
  · rw [SceneList.timeView, SceneList.timeView, hother a ha]

theorem eventPanelNode_timeView {n : PtrNode} (h : eventPanelNode iTime y n = some (y', os)) :
    y'.list.timeView a p = y.list.timeView a p := by
  obtain ⟨s, -, ⟨rfl, -⟩ | ⟨-, -, hexec⟩⟩ := eventPanelNode_cases h
  · rfl
  · rw [exec, Prod.mk.injEq] at hexec
    exact timeView_congr (by rw [hexec.1])

theorem sceneListEvent_timeView {e : Event} (hy : Indexed y.list)
    (h : sceneListEvent y iTime e = some (y', os)) :
    y'.list.timeView a p = y.list.timeView a p := by
  simp only [sceneListEvent] at h
  split at h
  · refine (Run.run_preserves
      (I := fun z => Indexed z.list ∧ z.list.timeView a p = y.list.timeView a p) ?_ ⟨hy, rfl⟩ h).2
    rintro z n z' o ⟨hz, hv⟩ hstep
    exact ⟨eventCondNode_indexed hz hstep, (eventCondNode_timeView hz hstep).trans hv⟩
  · exact Run.run_preserves (I := fun z => z.list.timeView a p = y.list.timeView a p)
      (fun _ _ _ _ hv hstep => (eventPanelNode_timeView hstep).trans hv) rfl h

/-- A step that is not a request leaves a time condition alone or checks it. -/
theorem step_timeView {act : Act} {c : TimeCond} (hy : Indexed y.list)
    (hact : act.isRequest = false) (hv : y.list.timeView a p = some (c, old))
    (h : y.step act = some (y', os)) :
    y.list.condCheck a p act = none ∧ y'.list.timeView a p = some (c, old) ∨
      ∃ now scene, y.list.condCheck a p act = some (c.atCheck now old scene).2 ∧
        y'.list.timeView a p =
          some ((c.atCheck now old scene).1, (c.atCheck now old scene).2.iNewCondTrue) := by
  cases act with
  | event t e => exact .inl ⟨rfl, (sceneListEvent_timeView hy h).trans hv⟩
  | timeout t i =>
    obtain ⟨⟨z, os'⟩, hz, heq⟩ := map_eq_some_iff.mp h
    cases heq
    have hsame := (sceneContinueTriggerTimerFun_stList hz).1
    exact .inl ⟨rfl, (SceneList.timeView_congr hsame).trans hv⟩
  | execQueue t =>
    simp only [Engine.step, some.injEq, Prod.mk.injEq] at h
    refine .inl ⟨rfl, Eq.trans ?_ hv⟩
    rw [← h.1]
    exact SceneList.timeView_congr rfl
  | timeTrueAll t now =>
    obtain ⟨⟨z, os'⟩, hz, heq⟩ := map_eq_some_iff.mp h
    cases heq
    obtain ⟨s, hs, hvs⟩ := bind_eq_some_iff.mp hv
    have hmem := SceneList.mem_of_scene? hs
    obtain ⟨s', ts, hcheck, hs'⟩ :=
      scene?_timeTrueLoop hy.addrs (fun n hn => hy.scene?_eq_some hn) hz hmem
    have hview : z.timeView a p = s'.timeView p := by
      rw [SceneList.timeView, hs']
      rfl
    have hseen : y.list.condCheck a p (.timeTrueAll t now) = s.condCheck now p := by
      rw [SceneList.condCheck, hs]
      rfl
    rw [hview, hseen]
    obtain ⟨hnone, hsame⟩ | ⟨scene, hone, hnext⟩ :=
      sceneTimeCheck_view (hy.placed _ hmem) hvs hcheck
    · exact .inl ⟨hnone, hsame⟩
    · exact .inr ⟨now, scene, hone, hnext⟩
  | _ => cases hact

/-! ## Runs -/

theorem condChecks_cases {acts : List Act} {c : TimeCond} (hy : Indexed y.list)
    (hacts : ∀ act ∈ acts, act.isRequest = false) (hv : y.list.timeView a p = some (c, old)) :
    condChecks a p y acts = [] ∨ ∃ now scene z acts', Indexed z.list ∧
      (∀ act ∈ acts', act.isRequest = false) ∧
      z.list.timeView a p =
        some ((c.atCheck now old scene).1, (c.atCheck now old scene).2.iNewCondTrue) ∧
      condChecks a p y acts = (c.atCheck now old scene).2 :: condChecks a p z acts' := by
  induction acts generalizing y with
  | nil => exact .inl rfl
  | cons act acts ih =>
    obtain ⟨hact, hrest⟩ := forall_mem_cons.mp hacts
    rw [condChecks]
    cases hstep : y.step act with
    | none => exact .inl rfl
    | some r =>
      have hz : Indexed r.1.list := step_indexed hy hstep
      obtain ⟨hnone, hsame⟩ | ⟨now, scene, hone, hnext⟩ := step_timeView hy hact hv hstep
      · simp only [hnone, toList_none, nil_append]
        exact ih hz hrest hsame
      · exact .inr ⟨now, scene, r.1, acts, hz, hrest, hnext, by rw [hone]; rfl⟩

namespace TimeCond

/-- The condition counts to `n`, `k` checks after the one at which it became true. -/
structure Counts (c : TimeCond) (every : Bool) (n k : Nat) : Prop where
  isEvery : c.isEvery = every
  interval : every = true → atoi c.acTriggerInterval = n
  counter : every = true → c.iTriggerInterval = (n : Int) - 1 - (k % n : Nat)

variable {c : TimeCond} {every : Bool} {n k : Nat}

theorem atCheck_first (hevery : c.isEvery = every)
    (hn : every = true → atoi c.acTriggerInterval = n)
    (htrue : (c.atCheck now false true).2.iNewCondTrue = true) :
    (c.atCheck now false true).2.queued = true ∧ (c.atCheck now false true).1.Counts every n 0 := by
  obtain ⟨lose, hlose⟩ := sceneTimeCondIsTrue_snd now c
  have hnew : (sceneTimeCondIsTrue now c).1 = true := htrue
  have hcheck : (sceneTimeCondIsTrue now c).2.check (sceneTimeCondIsTrue now c).1 false true =
      (resetInterval { c with acLose := lose }, true) := by
    rw [hlose, hnew]
    rfl
  simp only [atCheck, hcheck]
  refine ⟨trivial, hevery, hn, fun he => ?_⟩
  rw [Nat.zero_mod, ← hn he]
  exact (Int.sub_zero _).symm

/-- A check after it: the scene is put into the queue when the counter has run out. -/
theorem Counts.atCheck (h : c.Counts every n k) (hpos : 0 < n)
    (htrue : (c.atCheck now true true).2.iNewCondTrue = true) :
    ((c.atCheck now true true).2.queued = true ↔ every = true ∧ n ∣ k + 1) ∧
      (c.atCheck now true true).1.Counts every n (k + 1) := by
  obtain ⟨lose, hlose⟩ := sceneTimeCondIsTrue_snd now c
  have hnew : (sceneTimeCondIsTrue now c).1 = true := htrue
  have hcheck : (sceneTimeCondIsTrue now c).2.check (sceneTimeCondIsTrue now c).1 true true =
      if every = true then
        if c.iTriggerInterval ≤ 0 then (resetInterval { c with acLose := lose }, true)
        else (countInterval { c with acLose := lose }, false)
      else ({ c with acLose := lose }, false) := by
    rw [hlose, hnew, ← h.isEvery, check, if_neg (by simp), Bool.and_true, Bool.and_true]
    rfl
  simp only [TimeCond.atCheck, hcheck]
  split
  · rename_i he
    have hcounter := h.counter he
    have hlt := Nat.mod_lt k hpos
    have hsucc : (k + 1) % n = (k % n + 1) % n := (Nat.mod_add_mod k n 1).symm
    split
    · -- the counter is zero at the last check of an interval
      rename_i hover
      have hmod : (k + 1) % n = 0 := by
        rw [hsucc, show k % n + 1 = n by omega, Nat.mod_self]
      refine ⟨iff_of_true rfl ⟨he, Nat.dvd_of_mod_eq_zero hmod⟩, h.isEvery, h.interval,
        fun _ => ?_⟩
      rw [hmod, ← h.interval he]
      exact (Int.sub_zero _).symm
    · rename_i hleft
      have hmod : (k + 1) % n = k % n + 1 := by
        rw [hsucc, Nat.mod_eq_of_lt (by omega)]
      refine ⟨iff_of_false Bool.false_ne_true fun hd => ?_, h.isEvery, h.interval, fun _ => ?_⟩
      · have := Nat.mod_eq_zero_of_dvd hd.2
        omega
      · show c.iTriggerInterval - 1 = _
        omega
  · rename_i he
    exact ⟨iff_of_false Bool.false_ne_true fun hd => he hd.1, h.isEvery, h.interval,
      fun h' => absurd h' he⟩

end TimeCond

theorem condChecks_counts {every : Bool} {n k : Nat} {acts : List Act} {c : TimeCond}
    (hpos : 0 < n) (hy : Indexed y.list) (hacts : ∀ act ∈ acts, act.isRequest = false)
    (hv : y.list.timeView a p = some (c, true)) (hc : c.Counts every n k)
    (htrue : ∀ d ∈ condChecks a p y acts, d.iNewCondTrue = true ∧ d.ucSceneCondTrue = true)
    {j : Nat} {d : CondCheck} (hj : (condChecks a p y acts)[j]? = some d) :
    d.queued = true ↔ every = true ∧ n ∣ k + 1 + j := by
  induction j generalizing y acts c k with
  | zero =>
    obtain hnil | ⟨now, scene, z, acts', hz, hacts', hvz, heq⟩ := condChecks_cases hy hacts hv
    · rw [hnil] at hj
      cases hj
    · rw [heq] at hj htrue
      obtain ⟨⟨hnew, rfl⟩, -⟩ := forall_mem_cons.mp htrue
      obtain rfl := some.inj hj
      exact (hc.atCheck hpos hnew).1
  | succ j ih =>
    obtain hnil | ⟨now, scene, z, acts', hz, hacts', hvz, heq⟩ := condChecks_cases hy hacts hv
    · rw [hnil] at hj
      cases hj
    · rw [heq] at hj htrue
      obtain ⟨⟨hnew, rfl⟩, hrest⟩ := forall_mem_cons.mp htrue
      rw [hnew] at hvz
      rw [ih hz hacts' hvz (hc.atCheck hpos hnew).2 hrest hj]
      rw [Nat.add_right_comm (k + 1), Nat.add_assoc (k + 1)]

namespace Sample

/-- "Every second check from 8:00 to 8:05 on a Monday". -/
def everySecond : TimeCond :=
  { timeCond ['t'] ['0'] ['5'] with acTriggerType := triggerEvery, acTriggerInterval := ['2'] }

/-- A scene with this condition. -/
def everyRun : List Act := [.sceneAdd text, .condAdd ['1'] .or .time everySecond]

/-- Four checks. -/
def fourChecks : List Act :=
  [.timeTrueAll 0 ⟨1, 8, 0⟩, .timeTrueAll 60 ⟨1, 8, 1⟩, .timeTrueAll 120 ⟨1, 8, 2⟩,
    .timeTrueAll 180 ⟨1, 8, 3⟩]

end Sample

end Honyar.LocalScene
