import Honyar.LocalScene.IntegrityRun

/-!
# Deferred work

A queued scene waits for its delay and a `Continue` timer for its time; both
hold pointers meanwhile: the queue to the scene and its actions, the timer to
the node of the hash table its condition is filed with.  Deleting a scene or a
condition purges neither.

`Deferred` says that these pointers lead somewhere.  It holds as long as nothing
is deleted that the queue or a timer still refers to.
-/

namespace Honyar.LocalScene

open CText Option List SceneInfo SceneList Keyed CondList

variable {l : Logic} {k : Kind} {x x' x'' : SceneList} {a : Nat} {s s' : SceneInfo}
  {P : CText × PtrNode → Prop}

variable {e : PtrNode} {c : Cond k} {r : ErrNo} {key : CText} {iTime : Int}

/-- The node leads to a condition that exists. -/
def SceneList.LeadsToCond (x : SceneList) (e : CText × PtrNode) : Prop :=
  ∃ n ∈ x.stList, n.addr = e.2.pstScene ∧ ∃ p, e.2.target = .cond p ∧ n.stSceneInfo.Has p e.1

/-- Everything that waits refers to something that exists. -/
structure Deferred (x : SceneList) : Prop where
  queue : ∀ q ∈ x.pstExecQueue, ∃ n ∈ x.stList, n.addr = q.pstScene
  timers : ∀ t ∈ x.timers, ∃ e ∈ x.pHashTable, e.2.addr = t.pstCondPtr ∧ x.LeadsToCond e

/-! ## Requests -/

/-- A request that leaves the queue, the timers, the scenes and those nodes with
`P` that lead to a condition. -/
structure SceneList.Carries (P : CText × PtrNode → Prop) (x x' : SceneList) : Prop where
  queue : x'.pstExecQueue = x.pstExecQueue
  timers : x'.timers = x.timers
  scenes : ∀ n ∈ x.stList, ∃ m ∈ x'.stList, m.addr = n.addr
  nodes : ∀ e ∈ x.pHashTable, P e → x.LeadsToCond e → e ∈ x'.pHashTable ∧ x'.LeadsToCond e

namespace SceneList.Carries

theorem refl (x : SceneList) : x.Carries P x :=
  ⟨rfl, rfl, fun n hn => ⟨n, hn, rfl⟩, fun _ he _ hleads => ⟨he, hleads⟩⟩

theorem trans (h : x.Carries P x') (h' : x'.Carries P x'') : x.Carries P x'' where
  queue := h'.queue.trans h.queue
  timers := h'.timers.trans h.timers
  scenes n hn := by
    obtain ⟨m, hm, hmn⟩ := h.scenes n hn
    obtain ⟨o, ho, hom⟩ := h'.scenes m hm
    exact ⟨o, ho, hom.trans hmn⟩
  nodes e he hp hleads := by
    obtain ⟨he', hleads'⟩ := h.nodes e he hp hleads
    exact h'.nodes e he' hp hleads'

theorem write (hx : Indexed x) (hs : x.scene? a = some s)
    (hlist : x'.stList = (x.setScene a s').stList) (hqueue : x'.pstExecQueue = x.pstExecQueue)
    (htimers : x'.timers = x.timers)
    (hkeep : ∀ e ∈ x.pHashTable, e.2.acId.take indexMaxLen ≠ s.acSceneId.take indexMaxLen →
      e ∈ x'.pHashTable)
    (hown : ∀ e ∈ x.pHashTable, P e → e.2.pstScene = a → ∀ p, e.2.target = .cond p →
      s.Has p e.1 → e ∈ x'.pHashTable ∧ s'.Has p e.1) : x.Carries P x' := by
  have hmem := mem_of_scene? hs
  have hself : (⟨a, s'⟩ : SceneNode) ∈ x'.stList := by
    rw [hlist]
    exact mem_write_iff.mpr (.inl ⟨⟨a, s⟩, hmem, rfl, rfl⟩)
  have hothers : ∀ n ∈ x.stList, n.addr ≠ a → n ∈ x'.stList := by
    intro n hn hna
    rw [hlist]
    exact mem_write_iff.mpr (.inr ⟨hn, hna⟩)
  refine ⟨hqueue, htimers, fun n hn => ?_, ?_⟩
  · by_cases hna : n.addr = a
    · exact ⟨_, hself, hna.symm⟩
    · exact ⟨n, hothers n hn hna, rfl⟩
  · rintro e he hp ⟨n, hn, hne, p, htarget, hhas⟩
    by_cases hna : n.addr = a
    · obtain rfl := eq_of_key_eq hx.addrs hn hmem hna
      obtain ⟨he', hhas'⟩ := hown e he hp hne.symm p htarget hhas
      exact ⟨he', _, hself, hne, p, htarget, hhas'⟩
    · refine ⟨hkeep e he fun hid => hna ?_, n, hothers n hn hna, hne, p, htarget, hhas⟩
      rw [(hx.owner e he).2 n hn hne] at hid
      rw [eq_of_key_eq hx.ids hn hmem hid]

theorem setScene (hx : Indexed x) (hs : x.scene? a = some s)
    (h : ∀ q key, s.Has q key → s'.Has q key) : x.Carries P (x.setScene a s') :=
  write hx hs rfl rfl rfl (fun _ he _ => he) fun _ he _ _ p _ hp => ⟨he, h p _ hp⟩

theorem setFrames (hx : Indexed x) (hs : x.scene? a = some s) (h : s.Frames s') :
    x.Carries P (x.setScene a s') :=
  setScene hx hs (h.keeps (hx.placed _ (mem_of_scene? hs)))

end SceneList.Carries

theorem Deferred.carries (hx : Deferred x) (h : x.Carries P x')
    (hp : ∀ t ∈ x.timers, ∀ e ∈ x.pHashTable, e.2.addr = t.pstCondPtr → P e) : Deferred x' where
  queue q hq := by
    rw [h.queue] at hq
    obtain ⟨n, hn, hnq⟩ := hx.queue q hq
    obtain ⟨m, hm, hmn⟩ := h.scenes n hn
    exact ⟨m, hm, hmn.trans hnq⟩
  timers t ht := by
    rw [h.timers] at ht
    obtain ⟨e, he, het, hleads⟩ := hx.timers t ht
    obtain ⟨he', hleads'⟩ := h.nodes e he (hp t ht e he het) hleads
    exact ⟨e, he', het, hleads'⟩

theorem SceneList.condTrueInit_carries {b : Bool} (hx : Indexed x)
    (h : x.condTrueInit k e b = some x') : x.Carries P x' := by
  simp only [condTrueInit, bind_eq_bind, bind_eq_some_iff, Option.pure_def,
    some.injEq] at h
  obtain ⟨p, -, s, hs, s', hs', rfl⟩ := h
  exact .setFrames hx hs (.of_eraseTruth_eq (condTrueInit_eraseTruth hs'))

theorem fileCond_carries {iRet : ErrNo} (hx : Indexed x) (hs : x.scene? a = some s)
    (h : fileCond x a l c = some (x', iRet, e)) : x.Carries P x' := by
  have hplaced := hx.placed _ (mem_of_scene? hs)
  rcases fileCond_cases hs h with ⟨p, t, d, -, -, ht, -, -, rfl⟩ |
    ⟨y, p, hfind, hadd, -, rfl, rfl⟩ | ⟨hfind, -, -, rfl, rfl⟩
  · exact .setFrames hx ht (.modifyCond fun d _ => d.stCond.hashKey_set c)
  · refine .write hx hs rfl rfl rfl (fun f hf _ => mem_cons_of_mem _ hf) ?_
    exact fun f hf _ _ q _ hq => ⟨mem_cons_of_mem _ hf, hq.setList_condAdd hplaced hadd⟩
  · refine ⟨rfl, rfl, fun n hn => ⟨n, hn, rfl⟩, fun f hf _ hleads => ?_⟩
    exact ⟨mem_cons_of_mem _ hf, hleads⟩

theorem SceneList.Carries.setManual (hx : Indexed x) (hs : x.scene? a = some s) (b : Bool) :
    x.Carries P (x.setScene a { s with cManualTriggerFlag := b }) :=
  .setFrames hx hs (.of_list_eq rfl (fun l k => list_setManual s b l k) rfl)

theorem sceneCondAdd_carries (hx : Indexed x) (hs : x.scene? a = some s)
    (h : sceneCondAdd x a l c = some (x', r)) : x.Carries P x' := by
  rcases sceneCondAdd_cases h with ⟨-, s', hs', rfl⟩ | ⟨-, x₁, e, hfile, hrest⟩
  · exact .setManual hx hs' true
  · have hx₁ := fileCond_indexed hx hfile
    have hcarries : x.Carries P x₁ := fileCond_carries hx hs hfile
    rcases hrest with ⟨-, rfl⟩ | ⟨-, ⟨b, htrue⟩ | ⟨s₁, hs₁, rfl⟩⟩
    · exact hcarries
    · exact hcarries.trans (condTrueInit_carries hx₁ htrue)
    · exact hcarries.trans
        (.setFrames hx₁ hs₁ (.of_eraseTruth_eq (eraseTruth_setListTrue ..)))

theorem condDel_carries {bit : Kind} (hx : Indexed x) (hs : x.scene? a = some s)
    (h : condDel x a l k bit key = some (x', r)) :
    x.Carries (fun f => ∀ e ∈ ptrHashFind x.pHashTable key s.acSceneId, f.2 ≠ e) x' := by
  have hmem := mem_of_scene? hs
  have hplaced := hx.placed _ hmem
  obtain ⟨-, -, rfl⟩ | ⟨e, p, s₁, s', hfind, hp, hea, hdel, htrue, -, rfl⟩ := condDel_eq_some hs h
  · exact .refl x'
  · have hplaced₁ := (condDel_shrinks hplaced hdel).1.placed hplaced
    have hwords := SceneInfo.Frames.of_eraseTruth_eq (condDelTrue_eraseTruth htrue)
    obtain ⟨he, hid⟩ := mem_of_ptrHashFind hfind
    have htarget := e.target_of_condPtr? hp
    refine .write hx hs rfl rfl rfl
      (fun f hf hne => mem_ptrHashDel hf (filedAs_ne_of_id hne)) ?_
    intro f hf hne hfa q hfq hq
    have hfe : filedAs f ≠ (key, s.acSceneId.take indexMaxLen) := by
      intro hfor
      have hsame := eq_of_key_eq hx.unique hf he (by rw [hfor, filedAs, hid])
      exact hne e hfind (congrArg Prod.snd hsame)
    refine ⟨mem_ptrHashDel hf hfe, hwords.keeps hplaced₁ q f.1
      (condDel_others hplaced hdel ?_ hq)⟩
    rintro rfl
    -- the deleted condition is filed under one text
    have hkey : f.1 = key := (hx.sound _ he _ htarget).2 _ hmem hea.symm f.1 hq
    exact hfe (by rw [hx.filedAs_eq hs hf hfa, hkey])

theorem sceneCondDel_carries (hx : Indexed x) (hs : x.scene? a = some s)
    (h : sceneCondDel x a l c = some (x', r)) :
    x.Carries (fun f => c.isManual l = false →
      ∀ e ∈ ptrHashFind x.pHashTable c.hashKey s.acSceneId, f.2 ≠ e) x' := by
  rcases sceneCondDel_cases h with ⟨-, s', hs', rfl⟩ | ⟨hm, hdel⟩
  · exact .setManual hx hs' false
  · simp only [hm, true_implies]
    exact condDel_carries hx hs hdel

theorem PtrNode.condPtr?_of_target {p : CondPtr k} (h : e.target = .cond ⟨k, p⟩) :
    e.condPtr? k = some p := by
  rw [condPtr?, h]
  simp

/-- The node leads to a condition that a walk of the list meets. -/
def SceneInfo.Walked (s : SceneInfo) (l : Logic) (k : Kind) (e : PtrNode) : Prop :=
  ∃ p ∈ e.condPtr? k, p.acLogic = l ∧ ∃ n ∈ (s.list l k).walk, n.addr = p.pCondSetNode

instance (s : SceneInfo) (l : Logic) (k : Kind) (e : PtrNode) : Decidable (s.Walked l k e) :=
  inferInstanceAs (Decidable (∃ p ∈ e.condPtr? k, p.acLogic = l ∧
    ∃ n ∈ (s.list l k).walk, n.addr = p.pCondSetNode))

/-- A clearing takes the nodes of the conditions away that it walks. -/
theorem condClear_carries (hx : Indexed x) (hs : x.scene? a = some s)
    (h : condClear x a l k = some x') :
    x.Carries (fun f => f.2.pstScene = a → ¬ s.Walked l k f.2) x' := by
  have hmem := mem_of_scene? hs
  obtain ⟨t, ht, -, rfl⟩ := condClear_eq_some h
  obtain rfl : s = t := some.inj (hs.symm.trans ht)
  refine .write hx hs rfl rfl rfl
    (fun f hf hne => mem_foldl_ptrHashDel _ hf fun _ _ => filedAs_ne_of_id hne) ?_
  rintro f hf hne hfa ⟨k', l', b, d⟩ hfq hq
  have hnot : ¬ (l' = l ∧ k' = k ∧ (s.list l k).iNodeNum ≠ 0) := by
    rintro ⟨rfl, rfl, hnum⟩
    obtain ⟨n, hn, hna, -⟩ := hq
    refine hne hfa ⟨_, f.2.condPtr?_of_target hfq, rfl, n, ?_, hna⟩
    rw [walk, if_neg hnum]
    exact hn
  constructor
  · refine mem_foldl_ptrHashDel _ hf fun c hc hfor => hnot ?_
    obtain ⟨n, hn, m, hm, rfl⟩ := exists_of_mem_conds hc
    have hhas : s.Has ⟨k, l, n.addr, m.addr⟩ m.stCond.hashKey :=
      ⟨n, hn, rfl, m, hm, rfl, rfl⟩
    have htarget := hx.target_of_has hs hhas hf hfor
    rw [hfq, PtrTarget.cond.injEq] at htarget
    cases htarget
    refine ⟨rfl, rfl, fun hnum => ?_⟩
    rw [conds, walk, if_pos hnum] at hc
    cases hc
  · by_cases hl : l' = l ∧ k' = k
    · obtain ⟨rfl, rfl⟩ := hl
      rw [SceneInfo.Has, list_setList_self]
      -- a list that counts no set keeps its sets
      have hnum : (s.list l' k').iNodeNum = 0 := by
        by_contra hnum
        exact hnot ⟨rfl, rfl, hnum⟩
      have hsame : (s.list l' k').clear.stList = (s.list l' k').stList := by
        simp [clear, hnum]
      rw [CondList.Has]
      exact hsame.symm ▸ hq
    · rw [SceneInfo.Has, list_setList_of_ne _ _ hl]
      exact hq

theorem sceneCondClear_carries (hx : Indexed x) (hs : x.scene? a = some s)
    (h : sceneCondClear x a l k = some x') :
    x.Carries (fun f => f.2.pstScene = a → ¬ s.Walked l k f.2) x' := by
  cases l <;> cases k <;> exact condClear_carries hx hs h

theorem sceneBind_carries {i : ScenePanel} (hx : Indexed x) (h : sceneBind x a i = some x') :
    x.Carries P x' := by
  obtain ⟨s, hs, ⟨e, n, t, -, -, ht, rfl⟩ | ⟨-, rfl⟩⟩ := sceneBind_eq_some h
  · exact .setScene hx ht fun q key hq => has_setPanel.mpr hq
  · refine .write hx hs rfl rfl rfl (fun f hf _ => mem_cons_of_mem _ hf) ?_
    exact fun f hf _ _ q _ hq => ⟨mem_cons_of_mem _ hf, has_setPanel.mpr hq⟩

theorem sceneUnbind_carries {i : ScenePanel} (hx : Indexed x)
    (h : sceneUnbind x a i = some (x', r)) :
    x.Carries P x' := by
  obtain ⟨s, hs, ⟨e, b, hfind, hb, -, rfl⟩ | rfl⟩ := sceneUnbind_eq_some h
  · obtain ⟨he, hid⟩ := mem_of_ptrHashFind hfind
    have htarget := e.target_of_panelPtr? hb
    refine .write hx hs rfl rfl rfl
      (fun f hf hne => mem_ptrHashDel hf (filedAs_ne_of_id hne)) ?_
    intro f hf _ _ q hfq hq
    refine ⟨mem_ptrHashDel hf fun hfor => ?_, has_setPanel.mpr hq⟩
    have hsame := eq_of_key_eq hx.unique hf he (by rw [hfor, filedAs, hid])
    rw [congrArg (fun g => g.2.target) hsame, htarget] at hfq
    cases hfq
  · exact .refl x'

theorem SceneList.Touches.carries (hx : Indexed x) (h : x.Touches x')
    (hqueue : x'.pstExecQueue = x.pstExecQueue) (htimers : x'.timers = x.timers) :
    x.Carries P x' where
  queue := hqueue
  timers := htimers
  scenes n hn := by
    obtain ⟨m, hm, hmn, -⟩ := h.exists_after hn
    exact ⟨m, hm, hmn⟩
  nodes e he _ hleads := by
    obtain ⟨n, hn, hne, p, htarget, hhas⟩ := hleads
    obtain ⟨m, hm, hmn, hframes⟩ := h.exists_after hn
    exact ⟨h.pHashTable ▸ he, m, hm, hmn.trans hne, p, htarget,
      hframes.keeps (hx.placed n hn) p e.1 hhas⟩

theorem hySceneAdd_carries {i : SceneText} (hx : Indexed x) : x.Carries P (hySceneAdd x i) := by
  cases hget : sceneListGet x i.acSceneId with
  | some b =>
    refine (hySceneAdd_touches hget).carries hx ?_ ?_ <;>
      simp only [hySceneAdd, sceneListSet, hget]
  | none =>
    simp only [hySceneAdd, hget]
    refine ⟨rfl, rfl, fun n hn => ⟨n, mem_cons_of_mem _ hn, rfl⟩, ?_⟩
    rintro e he - ⟨n, hn, hleads⟩
    exact ⟨he, n, mem_cons_of_mem _ hn, hleads⟩

theorem sceneListDel_deferred {i : CText} (hx : Indexed x) (hd : Deferred x)
    (hsafe : ∀ a ∈ sceneListGet x i, (∀ q ∈ x.pstExecQueue, q.pstScene ≠ a) ∧
      ∀ t ∈ x.timers, ∀ e ∈ x.pHashTable, e.2.addr = t.pstCondPtr → e.2.pstScene ≠ a)
    (h : sceneListDel x i = some (x', r)) : Deferred x' := by
  obtain rfl | ⟨a, x₁, x₂, x₃, x₄, s, hget, h₁, h₂, h₃, h₄, hs, rfl⟩ := sceneListDel_eq_some h
  · exact hd
  · obtain ⟨hqueue, htimers⟩ := hsafe a hget
    have hclear : ∀ {z z' : SceneList} {l : Logic} {k : Kind}, Indexed z →
        condClear z a l k = some z' → z.Carries (fun f => f.2.pstScene ≠ a) z' := by
      intro z z' l k hz hclear
      obtain ⟨t, ht, -⟩ := condClear_eq_some hclear
      have hcarries := condClear_carries hz ht hclear
      exact ⟨hcarries.queue, hcarries.timers, hcarries.scenes, fun e he hne hleads =>
        hcarries.nodes e he (fun ha => absurd ha hne) hleads⟩
    have hx₁ := condClear_indexed hx h₁
    have hx₂ := condClear_indexed hx₁ h₂
    have hx₃ := condClear_indexed hx₂ h₃
    have hx₄ := condClear_indexed hx₃ h₄
    have hcarries : x.Carries (fun f => f.2.pstScene ≠ a) x₄ :=
      (((hclear hx h₁).trans (hclear hx₁ h₂)).trans (hclear hx₂ h₃)).trans (hclear hx₃ h₄)
    have hd₄ := hd.carries hcarries htimers
    have hstays : ∀ n ∈ x₄.stList, n.addr ≠ a → n ∈ x₄.stList.filter (·.addr != a) :=
      fun n hn hna => mem_filter.mpr ⟨hn, by simpa using hna⟩
    refine ⟨fun q hq => ?_, fun t ht => ?_⟩
    · obtain ⟨n, hn, hnq⟩ := hd₄.queue q hq
      have hqa : q.pstScene ≠ a := hqueue q (hcarries.queue ▸ hq)
      exact ⟨n, hstays n hn (hnq ▸ hqa), hnq⟩
    · -- the node of the timer is one of another scene, and so are what it leads to and its id
      obtain ⟨e, he, het, hleads⟩ := hd.timers t (hcarries.timers ▸ ht)
      have hne := htimers t (hcarries.timers ▸ ht) e he het
      obtain ⟨he₄, n, hn, hna, p, htarget, hhas⟩ := hcarries.nodes e he hne hleads
      have hna' : n.addr ≠ a := hna ▸ hne
      refine ⟨e, mem_foldl_ptrHashDel _ he₄ fun _ _ => filedAs_ne_of_id fun hid => hna' ?_, het, n,
        hstays n hn hna', hna, p, htarget, hhas⟩
      rw [(hx₄.owner e he₄).2 n hn hna] at hid
      rw [eq_of_key_eq hx₄.ids hn (mem_of_scene? hs) hid]

/-! ## Events, checks and timers -/

/-- A scene that exists is queued, or a timer is started with a node that leads
to a condition. -/
theorem Deferred.fire (hx : Deferred x) (iTime : Int) {n : SceneNode} (hn : n ∈ x.stList)
    (s : SceneInfo) (pstCondPtr : Nat) (ts : List Trigger)
    (hts : (∀ t ∈ ts, t = .exec) ∨ ∃ e ∈ x.pHashTable, e.2.addr = pstCondPtr ∧ x.LeadsToCond e) :
    Deferred (x.fire iTime n.addr s pstCondPtr ts).1 := by
  induction ts generalizing x with
  | nil => exact hx
  | cons t ts ih =>
    cases t with
    | exec =>
      have hexec : Deferred (x.exec iTime n.addr s).1 := by
        refine ⟨fun q hq => ?_, hx.timers⟩
        rcases mem_append.mp hq with hq | hq
        · exact hx.queue q hq
        · rw [mem_singleton] at hq
          exact ⟨n, hn, by rw [hq]; rfl⟩
      refine ih hexec hn ?_
      exact hts.imp (fun hall t ht => hall t (mem_cons_of_mem _ ht)) fun hnode => hnode
    | timer ulTime =>
      obtain hall | hnode := hts
      · cases hall _ mem_cons_self
      · have htimer : Deferred { x with timers := x.timers ++ [⟨pstCondPtr, ulTime⟩] } := by
          refine ⟨hx.queue, fun t ht => ?_⟩
          rcases mem_append.mp ht with ht | ht
          · exact hx.timers t ht
          · rw [mem_singleton] at ht
            subst ht
            exact hnode
        exact ih htimer hn (.inr hnode)

theorem eventCondNode_deferred {y y' : Engine} {e : Event} {p : PtrNode} {os : List Effect}
    (hy : Indexed y.list) (hd : Deferred y.list) (hp : (key, p) ∈ y.list.pHashTable)
    (h : eventCondNode iTime e y p = some (y', os)) : Deferred y'.list := by
  have hseen : ∀ (s : SceneInfo) (q : CondPtr .event),
      s.Frames (s.modifyCond q (EventCond.seen e)) :=
    fun s q => .modifyCond fun c _ => EventCond.hashKey_seen e c.stCond
  obtain ⟨s, hs, ⟨-, rfl, -⟩ | ⟨-, q, c, hq, hc, ⟨-, z, -, rfl, -⟩ | ⟨-, s', ts, hu, rfl, -⟩⟩⟩ :=
    eventCondNode_cases h
  · exact hd
  · exact hd.carries (P := fun _ => True) (.setFrames hy hs (hseen s q)) fun _ _ _ _ _ => trivial
  · have hframes : s.Frames s' :=
      (hseen s q).trans (.of_eraseTruth_eq (sceneEventCondTrueUpdate_eraseTruth hu))
    have hcarries : y.list.Carries (fun _ => True) (y.list.setScene p.pstScene s') :=
      .setFrames hy hs hframes
    have hmem := mem_of_scene? hs
    -- the node the event came through leads to the condition it was compared with
    have hhas : s.Has ⟨.event, q⟩ c.stCond.hashKey := has_of_node? hc
    have htarget := p.target_of_condPtr? hq
    have hkey := (hy.sound _ hp _ htarget).2 _ hmem rfl _ hhas
    have hleads : y.list.LeadsToCond (key, p) := ⟨_, hmem, rfl, _, htarget, hkey ▸ hhas⟩
    have hself : (⟨p.pstScene, s'⟩ : SceneNode) ∈ (y.list.setScene p.pstScene s').stList :=
      mem_write_iff.mpr (.inl ⟨_, hmem, rfl, rfl⟩)
    refine (hd.carries hcarries fun _ _ _ _ _ => trivial).fire iTime hself s' p.addr ts
      (.inr ⟨(key, p), hp, rfl, ?_⟩)
    exact (hcarries.nodes _ hp trivial hleads).2

theorem run_eventCondNode_deferred {y y' : Engine} {e : Event} {ps : List PtrNode}
    {os : List Effect} (hy : Indexed y.list) (hd : Deferred y.list)
    (hps : ∀ p ∈ ps, (key, p) ∈ y.list.pHashTable)
    (h : Run.run (eventCondNode iTime e) y ps = some (y', os)) : Deferred y'.list := by
  induction ps generalizing y os with
  | nil =>
    simp only [Run.run, some.injEq, Prod.mk.injEq] at h
    exact h.1 ▸ hd
  | cons p ps ih =>
    obtain ⟨z, o, os', hstep, hrest, -⟩ := Run.run_cons.mp h
    have hp := hps p mem_cons_self
    refine ih (eventCondNode_indexed hy hstep) (eventCondNode_deferred hy hd hp hstep) ?_ hrest
    intro p' hp'
    rw [((eventCondNode_marked hstep).touches hy).pHashTable]
    exact hps p' (mem_cons_of_mem _ hp')

theorem eventPanelNode_deferred {y y' : Engine} {p : PtrNode} {os : List Effect}
    (hd : Deferred y.list) (h : eventPanelNode iTime y p = some (y', os)) : Deferred y'.list := by
  obtain ⟨s, hs, ⟨rfl, -⟩ | ⟨-, -, hexec⟩⟩ := eventPanelNode_cases h
  · exact hd
  · have hfire := hd.fire iTime (mem_of_scene? hs) s 0 [.exec]
      (.inl fun t ht => mem_singleton.mp ht)
    have hlist : y'.list = (y.list.exec iTime p.pstScene s).1 := congrArg Prod.fst hexec
    rw [hlist]
    exact hfire

theorem sceneListEvent_deferred {y y' : Engine} {e : Event} {os : List Effect} (hy : Indexed y.list)
    (hd : Deferred y.list) (h : sceneListEvent y iTime e = some (y', os)) : Deferred y'.list := by
  simp only [sceneListEvent] at h
  split at h
  · have hps : ∀ p ∈ ptrHashFindAll y.list.pHashTable (eventHashKey e.acDevId e.acKey),
        (eventHashKey e.acDevId e.acKey, p) ∈ y.list.pHashTable := by
      intro p hp
      obtain ⟨⟨key, p'⟩, hmem, rfl⟩ := List.mem_map.mp hp
      obtain ⟨hmem, hkey⟩ := mem_filter.mp hmem
      exact (beq_iff_eq.mp hkey) ▸ hmem
    exact run_eventCondNode_deferred hy hd hps h
  · exact Run.run_preserves (I := fun y => Deferred y.list)
      (fun _ _ _ _ => eventPanelNode_deferred) hd h

theorem timeTrueLoop_deferred {now : Tm} {ns : List SceneNode} {os : List Effect} (hx : Indexed x)
    (hd : Deferred x) (hns : (ns.map SceneNode.addr).Nodup) (hmem : ∀ n ∈ ns, n ∈ x.stList)
    (h : timeTrueLoop iTime now x ns = some (x', os)) : Deferred x' := by
  induction ns generalizing x os with
  | nil =>
    simp only [timeTrueLoop, some.injEq, Prod.mk.injEq] at h
    exact h.1 ▸ hd
  | cons n ns ih =>
    obtain ⟨s', ts, os₂, hcheck, hloop, -⟩ := timeTrueLoop_cons h
    have hs := hx.scene?_eq_some (hmem n mem_cons_self)
    have hmarked := sceneTimeCheck_marked hcheck
    have hx₁ : x.Marked ((x.setScene n.addr s').fire iTime n.addr s' 0 ts).1 :=
      .fire (.scene .refl hs hmarked) ..
    have hd₁ : Deferred (x.setScene n.addr s') :=
      hd.carries (P := fun _ => True) (.setFrames hx hs hmarked.frames) fun _ _ _ _ _ => trivial
    have hself : (⟨n.addr, s'⟩ : SceneNode) ∈ (x.setScene n.addr s').stList :=
      mem_write_iff.mpr (.inl ⟨n, hmem n mem_cons_self, rfl, rfl⟩)
    have hexec : ∀ t ∈ ts, t = Trigger.exec := by
      intro t ht
      obtain ⟨bs, p, cs, u, ou, u', o, -, -, hstep, hto⟩ := (Run.mem_run_iff hcheck).mp ht
      rw [timeCondCheck_triggers hstep] at hto
      split at hto
      · exact mem_singleton.mp hto
      · cases hto
    exact ih (hx₁.indexed hx) (hd₁.fire iTime hself s' 0 ts (.inl hexec))
      (nodup_cons.mp hns).2 (mem_stList_fire_setScene s' iTime ts hns hmem) hloop

theorem sceneContinueTriggerTimerFun_deferred {i : Nat} {os : List Effect} (hd : Deferred x)
    (h : sceneContinueTriggerTimerFun x iTime i = some (x', os)) : Deferred x' := by
  have hd₁ : Deferred { x with timers := x.timers.eraseIdx i } :=
    ⟨hd.queue, fun t ht => hd.timers t (mem_of_mem_eraseIdx ht)⟩
  obtain ⟨t, e, s, -, -, hs, ⟨-, hexec⟩ | ⟨-, rfl, -⟩⟩ := sceneContinueTriggerTimerFun_cases h
  · rw [show x' = _ from congrArg Prod.fst hexec]
    exact hd₁.fire iTime (mem_of_scene? hs) s 0 [.exec]
      (.inl fun t ht => mem_singleton.mp ht)
  · exact hd₁

/-! ## Runs -/

/-- Nothing is deleted that waits: a scene that is deleted is not queued and has
no timer, a condition that is deleted or cleared has no timer. -/
def Act.Leaves (y : Engine) : Act → Prop
  | .sceneDel i => ∀ a ∈ sceneListGet y.list i,
      (∀ q ∈ y.list.pstExecQueue, q.pstScene ≠ a) ∧
        ∀ t ∈ y.list.timers, ∀ e ∈ y.list.pHashTable, e.2.addr = t.pstCondPtr → e.2.pstScene ≠ a
  | .condDel i l _ c => ∀ a ∈ sceneListGet y.list i, ∀ s ∈ y.list.scene? a,
      c.isManual l = false → ∀ e ∈ ptrHashFind y.list.pHashTable c.hashKey s.acSceneId,
        ∀ t ∈ y.list.timers, e.addr ≠ t.pstCondPtr
  | .condClear i l k => ∀ a ∈ sceneListGet y.list i, ∀ s ∈ y.list.scene? a,
      ∀ t ∈ y.list.timers, ∀ e ∈ y.list.pHashTable, e.2.addr = t.pstCondPtr →
        e.2.pstScene = a → ¬ s.Walked l k e.2
  | _ => True

instance Act.decidableLeaves (y : Engine) : (act : Act) → Decidable (act.Leaves y)
  | .sceneDel i => inferInstanceAs (Decidable (∀ a ∈ sceneListGet y.list i,
      (∀ q ∈ y.list.pstExecQueue, q.pstScene ≠ a) ∧ ∀ t ∈ y.list.timers,
        ∀ e ∈ y.list.pHashTable, e.2.addr = t.pstCondPtr → e.2.pstScene ≠ a))
  | .condDel i l _ c => inferInstanceAs (Decidable (∀ a ∈ sceneListGet y.list i,
      ∀ s ∈ y.list.scene? a, c.isManual l = false →
        ∀ e ∈ ptrHashFind y.list.pHashTable c.hashKey s.acSceneId,
          ∀ t ∈ y.list.timers, e.addr ≠ t.pstCondPtr))
  | .condClear i l k => inferInstanceAs (Decidable (∀ a ∈ sceneListGet y.list i,
      ∀ s ∈ y.list.scene? a, ∀ t ∈ y.list.timers, ∀ e ∈ y.list.pHashTable,
        e.2.addr = t.pstCondPtr → e.2.pstScene = a → ¬ s.Walked l k e.2))
  | .sceneAdd _ | .condAdd _ _ _ _ | .bind _ _ | .unbind _ _ | .event _ _ | .timeTrueAll _ _
  | .timeout _ _ | .execQueue _ => inferInstanceAs (Decidable True)

section

variable {y y' : Engine} {os : List Effect}

theorem Requested.deferred {act : Act} (hy : Indexed y.list) (hd : Deferred y.list)
    (hleaves : act.Leaves y) {x' : SceneList} (h : Requested y.list act x') : Deferred x' := by
  have hall : ∀ {z : SceneList}, y.list.Carries (fun _ => True) z → Deferred z :=
    fun hcarries => hd.carries hcarries fun _ _ _ _ _ => trivial
  cases h with
  | absent => exact hd
  | sceneAdd i => exact hall (hySceneAdd_carries hy)
  | sceneDel h => exact sceneListDel_deferred hy hd hleaves h
  | condAdd _ hs h => exact hall (sceneCondAdd_carries hy hs h)
  | condDel hget hs h =>
    refine hd.carries (sceneCondDel_carries hy hs h) ?_
    rintro t ht f - hft hm e he rfl
    exact hleaves _ hget _ hs hm _ he t ht hft
  | condClear hget hs h =>
    exact hd.carries (sceneCondClear_carries hy hs h) (hleaves _ hget _ hs)
  | bind h => exact hall (sceneBind_carries hy h)
  | unbind h => exact hall (sceneUnbind_carries hy h)

theorem step_deferred {act : Act} (hy : Indexed y.list) (hd : Deferred y.list)
    (hleaves : act.Leaves y) (h : y.step act = some (y', os)) : Deferred y'.list := by
  cases act with
  | event t e => exact sceneListEvent_deferred hy hd h
  | timeTrueAll t now =>
    obtain ⟨⟨z, os'⟩, hz, heq⟩ := map_eq_some_iff.mp h
    cases heq
    exact timeTrueLoop_deferred hy hd hy.addrs (fun _ hn => hn) hz
  | timeout t i =>
    obtain ⟨⟨z, os'⟩, hz, heq⟩ := map_eq_some_iff.mp h
    cases heq
    exact sceneContinueTriggerTimerFun_deferred hd hz
  | execQueue t =>
    simp only [Engine.step, some.injEq, Prod.mk.injEq] at h
    rw [← h.1]
    exact ⟨fun q hq => hd.queue q (mem_filter.mp hq).1, hd.timers⟩
  | _ => exact (step_requested hy rfl h).deferred hy hd hleaves

/-- In every run in which no scene is deleted that is queued or has a timer, and
no condition is deleted or cleared that has a timer, everything that waits refers
to something that exists. -/
theorem run_deferred {as : List Act}
    (hleaves : Run.Along Engine.step (fun y a => a.Leaves y) .init as)
    (h : Run.run Engine.step .init as = some (y, os)) : Deferred y.list := by
  have hboth : Indexed y.list ∧ Deferred y.list := by
    refine Run.run_preserves_along (I := fun y => Indexed y.list ∧ Deferred y.list) ?_
      ⟨indexed_init, ?_⟩ hleaves h
    · rintro z a z' o ⟨hz, hd⟩ hza hstep
      exact ⟨step_indexed hz hstep, step_deferred hz hd hza hstep⟩
    · exact ⟨by simp [Engine.init, SceneList.init], by simp [Engine.init, SceneList.init]⟩
  exact hboth.2

end

namespace Sample

/-- "The attribute `k` of the device `d` equals `1` for 5 seconds". -/
def lasting : EventCond :=
  { lamp with acTriggerType := triggerContinue, acContinueTime := ['5'] }

/-- The condition comes true, so that a timer runs, and is executed. -/
def armedRun : List Act :=
  [.sceneAdd text, .condAdd ['1'] .or .event lasting, .event 0 ⟨['d'], ['k'], ['1']⟩]

/-- The timer runs out, the scene is executed, and deleted. -/
def drainedRun : List Act := armedRun ++ [.timeout 5 0, .execQueue 6, .sceneDel ['1']]

/-- The scene is deleted while the timer runs. -/
def danglingRun : List Act := armedRun ++ [.sceneDel ['1']]

end Sample

open Sample in
theorem run_deferred_drained : Deferred (engineAfter drainedRun).list := by
  have hleaves : Run.Along Engine.step (fun y a => a.Leaves y) .init drainedRun := by decide
  have hrun : Run.run Engine.step .init drainedRun =
      some (engineAfter drainedRun, effectsOf drainedRun) := by decide
  exact run_deferred hleaves hrun

open Sample in
/-- A scene is deleted while a timer of its condition runs: the timer is left with
a pointer to nothing. -/
theorem run_deferred_dangling :
    ¬ ∀ (as : List Act) (y : Engine) (os : List Effect),
      Run.run Engine.step .init as = some (y, os) → Deferred y.list := by
  intro h
  have hd := h danglingRun (engineAfter danglingRun) (effectsOf danglingRun) (by decide)
  obtain ⟨e, he, -⟩ := hd.timers ⟨3, 5⟩ (by decide)
  have hnil : (engineAfter danglingRun).list.pHashTable = [] := by decide
  rw [hnil] at he
  cases he

end Honyar.LocalScene
