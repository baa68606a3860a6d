import Honyar.LocalScene.Index

/-!
# Every state reached is indexed

No step of the engine makes the scenes and the hash table disagree, so they
agree in every state a run from the start leads to.
-/

namespace Honyar.LocalScene

open CText Option List SceneList SceneInfo

variable {l : Logic} {k : Kind} {x x' : SceneList} {a : Nat}
variable {e : Event} {c : Cond k} {s s' : SceneInfo} {r : ErrNo} {y y' : Engine} {iTime : Int}
  {p : PtrNode} {os : List Effect} {now : Tm} {act : Act}

/-! ## Adding conditions -/

theorem Cond.hashKey_set (c d : Cond k) : (c.set d).hashKey = c.hashKey := by
  cases k <;> rfl

theorem SceneList.condTrueInit_indexed {e : PtrNode} {b : Bool} (hx : Indexed x)
    (h : x.condTrueInit k e b = some x') : Indexed x' := by
  simp only [condTrueInit, bind_eq_bind, bind_eq_some_iff, Option.pure_def,
    some.injEq] at h
  obtain ⟨p, -, s, hs, s', hs', rfl⟩ := h
  exact hx.setScene hs (.of_eraseTruth_eq (condTrueInit_eraseTruth hs'))

theorem fileCond_indexed {iRet : ErrNo} {e : PtrNode} (hx : Indexed x)
    (h : fileCond x a l c = some (x', iRet, e)) : Indexed x' := by
  have hscene : ∃ s, x.scene? a = some s := by
    rw [← isSome_iff_exists]
    by_contra hnone
    simp [fileCond, not_isSome_iff_eq_none.mp hnone] at h
  obtain ⟨s, hs⟩ := hscene
  have hplaced := hx.placed _ (mem_of_scene? hs)
  rcases fileCond_cases hs h with ⟨p, t, d, -, -, ht, -, -, rfl⟩ |
    ⟨y, p, hfind, hadd, -, rfl, rfl⟩ | ⟨hfind, -, -, rfl, rfl⟩
  · exact hx.setScene ht (.modifyCond fun d _ => d.stCond.hashKey_set c)
  · obtain ⟨hy, hhas⟩ := condAdd_placed hplaced hadd
    refine hx.inst hs hfind (show _ = (x.setScene a (s.setList l k y)).stList from rfl) rfl
      (Nat.le_add_right _ 3) (acSceneId_setList ..) (hy.mono (by simp)) rfl rfl ?_
      fun q key hq => ?_
    · rintro q hq
      cases hq
      rw [CondList.condAdd_pCondNode hadd]
      constructor <;> simp
    rcases hhas q key hq with hq | ⟨rfl, hkey⟩
    · exact .inl hq
    · exact .inr ⟨rfl, hkey⟩
  · -- the scene is not written: as if it were written with what it is
    have hsame : (x.setScene a s).stList = x.stList := by
      refine Keyed.map_write_eq_self fun n hn hna => ?_
      rw [Keyed.eq_of_key_eq hx.addrs hn (mem_of_scene? hs) hna]
    exact hx.inst hs hfind hsame.symm rfl (Nat.le_add_right _ 3) rfl
      (hplaced.mono (Nat.le_add_right _ 3)) rfl rfl (fun q hq => by cases hq)
      fun q key hq => .inl hq

theorem setManual_indexed (hx : Indexed x) (hs : x.scene? a = some s) (b : Bool) :
    Indexed (x.setScene a { s with cManualTriggerFlag := b }) :=
  hx.setScene hs (.of_list_eq rfl fun l k => list_setManual s b l k)

theorem sceneCondAdd_indexed (hx : Indexed x) (h : sceneCondAdd x a l c = some (x', r)) :
    Indexed x' := by
  rcases sceneCondAdd_cases h with ⟨-, s, hs, rfl⟩ |
    ⟨-, x₁, e, hfile, ⟨-, rfl⟩ | ⟨-, ⟨b, htrue⟩ | ⟨s₁, hs₁, rfl⟩⟩⟩
  · exact setManual_indexed hx hs true
  · exact fileCond_indexed hx hfile
  · exact condTrueInit_indexed (fileCond_indexed hx hfile) htrue
  · exact (fileCond_indexed hx hfile).setScene hs₁
      (.of_eraseTruth_eq (eraseTruth_setListTrue ..))

/-! ## Deleting and clearing conditions -/

theorem filedAs_ne_of_id {e : CText × PtrNode} {key paId : CText}
    (h : e.2.acId.take indexMaxLen ≠ paId.take indexMaxLen) :
    filedAs e ≠ (key, paId.take indexMaxLen) :=
  fun hfor => h (congrArg Prod.snd hfor)

theorem condDel_indexed {bit : Kind} {key : CText} (hx : Indexed x)
    (h : condDel x a l k bit key = some (x', r)) : Indexed x' := by
  obtain ⟨s, hs, -⟩ := bind_eq_some_iff.mp h
  have hplaced := hx.placed _ (mem_of_scene? hs)
  obtain ⟨-, -, rfl⟩ | ⟨e, p, s₁, s', hfind, hp, -, hdel, htrue, -, rfl⟩ := condDel_eq_some hs h
  · exact hx
  · obtain ⟨hshrinks, hgone⟩ := condDel_shrinks hplaced hdel
    have hwords := SceneInfo.Shrinks.of_eraseTruth_eq (condDelTrue_eraseTruth htrue)
    refine hx.del hs rfl rfl (hshrinks.trans hwords) (ptrHashDel_sublist ..)
      (fun e he hid => mem_ptrHashDel he (filedAs_ne_of_id hid)) fun q key' hq f hf _ hfq => ?_
    refine mem_ptrHashDel hf fun hfor => ?_
    -- only the node of the deleted condition is filed there
    obtain ⟨he, hid⟩ := mem_of_ptrHashFind hfind
    have hsame := Keyed.eq_of_key_eq hx.unique hf he (by rw [hfor, filedAs, hid])
    have htarget := e.target_of_condPtr? hp
    rw [← congrArg (fun g => g.2.target) hsame, hfq] at htarget
    cases htarget
    exact hgone key' (hwords.has (hshrinks.placed hplaced) hq)

theorem sceneCondDel_indexed (hx : Indexed x) (h : sceneCondDel x a l c = some (x', r)) :
    Indexed x' := by
  rcases sceneCondDel_cases h with ⟨-, s, hs, rfl⟩ | ⟨-, hdel⟩
  · exact setManual_indexed hx hs false
  · exact condDel_indexed hx hdel

theorem condClear_indexed (hx : Indexed x) (h : condClear x a l k = some x') : Indexed x' := by
  obtain ⟨s, hs, hclear, rfl⟩ := condClear_eq_some h
  have hmem := mem_of_scene? hs
  have hshrinks : (s.list l k).Shrinks
      { (s.list l k).clear with iCount := 0, uiCondSetTrue := 0 } :=
    .trans (.clear _) (.of_stList_eq rfl)
  refine hx.del hs rfl rfl (.setList hshrinks) (foldl_ptrHashDel_sublist _ _ _)
    (fun e he hid => mem_foldl_ptrHashDel _ he fun c _ => filedAs_ne_of_id hid)
    fun q key hq e he hea hep => mem_foldl_ptrHashDel _ he fun c hc hfor => ?_
  rw [CondList.conds, CondList.walk] at hc
  split at hc
  · -- a list that counts no set clears nothing
    cases hc
  · rename_i hnum
    have hnil : (s.list l k).clear.stList = [] := by
      by_contra hne
      exact hclear ⟨hnum, hne⟩
    obtain ⟨-, hother⟩ := has_setList_nil (by exact hnil) hq
    obtain ⟨n, hn, d, hd, rfl⟩ : ∃ n ∈ (s.list l k).stList, ∃ d ∈ n.pstCond, d.stCond = c := by
      simpa using hc
    obtain ⟨f, hf, hfa, hfp⟩ := hx.filed _ hmem ⟨k, l, n.addr, d.addr⟩ d.stCond.hashKey
      ⟨n, hn, rfl, d, hd, rfl, rfl⟩
    have hsame := Keyed.eq_of_key_eq hx.unique he hf (by
      rw [hfor, filedAs, (hx.owner _ hf).2 _ hmem hfa.symm])
    rw [← congrArg (fun g => g.2.target) hsame, hep] at hfp
    cases hfp
    exact hother ⟨rfl, rfl⟩

theorem sceneCondClear_indexed (hx : Indexed x) (h : sceneCondClear x a l k = some x') :
    Indexed x' := by
  cases l <;> cases k <;> exact condClear_indexed hx h

/-! ## Panels -/

theorem sceneBind_indexed {i : ScenePanel} (hx : Indexed x) (h : sceneBind x a i = some x') :
    Indexed x' := by
  have hpanel : ∀ (s : SceneInfo) ns, s.Shrinks { s with pstPanel := ns } := fun s ns =>
    .of_list_eq rfl fun l k => by cases l <;> cases k <;> rfl
  obtain ⟨s, hs, ⟨e, n, t, -, -, ht, rfl⟩ | ⟨hfind, rfl⟩⟩ := sceneBind_eq_some h
  · exact hx.setScene ht (hpanel _ _)
  · have hplaced := hx.placed _ (mem_of_scene? hs)
    refine hx.inst hs hfind rfl rfl (Nat.le_add_right _ 2) rfl
      (((hpanel s _).placed hplaced).mono (Nat.le_add_right _ 2)) rfl rfl
      (fun q hq => by cases hq) fun q key hq => .inl ((hpanel s _).has hplaced hq)

theorem sceneUnbind_indexed {i : ScenePanel} (hx : Indexed x)
    (h : sceneUnbind x a i = some (x', r)) :
    Indexed x' := by
  obtain ⟨s, hs, ⟨e, n, hfind, hn, -, rfl⟩ | rfl⟩ := sceneUnbind_eq_some h
  · refine hx.del hs rfl rfl (.of_list_eq rfl fun l k => by cases l <;> cases k <;> rfl)
      (ptrHashDel_sublist ..) (fun e he hid => mem_ptrHashDel he (filedAs_ne_of_id hid))
      fun q key _ f hf _ hfq => mem_ptrHashDel hf fun hfor => ?_
    -- the node that goes leads to a panel
    obtain ⟨he, hid⟩ := mem_of_ptrHashFind hfind
    have hsame := Keyed.eq_of_key_eq hx.unique hf he (by rw [hfor, filedAs, hid])
    rw [PtrNode.panelPtr?, ← congrArg (fun g => g.2.target) hsame, hfq] at hn
    cases hn
  · exact hx

/-! ## Scenes -/

theorem Indexed.filter (hx : Indexed x) (hs : x.scene? a = some s)
    (hlist : x'.stList = x.stList.filter (·.addr != a)) (hheap : x'.heap = x.heap)
    (hsub : x'.pHashTable.Sublist x.pHashTable) (hkeep : ∀ e ∈ x.pHashTable,
      e.2.acId.take indexMaxLen ≠ s.acSceneId.take indexMaxLen → e ∈ x'.pHashTable) :
    Indexed x' := by
  have hsubList : x'.stList.Sublist x.stList := hlist ▸ filter_sublist
  have hmem : ∀ n ∈ x'.stList, n ∈ x.stList := fun n hn => hsubList.subset hn
  refine ⟨(hsubList.map _).nodup hx.addrs, (hsubList.map _).nodup hx.ids, ?_, ?_,
    (hsub.map _).nodup hx.unique, ?_, ?_, ?_⟩
  · exact fun n hn => hheap ▸ hx.below n (hmem n hn)
  · exact fun n hn => hheap ▸ hx.placed n (hmem n hn)
  · intro e he
    obtain ⟨hlt, hid⟩ := hx.owner e (hsub.subset he)
    exact ⟨hheap ▸ hlt, fun n hn => hid n (hmem n hn)⟩
  · intro n hn p key hp
    obtain ⟨e, he, hen, hep⟩ := hx.filed n (hmem n hn) p key hp
    refine ⟨e, hkeep _ he ?_, hen, hep⟩
    rw [(hx.owner _ he).2 n (hmem n hn) hen.symm]
    intro hsame
    have heq := Keyed.eq_of_key_eq hx.ids (hmem n hn) (mem_of_scene? hs) hsame
    rw [hlist, heq] at hn
    simp at hn
  · intro e he p hp
    obtain ⟨hlt, hkey⟩ := hx.sound e (hsub.subset he) p hp
    exact ⟨hheap.symm ▸ hlt, fun n hn => hkey n (hmem n hn)⟩

theorem sceneListDel_indexed {i : CText} (hx : Indexed x) (h : sceneListDel x i = some (x', r)) :
    Indexed x' := by
  obtain rfl | ⟨a, x₁, x₂, x₃, x₄, s, -, h₁, h₂, h₃, h₄, hs, rfl⟩ := sceneListDel_eq_some h
  · exact hx
  · have hx₄ := condClear_indexed (condClear_indexed (condClear_indexed
      (condClear_indexed hx h₁) h₂) h₃) h₄
    exact hx₄.filter hs rfl rfl (foldl_ptrHashDel_sublist _ _ _) fun e he hid =>
      mem_foldl_ptrHashDel _ he fun n _ => filedAs_ne_of_id hid

/-- A new scene has no conditions, an address that no node leads to and an id
that no scene has. -/
theorem sceneListAdd_indexed {i : SceneText} (hx : Indexed x)
    (hget : sceneListGet x i.acSceneId = none) : Indexed (sceneListAdd x i) := by
  have hnew : ∀ l k, (new i).list l k = .new l k := by
    intro l k
    cases l <;> cases k <;> rfl
  have hle : x.heap ≤ (sceneListAdd x i).heap := Nat.le_succ _
  refine ⟨?_, ?_, ?_, ?_, hx.unique, ?_, ?_, ?_⟩
  · refine nodup_cons.mpr ⟨fun hmem => ?_, hx.addrs⟩
    obtain ⟨n, hn, hna⟩ := List.mem_map.mp hmem
    exact absurd hna (ne_of_lt (hx.below n hn))
  · refine nodup_cons.mpr ⟨fun hmem => ?_, hx.ids⟩
    obtain ⟨n, hn, hid⟩ := List.mem_map.mp hmem
    rw [sceneListGet, map_eq_none_iff, find?_eq_none] at hget
    exact hget n hn (strncmpEq_iff.mpr hid)
  · intro n hn
    rcases mem_cons.mp hn with rfl | hn
    · exact Nat.lt_succ_self _
    · exact lt_of_lt_of_le (hx.below n hn) hle
  · intro n hn
    rcases mem_cons.mp hn with rfl | hn
    · intro l k
      simp only [hnew]
      exact ⟨⟨nodup_nil, by simp [CondList.new]⟩, by simp [CondList.Below, CondList.new]⟩
    · exact (hx.placed n hn).mono hle
  · intro e he
    obtain ⟨hlt, hid⟩ := hx.owner e he
    refine ⟨lt_of_lt_of_le hlt hle, fun n hn hna => ?_⟩
    rcases mem_cons.mp hn with rfl | hn
    · exact absurd hna.symm (ne_of_lt hlt)
    · exact hid n hn hna
  · intro n hn p key hp
    rcases mem_cons.mp hn with rfl | hn
    · simp only [SceneInfo.Has, hnew] at hp
      obtain ⟨m, hm, -⟩ := hp
      cases hm
    · exact hx.filed n hn p key hp
  · intro e he p hp
    obtain ⟨hlt, hkey⟩ := hx.sound e he p hp
    refine ⟨lt_of_lt_of_le hlt hle, fun n hn hna => ?_⟩
    rcases mem_cons.mp hn with rfl | hn
    · exact absurd hna.symm (ne_of_lt (hx.owner e he).1)
    · exact hkey n hn hna

theorem hySceneAdd_indexed {i : SceneText} (hx : Indexed x) : Indexed (hySceneAdd x i) := by
  rw [hySceneAdd]
  split
  · rename_i a hget
    obtain ⟨⟨a', s⟩, hfind, rfl⟩ := map_eq_some_iff.mp hget
    have hmem := mem_of_find?_eq_some hfind
    have hs := hx.scene?_eq_some hmem
    have htext : s.Shrinks { s with
        acSceneName := strncpy nameMaxLen i.acSceneName
        acSceneEnable := strncpy stateMaxLen i.acSceneEnable
        acExecDelayed := strncpy delayedMaxLen i.acExecDelayed
        acUpdateTime := strncpy timeMaxLen i.acUpdateTime
        acNote := strncpy noteMaxLen i.acNote } :=
      .of_list_eq rfl fun l k => by cases l <;> cases k <;> rfl
    refine (hx.setScene hs htext).congr ?_ ?_ ?_
    · simp only [sceneListSet, hget, setScene]
      apply map_congr_left
      intro n hn
      split
      · rename_i hna
        rw [Keyed.eq_of_key_eq hx.addrs hn hmem hna]
      · rfl
    · simp only [sceneListSet, hget, pHashTable_setScene]
    · simp only [sceneListSet, hget, heap_setScene]
  · rename_i hget
    exact sceneListAdd_indexed hx hget

/-! ## Events, checks and timers -/

theorem SceneList.stList_fire (x : SceneList) (iTime : Int) (a : Nat) (s : SceneInfo)
    (pstCondPtr : Nat) (ts : List Trigger) :
    (x.fire iTime a s pstCondPtr ts).1.stList = x.stList := by
  induction ts generalizing x with
  | nil => rfl
  | cons t ts ih =>
    cases t with
    | exec => exact ih _
    | timer ulTime => exact ih _

theorem EventCond.hashKey_seen (e : Event) (c : EventCond) :
    Cond.hashKey (k := .event) (c.seen e) = Cond.hashKey (k := .event) c := by
  rw [seen]
  split <;> rfl

theorem Cond.isManual_seen (e : Event) (c : EventCond) :
    Cond.isManual l (k := .event) (c.seen e) = Cond.isManual l (k := .event) c := by
  rw [EventCond.seen]
  split <;> rfl

/-- What events and checks write of a scene: truth words, and records that stay
filed under their texts. -/
inductive SceneInfo.Marked : SceneInfo → SceneInfo → Prop
  | truth {s s' : SceneInfo} (h : s'.eraseTruth = s.eraseTruth) : s.Marked s'
  | cond {k : Kind} (s : SceneInfo) (p : CondPtr k) (f : Cond k → Cond k)
      (hkey : ∀ c, s.node? p = some c → (f c.stCond).hashKey = c.stCond.hashKey)
      (hmanual : ∀ l c, (f c).isManual l = c.isManual l) : s.Marked (s.modifyCond p f)
  | trans {s s' s'' : SceneInfo} (h : s.Marked s') (h' : s'.Marked s'') : s.Marked s''

/-- What they write of the list: such scenes, the queue and the timers. -/
inductive SceneList.Marked (x : SceneList) : SceneList → Prop
  | refl : x.Marked x
  | scene {y : SceneList} {a : Nat} {s s' : SceneInfo} (h : x.Marked y)
      (hs : y.scene? a = some s) (hm : s.Marked s') : x.Marked (y.setScene a s')
  | other {y z : SceneList} (h : x.Marked y) (hlist : z.stList = y.stList)
      (hhash : z.pHashTable = y.pHashTable) (hheap : z.heap = y.heap) : x.Marked z

theorem SceneInfo.Marked.shrinks (h : s.Marked s') : s.Shrinks s' := by
  induction h with
  | truth h => exact .of_eraseTruth_eq h
  | cond s p f hkey hmanual => exact .modifyCond hkey
  | trans _ _ ih ih' => exact ih.trans ih'

theorem SceneList.Marked.indexed (hx : Indexed x) (h : x.Marked x') : Indexed x' := by
  induction h with
  | refl => exact hx
  | scene _ hs hm ih => exact ih.setScene hs hm.shrinks
  | other _ hlist hhash hheap ih => exact ih.congr hlist hhash hheap

theorem SceneList.Marked.trans {y : SceneList} (h : x.Marked x') (h' : x'.Marked y) :
    x.Marked y := by
  induction h' with
  | refl => exact h
  | scene _ hs hm ih => exact ih.scene hs hm
  | other _ hlist hhash hheap ih => exact ih.other hlist hhash hheap

theorem SceneList.Marked.fire (h : x.Marked x') (iTime : Int) (a : Nat) (s : SceneInfo)
    (pstCondPtr : Nat) (ts : List Trigger) :
    x.Marked (x'.fire iTime a s pstCondPtr ts).1 := by
  induction ts generalizing x' with
  | nil => exact h
  | cons t ts ih =>
    cases t with
    | exec => exact ih (h.other rfl rfl rfl)
    | timer ulTime => exact ih (h.other rfl rfl rfl)

theorem eventCondNode_marked (h : eventCondNode iTime e y p = some (y', os)) :
    y.list.Marked y'.list := by
  have hseen : ∀ (s : SceneInfo) (q : CondPtr .event),
      s.Marked (s.modifyCond q (EventCond.seen e)) :=
    fun s q => .cond s q _ (fun c _ => EventCond.hashKey_seen e c.stCond)
      fun _ c => Cond.isManual_seen e c
  obtain ⟨s, hs, ⟨-, rfl, -⟩ | ⟨-, q, c, -, -, ⟨-, z, -, rfl, -⟩ | ⟨-, s', ts, hu, rfl, -⟩⟩⟩ :=
    eventCondNode_cases h
  · exact .refl
  · exact .scene .refl hs (hseen s q)
  · have hwords := SceneInfo.Marked.truth (sceneEventCondTrueUpdate_eraseTruth hu)
    exact .fire (.scene .refl hs ((hseen s q).trans hwords)) ..

theorem eventCondNode_indexed (hy : Indexed y.list)
    (h : eventCondNode iTime e y p = some (y', os)) :
    Indexed y'.list :=
  (eventCondNode_marked h).indexed hy

theorem eventPanelNode_marked (h : eventPanelNode iTime y p = some (y', os)) :
    y.list.Marked y'.list := by
  obtain ⟨s, -, ⟨rfl, -⟩ | ⟨-, -, hexec⟩⟩ := eventPanelNode_cases h
  · exact .refl
  · rw [exec, Prod.mk.injEq] at hexec
    exact .other .refl (by rw [hexec.1]) (by rw [hexec.1]) (by rw [hexec.1])

theorem sceneListEvent_marked (h : sceneListEvent y iTime e = some (y', os)) :
    y.list.Marked y'.list := by
  simp only [sceneListEvent] at h
  split at h
  · exact Run.run_preserves (I := fun z => y.list.Marked z.list)
      (fun _ _ _ _ hz hstep => hz.trans (eventCondNode_marked hstep)) .refl h
  · exact Run.run_preserves (I := fun z => y.list.Marked z.list)
      (fun _ _ _ _ hz hstep => hz.trans (eventPanelNode_marked hstep)) .refl h

theorem sceneListEvent_indexed (hy : Indexed y.list)
    (h : sceneListEvent y iTime e = some (y', os)) :
    Indexed y'.list :=
  (sceneListEvent_marked h).indexed hy

theorem SceneInfo.Marked.lose (now : Tm) {p : CondPtr .time} {c : CondNode .time}
    (hc : s.node? p = some c) :
    s.Marked (s.modifyCond p fun _ => (sceneTimeCondIsTrue now c.stCond).2) := by
  refine .cond s p _ (fun d hd => ?_) fun _ _ => rfl
  obtain ⟨lose, hlose⟩ := sceneTimeCondIsTrue_snd now c.stCond
  rw [hc, some.injEq] at hd
  rw [hlose, ← hd]
  rfl

theorem timeCondCheck_marked {p : CondPtr .time} {ts : List Trigger}
    (h : timeCondCheck now s p = some (s', ts)) : s.Marked s' := by
  simp only [timeCondCheck, bind_eq_bind, bind_eq_some_iff] at h
  obtain ⟨c, hc, hcheck⟩ := h
  obtain ⟨-, t₁, old, f, -, hu, rfl, hf, -⟩ := sceneTimeCondTrueUpdate_some hcheck
  have hcount : t₁.Marked (t₁.modifyCond p f) := by
    refine .cond t₁ p f (fun d _ => ?_) fun _ _ => rfl
    obtain ⟨i, hi⟩ := hf d.stCond
    rw [hi]
    rfl
  exact ((SceneInfo.Marked.lose now hc).trans (.truth (condTrueUpdate_eraseTruth hu))).trans hcount

theorem sceneTimeCheck_marked {ts : List Trigger} (h : sceneTimeCheck now s = some (s', ts)) :
    s.Marked s' :=
  Run.run_preserves (I := fun t => s.Marked t)
    (fun _ _ _ _ hst hcheck => hst.trans (timeCondCheck_marked hcheck)) (.truth rfl) h

theorem mem_stList_fire_setScene {n : SceneNode} {ns : List SceneNode} (s' : SceneInfo)
    (iTime : Int) (ts : List Trigger) (hns : ((n :: ns).map SceneNode.addr).Nodup)
    (hmem : ∀ m ∈ n :: ns, m ∈ x.stList) :
    ∀ m ∈ ns, m ∈ ((x.setScene n.addr s').fire iTime n.addr s' 0 ts).1.stList := by
  intro m hm
  rw [stList_fire]
  refine Keyed.mem_write_iff.mpr (.inr ⟨hmem m (mem_cons_of_mem n hm), fun hma => ?_⟩)
  rw [map_cons, nodup_cons] at hns
  exact hns.1 (hma ▸ List.mem_map_of_mem hm)

theorem timeTrueLoop_marked {ns : List SceneNode} (hx : Indexed x)
    (hns : (ns.map SceneNode.addr).Nodup) (hmem : ∀ n ∈ ns, n ∈ x.stList)
    (h : timeTrueLoop iTime now x ns = some (x', os)) : x.Marked x' := by
  induction ns generalizing x os with
  | nil =>
    simp only [timeTrueLoop, some.injEq, Prod.mk.injEq] at h
    exact h.1 ▸ .refl
  | cons n ns ih =>
    obtain ⟨s', ts, os₂, hcheck, hloop, -⟩ := timeTrueLoop_cons h
    have hs := hx.scene?_eq_some (hmem n mem_cons_self)
    have hx₁ : x.Marked ((x.setScene n.addr s').fire iTime n.addr s' 0 ts).1 :=
      .fire (.scene .refl hs (sceneTimeCheck_marked hcheck)) ..
    exact hx₁.trans (ih (hx₁.indexed hx) (nodup_cons.mp hns).2
      (mem_stList_fire_setScene s' iTime ts hns hmem) hloop)

/-- The steps that are requests. -/
def Act.isRequest : Act → Bool
  | .event .. | .timeTrueAll .. | .timeout .. | .execQueue .. => false
  | _ => true

theorem step_marked (hy : Indexed y.list) (hact : act.isRequest = false)
    (h : y.step act = some (y', os)) : y.list.Marked y'.list := by
  cases act with
  | event t e => exact sceneListEvent_marked h
  | timeTrueAll t now =>
    obtain ⟨⟨z, os'⟩, hz, heq⟩ := map_eq_some_iff.mp h
    cases heq
    exact timeTrueLoop_marked hy hy.addrs (fun _ hn => hn) hz
  | timeout t i =>
    obtain ⟨⟨z, os'⟩, hz, heq⟩ := map_eq_some_iff.mp h
    cases heq
    obtain ⟨hlist, hhash, hheap⟩ := sceneContinueTriggerTimerFun_stList hz
    exact .other .refl hlist hhash hheap
  | execQueue t =>
    simp only [Engine.step, some.injEq, Prod.mk.injEq] at h
    rw [← h.1]
    exact .other .refl rfl rfl rfl
  | _ => cases hact

/-! ## Runs -/

/-- What a request makes of the list: nothing when there is no scene with its id,
and otherwise what its operation does. -/
inductive Requested (x : SceneList) : Act → SceneList → Prop
  | absent (act : Act) : Requested x act x
  | sceneAdd (i : SceneText) : Requested x (.sceneAdd i) (hySceneAdd x i)
  | sceneDel {i : CText} {x' : SceneList} {r : ErrNo} (h : sceneListDel x i = some (x', r)) :
      Requested x (.sceneDel i) x'
  | condAdd {i : CText} {l : Logic} {k : Kind} {c : Cond k} {a : Nat} {s : SceneInfo}
      {x' : SceneList} {r : ErrNo} (hget : sceneListGet x i = some a) (hs : x.scene? a = some s)
      (h : sceneCondAdd x a l c = some (x', r)) : Requested x (.condAdd i l k c) x'
  | condDel {i : CText} {l : Logic} {k : Kind} {c : Cond k} {a : Nat} {s : SceneInfo}
      {x' : SceneList} {r : ErrNo} (hget : sceneListGet x i = some a) (hs : x.scene? a = some s)
      (h : sceneCondDel x a l c = some (x', r)) : Requested x (.condDel i l k c) x'
  | condClear {i : CText} {l : Logic} {k : Kind} {a : Nat} {s : SceneInfo} {x' : SceneList}
      (hget : sceneListGet x i = some a) (hs : x.scene? a = some s)
      (h : sceneCondClear x a l k = some x') : Requested x (.condClear i l k) x'
  | bind {i : CText} {n : ScenePanel} {a : Nat} {x' : SceneList}
      (h : sceneBind x a n = some x') : Requested x (.bind i n) x'
  | unbind {i : CText} {n : ScenePanel} {a : Nat} {x' : SceneList} {r : ErrNo}
      (h : sceneUnbind x a n = some (x', r)) : Requested x (.unbind i n) x'

theorem request_cases {i : CText} {f : Nat → Option SceneList} (hy : Indexed y.list)
    (h : y.request i f = some (y', os)) :
    y'.list = y.list ∨ ∃ a s, sceneListGet y.list i = some a ∧ y.list.scene? a = some s ∧
      f a = some y'.list := by
  rw [Engine.request] at h
  split at h
  · simp only [some.injEq, Prod.mk.injEq] at h
    exact .inl (by rw [h.1])
  · rename_i a hget
    obtain ⟨z, hz, heq⟩ := map_eq_some_iff.mp h
    cases heq
    obtain ⟨n, hfind, rfl⟩ := map_eq_some_iff.mp hget
    exact .inr ⟨_, _, hget, hy.scene?_eq_some (mem_of_find?_eq_some hfind), hz⟩

theorem step_requested (hy : Indexed y.list) (hact : act.isRequest = true)
    (h : y.step act = some (y', os)) : Requested y.list act y'.list := by
  cases act with
  | sceneAdd i =>
    simp only [Engine.step, some.injEq, Prod.mk.injEq] at h
    rw [← h.1]
    exact .sceneAdd i
  | sceneDel i =>
    obtain ⟨⟨z, r⟩, hz, heq⟩ := map_eq_some_iff.mp h
    cases heq
    exact .sceneDel hz
  | condAdd i l k c =>
    rcases request_cases hy h with hsame | ⟨a, s, hget, hs, hf⟩
    · exact hsame ▸ .absent _
    · obtain ⟨⟨z, r⟩, hz, (rfl : z = y'.list)⟩ := map_eq_some_iff.mp hf
      exact .condAdd hget hs hz
  | condDel i l k c =>
    rcases request_cases hy h with hsame | ⟨a, s, hget, hs, hf⟩
    · exact hsame ▸ .absent _
    · obtain ⟨⟨z, r⟩, hz, (rfl : z = y'.list)⟩ := map_eq_some_iff.mp hf
      exact .condDel hget hs hz
  | condClear i l k =>
    rcases request_cases hy h with hsame | ⟨a, s, hget, hs, hf⟩
    · exact hsame ▸ .absent _
    · exact .condClear hget hs hf
  | bind i n =>
    rcases request_cases hy h with hsame | ⟨a, s, -, -, hf⟩
    · exact hsame ▸ .absent _
    · exact .bind hf
  | unbind i n =>
    rcases request_cases hy h with hsame | ⟨a, s, -, -, hf⟩
    · exact hsame ▸ .absent _
    · obtain ⟨⟨z, r⟩, hz, (rfl : z = y'.list)⟩ := map_eq_some_iff.mp hf
      exact .unbind hz
  | _ => cases hact

theorem Requested.indexed (hx : Indexed x) (h : Requested x act x') : Indexed x' := by
  cases h with
  | absent => exact hx
  | sceneAdd i => exact hySceneAdd_indexed hx
  | sceneDel h => exact sceneListDel_indexed hx h
  | condAdd _ _ h => exact sceneCondAdd_indexed hx h
  | condDel _ _ h => exact sceneCondDel_indexed hx h
  | condClear _ _ h => exact sceneCondClear_indexed hx h
  | bind h => exact sceneBind_indexed hx h
  | unbind h => exact sceneUnbind_indexed hx h

theorem step_indexed (hy : Indexed y.list) (h : y.step act = some (y', os)) : Indexed y'.list := by
  cases hact : act.isRequest with
  | true => exact (step_requested hy hact h).indexed hy
  | false => exact (step_marked hy hact h).indexed hy

theorem run_indexed {as : List Act} (h : Run.run Engine.step .init as = some (y, os)) :
    Indexed y.list :=
  Run.run_preserves (I := fun y => Indexed y.list) (fun _ _ _ _ => step_indexed) indexed_init h

end Honyar.LocalScene
