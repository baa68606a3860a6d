import Honyar.LocalScene.Orderly

/-!
# Deleting several conditions of a list

A run of deletions from one list.  As long as every set keeps a condition, each
deletion works out the words above its set, and what stays of a set reads the
first bits of its word.  A set that loses its last condition while the list has
others is freed and then looked at.  The last condition of the list goes without
anything being worked out: the list is emptied, a bit is written, and the word of
the scene stays what it was.
-/

namespace Honyar.LocalScene

open List CondList

variable {l : Logic} {k : Kind}

/-! ## Sets and scenes without some conditions -/

/-- `n'` is the set `n` without the conditions at `ps`; its word is what it
was. -/
structure CondSetNode.Cut (l : Logic) (ps : List (CondPtr k)) (n n' : CondSetNode k) : Prop where
  addr : n'.addr = n.addr
  uiCondTrue : n'.uiCondTrue = n.uiCondTrue
  rows : n'.rows l = (n.rows l).filter fun q => q.1 ∉ ps

theorem CondSetNode.Cut.refl (l : Logic) (n : CondSetNode k) : n.Cut l [] n :=
  ⟨rfl, rfl, by simp⟩

theorem CondSetNode.Cut.trans {ps qs : List (CondPtr k)} {n n' n'' : CondSetNode k}
    (h : n.Cut l ps n') (h' : n'.Cut l qs n'') : n.Cut l (ps ++ qs) n'' where
  addr := h'.addr.trans h.addr
  uiCondTrue := h'.uiCondTrue.trans h.uiCondTrue
  rows := by
    rw [h'.rows, h.rows, filter_filter]
    refine filter_congr fun q _ => ?_
    simp only [mem_append, not_or, Bool.decide_and, Bool.and_comm]

namespace SceneInfo

variable {s s' s'' : SceneInfo} {p : CondPtr k} {n : CondSetNode k} {d : CondNode k}

/-- The scene with its own word worked out. -/
def settled (s : SceneInfo) : SceneInfo := { s with ucSceneCondTrue := s.sceneTruth }

@[simp] theorem list_settled (s : SceneInfo) (l : Logic) (k : Kind) :
    s.settled.list l k = s.list l k := by
  cases l <;> cases k <;> rfl

@[simp] theorem listTrue_settled (s : SceneInfo) (l : Logic) (k : Kind) :
    s.settled.listTrue l k = s.listTrue l k := by
  cases l <;> rfl

theorem consistent_iff_settled :
    s.Consistent ↔ s.settled.Consistent ∧ s.ucSceneCondTrue = s.sceneTruth := by
  constructor
  · intro hc
    refine ⟨?_, hc.scene⟩
    rwa [settled, ← hc.scene]
  · rintro ⟨hc, hscene⟩
    rwa [settled, ← hscene] at hc

theorem Consistent.settled (hc : s.Consistent) : s.settled.Consistent :=
  (consistent_iff_settled.mp hc).1

/-- The scenes differ in their conditions and truth words only. -/
def SameTexts (s s' : SceneInfo) : Prop :=
  ∃ o a w, s' = { s with stOrCond := o, stAndCond := a, ucSceneCondTrue := w }

theorem SameTexts.refl (s : SceneInfo) : s.SameTexts s := ⟨_, _, _, rfl⟩

theorem SameTexts.trans (h : s.SameTexts s') (h' : s'.SameTexts s'') : s.SameTexts s'' := by
  obtain ⟨o, a, w, rfl⟩ := h
  obtain ⟨o', a', w', rfl⟩ := h'
  exact ⟨o', a', w', rfl⟩

theorem SameTexts.setList (s : SceneInfo) (y : CondList l k) : s.SameTexts (s.setList l k y) := by
  cases l <;> cases k <;> exact ⟨_, _, _, rfl⟩

theorem SameTexts.setListTrue (s : SceneInfo) (l : Logic) (k : Kind) (b : Bool) :
    s.SameTexts (s.setListTrue l k b) := by
  cases l <;> exact ⟨_, _, _, rfl⟩

theorem SameTexts.condSetTrueInit (s : SceneInfo) (l : Logic) (k : Kind) (i : Nat) (b : Bool) :
    s.SameTexts (condSetTrueInit s l k i b) := by
  cases l <;> cases k <;> exact ⟨_, _, _, rfl⟩

/-- `s'` is the scene `s` without the conditions at `ps` of one of its lists, all
sets of which are still there. -/
structure Cut (l : Logic) (ps : List (CondPtr k)) (s s' : SceneInfo) : Prop where
  wf : s'.Wf
  sets : List.Forall₂ (CondSetNode.Cut l ps) (s.list l k).stList (s'.list l k).stList
  others : ∀ l' k', ¬ (l' = l ∧ k' = k) →
    s'.list l' k' = s.list l' k' ∧ s'.listTrue l' k' = s.listTrue l' k'
  texts : s.SameTexts s'

variable {ps qs : List (CondPtr k)}

theorem Cut.refl (l : Logic) (k : Kind) (hw : s.Wf) : s.Cut l ([] : List (CondPtr k)) s where
  wf := hw
  sets := forall₂_same.mpr fun n _ => .refl l n
  others _ _ _ := ⟨rfl, rfl⟩
  texts := .refl s

theorem Cut.trans (h : s.Cut l ps s') (h' : s'.Cut l qs s'') : s.Cut l (ps ++ qs) s'' where
  wf := h'.wf
  sets := by
    have hfst := h.sets
    have hsnd := h'.sets
    generalize (s.list l k).stList = ns at hfst
    generalize (s'.list l k).stList = ms at hfst hsnd
    generalize (s''.list l k).stList = os at hsnd
    induction hfst generalizing os with
    | nil =>
      cases hsnd
      exact .nil
    | cons hnm _ ih =>
      cases hsnd with
      | cons hmo hrest => exact .cons (hnm.trans hmo) (ih _ hrest)
  others l' k' hne :=
    ⟨(h'.others l' k' hne).1.trans (h.others l' k' hne).1,
      (h'.others l' k' hne).2.trans (h.others l' k' hne).2⟩
  texts := h.texts.trans h'.texts

theorem Cut.entries (h : s.Cut l ps s') :
    (s'.list l k).entries = (s.list l k).entries.filter fun q => q.1 ∉ ps := by
  have hsets := h.sets
  rw [entries_eq, entries_eq]
  generalize (s.list l k).stList = ns at hsets
  generalize (s'.list l k).stList = ms at hsets
  induction hsets with
  | nil => rfl
  | cons hnm _ ih => rw [flatMap_cons, flatMap_cons, filter_append, hnm.rows, ih]

theorem ptrs_eq (s : SceneInfo) (l : Logic) (k : Kind) :
    s.ptrs l k = (s.list l k).entries.map Prod.fst := by
  rw [ptrs, entries, map_flatMap]
  simp only [map_map]
  rfl

theorem Cut.mem_ptrs_iff (h : s.Cut l ps s') {q : CondPtr k} :
    q ∈ s'.ptrs l k ↔ q ∈ s.ptrs l k ∧ q ∉ ps := by
  rw [ptrs_eq, ptrs_eq, h.entries]
  simp only [mem_map, mem_filter, decide_eq_true_eq]
  constructor
  · rintro ⟨r, ⟨hr, hne⟩, rfl⟩
    exact ⟨⟨r, hr, rfl⟩, hne⟩
  · rintro ⟨⟨r, hr, rfl⟩, hne⟩
    exact ⟨r, ⟨hr, hne⟩, rfl⟩

/-! ## One deletion -/

/-- The deletion of the condition at `p`, as the function of its list makes it. -/
def condOut (s : SceneInfo) (p : CondPtr k) : Option SceneInfo :=
  (s.condDel p.acLogic p).bind fun t => condDelTrue t p.acLogic (delBit p.acLogic k) p

theorem ConsistentOff.of_list_eq {i : Nat} (hc : s.ConsistentOff l k i)
    (hlist : ∀ l k, s'.list l k = s.list l k) (htrue : ∀ l k, s'.listTrue l k = s.listTrue l k) :
    s'.ConsistentOff l k i where
  set l' k' n hn := by
    rw [hlist] at hn ⊢
    exact hc.set l' k' n hn
  list l' k' hne := by
    rw [hlist, htrue]
    exact hc.list l' k' hne

theorem sets_without (hw : s.Wf) (hn : s.set? p = some n) (hd : n.node? p.pCondNode = some d) :
    List.Forall₂ (CondSetNode.Cut p.acLogic [p]) (s.list p.acLogic k).stList
      ((s.list p.acLogic k).without p.pCondSetNode d).stList := by
  obtain ⟨hnm, hna⟩ := (hw _ k).set?_eq_some.mp hn
  obtain ⟨hdm, hda⟩ := ((hw _ k).sets n hnm).node?_eq_some.mp hd
  have hp : p = ⟨p.acLogic, n.addr, d.addr⟩ := by rw [hna, hda]
  rw [CondList.without, CondList.modifySet, forall₂_map_right_iff, forall₂_same]
  intro m hm
  have hrows := CondList.rows_without (hw p.acLogic k).chained hnm hdm hm
  rw [← hp, hna] at hrows
  refine ⟨?_, ?_, ?_⟩
  · split <;> rfl
  · split <;> rfl
  · rw [hrows]
    exact filter_congr fun q _ => by simp

theorem condOut_inside (hw : s.Wf) (hn : s.set? p = some n) (hd : n.node? p.pCondNode = some d)
    (hne : n.ucCondCount ≠ 1) :
    ∃ s', s.condOut p = some s' ∧ s.Cut p.acLogic [p] s' ∧
      (s.settled.Consistent → s'.Consistent) := by
  obtain ⟨hnm, hna⟩ := (hw _ k).set?_eq_some.mp hn
  have hnw := (hw _ k).sets n hnm
  obtain ⟨hdm, -⟩ := hnw.node?_eq_some.mp hd
  have hwy := without_wf hw hn hd hne
  have hset := set?_without hw hn hd hne
  have hmem : n.delNode d.addr ∈ ((s.list p.acLogic k).without p.pCondSetNode d).stList :=
    mem_modifySet.mpr (.inl ⟨n, hnm, hna, rfl⟩)
  have hcount : ¬ 0 = ((s.setList p.acLogic k
      ((s.list p.acLogic k).without p.pCondSetNode d)).list p.acLogic k).iCount := by
    rw [list_setList_self]
    intro hzero
    rw [hwy.iCount_eq_zero_iff.mp hzero.symm] at hmem
    cases hmem
  rw [condOut, condDel_inside hn hd hne, Option.bind_some, condDelTrue, if_neg hcount, hset]
  refine ⟨_, rfl, ⟨condSetTrueInit_wf _ _ (hw.setList hwy), ?_, fun l' k' hl => ⟨?_, ?_⟩, ?_⟩,
    fun hc => ?_⟩
  · rw [list_condSetTrueInit_self, list_setList_self]
    exact sets_without hw hn hd
  · rw [list_condSetTrueInit_of_ne _ _ _ hl, list_setList_of_ne _ _ hl]
  · rw [listTrue_condSetTrueInit_of_ne _ _ _ hl, listTrue_setList]
  · exact (SameTexts.setList s _).trans (.condSetTrueInit _ _ _ _ _)
  · rw [(hnw.delNode hdm hne).wordTrue_eq]
    refine condSetTrueInit_consistent (hw.setList hwy) ?_ ?_
    · rw [list_setList_self]
      exact hmem
    · have hsettled : s.settled.set? p = some n := by rw [set?, list_settled, ← set?, hn]
      have hw' : s.settled.Wf := wf_of_eraseTruth_eq (s.eraseTruth_setScene _) hw
      have hoff := without_off (d := d) hw' hc hsettled
      refine hoff.of_list_eq (fun l' k' => ?_) fun l' k' => ?_
      · by_cases hl : l' = p.acLogic ∧ k' = k
        · obtain ⟨rfl, rfl⟩ := hl
          rw [list_setList_self, list_setList_self, list_settled]
        · rw [list_setList_of_ne _ _ hl, list_setList_of_ne _ _ hl, list_settled]
      · rw [listTrue_setList, listTrue_setList, listTrue_settled]

theorem condOut_alone (hn : s.set? p = some n) (hd : n.node? p.pCondNode = some d)
    (hone : n.ucCondCount = 1) (hmany : (s.list p.acLogic k).iCount ≠ 1) : s.condOut p = none := by
  have hdel := condDel_last hn hd hone
  obtain ⟨hgone, hcount⟩ := set?_condDel_last hn hd hone hdel
  rw [condOut, hdel, Option.bind_some, condDelTrue, if_neg (by omega), hgone]
  rfl

/-- `s'` is what the last condition of a list leaves of the scene `s`: the list is
empty, a bit says so, and the word of the scene is what it was. -/
structure Drained (l : Logic) (k : Kind) (s s' : SceneInfo) : Prop where
  wf : s'.Wf
  nil : (s'.list l k).stList = []
  others : ∀ l' k', ¬ (l' = l ∧ k' = k) → s'.list l' k' = s.list l' k'
  bits : ∀ l' k', s'.listTrue l' k' =
    if l' = l ∧ k' = delBit l k then decide (l = .and) else s.listTrue l' k'
  scene : s'.ucSceneCondTrue = s.ucSceneCondTrue
  texts : s.SameTexts s'

theorem condOut_last (hw : s.Wf) (hn : s.set? p = some n) (hd : n.node? p.pCondNode = some d)
    (hone : (s.list p.acLogic k).iCount = 1) :
    ∃ s', s.condOut p = some s' ∧ Drained p.acLogic k s s' := by
  obtain ⟨hnm, -⟩ := (hw _ k).set?_eq_some.mp hn
  have hset := (hw _ k).ucCondCount_eq_one hnm hone
  obtain ⟨hnil, hnum, hcount⟩ := (hw _ k).withoutSet_of_one hnm hone
  rw [condOut, condDel_last hn hd hset, Option.bind_some, condDelTrue,
    if_pos (by rw [list_setList_self, hcount]), modifyList, list_setList_self, setList_setList]
  refine ⟨_, rfl, ?_, ?_, fun l' k' hl => ?_, fun l' k' => ?_, ?_, ?_⟩
  · refine wf_of_eraseTruth_eq (eraseTruth_setListTrue ..) (hw.setList ?_)
    exact .of_empty hnil hnum hcount
  · rw [list_setListTrue, list_setList_self]
    exact hnil
  · rw [list_setListTrue, list_setList_of_ne _ _ hl]
  · split
    · rename_i hl
      obtain ⟨rfl, rfl⟩ := hl
      rw [listTrue_setListTrue_self]
    · rename_i hl
      rw [listTrue_setListTrue_of_ne _ _ hl, listTrue_setList]
  · rw [ucSceneCondTrue_setListTrue, ucSceneCondTrue_setList]
  · exact (SameTexts.setList s _).trans (.setListTrue _ _ _ _)

/-! ## Several deletions -/

theorem exists_of_mem_ptrs (hw : s.Wf) (hp : p ∈ s.ptrs l k) :
    p.acLogic = l ∧ ∃ n ∈ (s.list l k).stList, ∃ d, s.set? p = some n ∧
      n.node? p.pCondNode = some d ∧ (p, d.stCond) ∈ n.rows l := by
  obtain ⟨rfl, n, d, hn, hd⟩ := (mem_ptrs_iff hw).mp hp
  obtain ⟨hnm, hna⟩ := (hw _ k).set?_eq_some.mp hn
  obtain ⟨hdm, hda⟩ := ((hw _ k).sets n hnm).node?_eq_some.mp hd
  refine ⟨rfl, n, hnm, d, hn, hd, mem_map.mpr ⟨d, hdm, ?_⟩⟩
  rw [hna, hda]

/-- The deletions in a row. -/
def condsOut (s : SceneInfo) (ps : List (CondPtr k)) : Option SceneInfo := ps.foldlM condOut s

theorem condsOut_cons (h : s.condOut p = some s') : s.condsOut (p :: ps) = s'.condsOut ps := by
  rw [condsOut, foldlM_cons, h]
  rfl

theorem condsOut_append (h : s.condsOut ps = some s') :
    s.condsOut (ps ++ qs) = s'.condsOut qs := by
  rw [condsOut, foldlM_append]
  exact congrArg (Option.bind · _) h

theorem Cut.sub (hcut : s.Cut l [p] s') (hnodup : (p :: ps).Nodup)
    (hsub : ∀ q ∈ p :: ps, q ∈ s.ptrs l k) : ∀ q ∈ ps, q ∈ s'.ptrs l k := by
  intro q hq
  refine hcut.mem_ptrs_iff.mpr ⟨hsub q (mem_cons_of_mem p hq), fun hqp => ?_⟩
  rw [mem_singleton.mp hqp] at hq
  exact (nodup_cons.mp hnodup).1 hq

/-- As long as every set keeps a condition, every deletion works out the words
above its set. -/
theorem condsOut_inside (hw : s.Wf) (hnodup : ps.Nodup) (hsub : ∀ p ∈ ps, p ∈ s.ptrs l k)
    (hkeep : ∀ n ∈ (s.list l k).stList, ∃ q ∈ n.rows l, q.1 ∉ ps) :
    ∃ s', s.condsOut ps = some s' ∧ s.Cut l ps s' ∧ (ps = [] → s' = s) ∧
      (s.settled.Consistent → s'.settled.Consistent ∧ (ps ≠ [] → s'.Consistent)) := by
  induction ps generalizing s with
  | nil => exact ⟨s, rfl, .refl l k hw, fun _ => rfl, fun hc => ⟨hc, fun hne => absurd rfl hne⟩⟩
  | cons p ps ih =>
    obtain ⟨rfl, n, hnm, d, hn, hd, hrow⟩ := exists_of_mem_ptrs hw (hsub p mem_cons_self)
    have hnw := (hw _ k).sets n hnm
    have hne : n.ucCondCount ≠ 1 := by
      intro hone
      obtain ⟨q, hq, hqp⟩ := hkeep n hnm
      obtain ⟨c, hc, rfl⟩ := mem_map.mp hq
      obtain ⟨e, he, heq⟩ := mem_map.mp hrow
      rw [hnw.eq_of_count_one hone hc he] at hqp
      exact hqp (mem_cons.mpr (.inl (Prod.mk.inj heq).1))
    obtain ⟨s₁, hout, hcut, hcons⟩ := condOut_inside hw hn hd hne
    have hkeep₁ : ∀ m ∈ (s₁.list p.acLogic k).stList, ∃ q ∈ m.rows p.acLogic, q.1 ∉ ps := by
      intro m hm
      obtain ⟨m₀, hm₀, hcutm⟩ := Keyed.exists_of_forall₂ hcut.sets hm
      obtain ⟨q, hq, hqp⟩ := hkeep m₀ hm₀
      rw [mem_cons, not_or] at hqp
      refine ⟨q, ?_, hqp.2⟩
      rw [hcutm.rows, mem_filter]
      exact ⟨hq, by simpa using hqp.1⟩
    obtain ⟨s', hrun, hcut', hsame, hcons'⟩ := ih hcut.wf (nodup_cons.mp hnodup).2
      (hcut.sub hnodup hsub) hkeep₁
    refine ⟨s', (condsOut_cons hout).trans hrun, hcut.trans hcut',
      fun hnil => absurd hnil (cons_ne_nil _ _), fun hc => ?_⟩
    obtain ⟨hset, hwhole⟩ := hcons' (hcons hc).settled
    refine ⟨hset, fun _ => ?_⟩
    by_cases hnil : ps = []
    · rw [hsame hnil]
      exact hcons hc
    · exact hwhole hnil

/-- A set that loses all its conditions while its list has another set. -/
theorem condsOut_none (hw : s.Wf) (hnodup : ps.Nodup) (hsub : ∀ p ∈ ps, p ∈ s.ptrs l k)
    (hn : n ∈ (s.list l k).stList) (hall : ∀ q ∈ n.rows l, q.1 ∈ ps)
    (hmany : (s.list l k).stList.length ≠ 1) : s.condsOut ps = none := by
  induction ps generalizing s n with
  | nil =>
    obtain ⟨c, hc⟩ := exists_mem_of_length_pos ((hw l k).sets n hn).pos
    exact absurd (hall _ (mem_map_of_mem hc)) not_mem_nil
  | cons p ps ih =>
    obtain ⟨rfl, m, hmm, d, hm, hd, -⟩ := exists_of_mem_ptrs hw (hsub p mem_cons_self)
    by_cases hone : m.ucCondCount = 1
    · have hcount : (s.list p.acLogic k).iCount ≠ 1 := fun hcount => hmany (by
        rw [(hw p.acLogic k).stList_eq_of_one hmm hcount]
        rfl)
      rw [condsOut, foldlM_cons, condOut_alone hm hd hone hcount]
      rfl
    · obtain ⟨s₁, hout, hcut, -⟩ := condOut_inside hw hm hd hone
      obtain ⟨n₁, hn₁, hcutn⟩ := Keyed.exists_of_forall₂ hcut.sets.flip hn
      rw [condsOut_cons hout]
      refine ih hcut.wf (nodup_cons.mp hnodup).2 (hcut.sub hnodup hsub) hn₁
        (fun q hq => ?_) (hcut.sets.length_eq ▸ hmany)
      rw [hcutn.rows, mem_filter] at hq
      refine (mem_cons.mp (hall q hq.1)).resolve_left fun hqp => ?_
      simp [hqp] at hq

/-- The only set of a list loses all its conditions: `t` is the scene before the
last of them. -/
theorem condsOut_drained (hw : s.Wf) (hnodup : ps.Nodup) (hsub : ∀ p ∈ ps, p ∈ s.ptrs l k)
    (hn : (s.list l k).stList = [n]) (hall : ∀ q ∈ n.rows l, q.1 ∈ ps) :
    ∃ t s', s.condsOut ps = some s' ∧ Drained l k t s' ∧ s.Cut l ps.dropLast t ∧
      ((s.list l k).iCount = 1 → t = s) ∧
      (s.settled.Consistent → t.settled.Consistent ∧
        t.listTrue l k = n.uiCondTrue.getLsbD 0 ∧ ((s.list l k).iCount ≠ 1 → t.Consistent)) := by
  have hnm : n ∈ (s.list l k).stList := by rw [hn]; exact mem_singleton_self n
  have hptrs : s.ptrs l k = (n.rows l).map Prod.fst := by
    rw [ptrs_eq, entries_eq, hn, flatMap_singleton]
  have hperm : ps.Perm (s.ptrs l k) := by
    refine (perm_ext_iff_of_nodup hnodup ?_).mpr fun q => ⟨hsub q, fun hq => ?_⟩
    · rw [ptrs_eq]
      exact (hw l k).chained.entries_nodup
    · rw [hptrs] at hq
      obtain ⟨r, hr, rfl⟩ := mem_map.mp hq
      exact hall r hr
  have hcount : (s.list l k).iCount = ps.length := by
    rw [(hw l k).iCount_eq, hperm.length_eq, ptrs_eq, length_map]
  have hpos : 0 < ps.length := by
    have hp := ((hw l k).sets n hnm).pos
    rw [hperm.length_eq, hptrs, length_map, CondSetNode.rows, length_map]
    exact hp
  obtain ⟨ps, p, rfl⟩ : ∃ qs p, ps = qs ++ [p] :=
    ⟨_, _, (dropLast_append_getLast (ne_nil_of_length_pos hpos)).symm⟩
  rw [length_append, length_singleton] at hcount
  have hp : p ∈ s.ptrs l k := hsub p mem_concat_self
  have hnot : p ∉ ps := fun hmem =>
    (nodup_append.mp hnodup).2.2 p hmem p (mem_singleton_self p) rfl
  -- the set keeps the last condition until then
  have hkeep : ∀ m ∈ (s.list l k).stList, ∃ q ∈ m.rows l, q.1 ∉ ps := by
    intro m hm
    rw [hn, mem_singleton] at hm
    rw [hptrs, ← hm] at hp
    obtain ⟨q, hq, rfl⟩ := mem_map.mp hp
    exact ⟨q, hq, hnot⟩
  obtain ⟨t, hrun, hcut, hsame, hcons⟩ := condsOut_inside hw (nodup_append.mp hnodup).1
    (fun q hq => hsub q (mem_append_left _ hq)) hkeep
  have hleft : (t.ptrs l k).Perm [p] := by
    refine (perm_ext_iff_of_nodup ?_ (nodup_singleton p)).mpr fun q => ?_
    · rw [ptrs_eq]
      exact (hcut.wf l k).chained.entries_nodup
    · rw [hcut.mem_ptrs_iff, mem_singleton, ← hperm.mem_iff, mem_append,
        mem_singleton]
      constructor
      · rintro ⟨hq | hq, hne⟩
        · exact absurd hq hne
        · exact hq
      · rintro rfl
        exact ⟨.inr rfl, hnot⟩
  have hone : (t.list l k).iCount = 1 := by
    rw [(hcut.wf l k).iCount_eq, ← length_map (f := Prod.fst), ← ptrs_eq, hleft.length_eq]
    rfl
  obtain ⟨rfl, n', hnm', d, hn', hd, -⟩ :=
    exists_of_mem_ptrs hcut.wf (hleft.mem_iff.mpr (mem_singleton_self p))
  obtain ⟨s', hout, hdrained⟩ := condOut_last hcut.wf hn' hd hone
  refine ⟨t, s', ?_, hdrained, ?_, fun h => hsame ?_, fun hc => ⟨(hcons hc).1, ?_, fun h => ?_⟩⟩
  · rw [condsOut_append hrun, condsOut_cons hout]
    rfl
  · rw [dropLast_concat]
    exact hcut
  · exact length_eq_zero_iff.mp (by omega)
  · have hlist := (hcons hc).1.list p.acLogic k
    have hset := (hcons hc).1.set p.acLogic k n' (by rw [list_settled]; exact hnm')
    rw [listTrue_settled, list_settled] at hlist
    rw [list_settled] at hset
    have hword : n'.uiCondTrue = n.uiCondTrue := by
      have hsets := hcut.sets
      rw [hn, (hcut.wf _ k).stList_eq_of_one hnm' hone] at hsets
      exact (forall₂_cons.mp hsets).1.uiCondTrue
    rw [hlist, truth, (hcut.wf _ k).stList_eq_of_one hnm' hone, map_singleton, hset,
      CondSetNode.truth, (hcut.wf _ k).ucCondCount_eq_one hnm' hone, hword]
    cases p.acLogic <;> simp [Logic.fold]
  · refine (hcons hc).2 fun hnil => h ?_
    rw [hcount, hnil]
    rfl

/-! ## What the others read -/

theorem Wf.map_condTrue (hw : s.Wf) (hn : n ∈ (s.list l k).stList) :
    (n.rows l).map (fun q => s.condTrue q.1) =
      (List.range (n.rows l).length).map n.uiCondTrue.getLsbD := by
  have hnw := (hw l k).sets n hn
  rw [CondSetNode.rows, length_map, ← hnw.count, hnw.map_range, map_map]
  refine map_congr_left fun c hc => ?_
  exact condTrue_eq (p := ⟨l, n.addr, c.addr⟩) ((hw l k).set?_eq_some.mpr ⟨hn, rfl⟩)
    (hnw.node?_eq_some.mpr ⟨hc, rfl⟩)

/-- The conditions that stay read what they read exactly if, in every set, the
first bits are theirs. -/
theorem Cut.reads_iff (hcut : s.Cut l ps s') :
    (∀ q ∈ s'.ptrs l k, s'.condTrue q = s.condTrue q) ↔
      ∀ n ∈ (s.list l k).stList,
        ((n.rows l).filter fun q => q.1 ∉ ps).map (fun q => s.condTrue q.1) =
          (List.range ((n.rows l).filter fun q => q.1 ∉ ps).length).map n.uiCondTrue.getLsbD := by
  have hset {n m : CondSetNode k} (hcutn : n.Cut l ps m) (hm : m ∈ (s'.list l k).stList) :
      (∀ q ∈ m.rows l, s'.condTrue q.1 = s.condTrue q.1) ↔
        ((n.rows l).filter fun q => q.1 ∉ ps).map (fun q => s.condTrue q.1) =
          (List.range ((n.rows l).filter fun q => q.1 ∉ ps).length).map
            n.uiCondTrue.getLsbD := by
    rw [← hcutn.rows, ← hcutn.uiCondTrue, ← hcut.wf.map_condTrue hm, map_inj_left]
    exact forall₂_congr fun _ _ => eq_comm
  rw [ptrs_eq, entries_eq]
  constructor
  · intro h n hn
    obtain ⟨m, hm, hcutn⟩ := Keyed.exists_of_forall₂ hcut.sets.flip hn
    refine (hset hcutn hm).mp fun q hq => h q.1 ?_
    exact mem_map_of_mem (mem_flatMap.mpr ⟨m, hm, hq⟩)
  · intro h q hq
    obtain ⟨r, hr, rfl⟩ := mem_map.mp hq
    obtain ⟨m, hm, hr⟩ := mem_flatMap.mp hr
    obtain ⟨n, hn, hcutn⟩ := Keyed.exists_of_forall₂ hcut.sets hm
    exact (hset hcutn hm).mpr (h n hn) r hr

end SceneInfo

end Honyar.LocalScene
