import Honyar.LocalScene.Write

/-!
# Recomputing the truth words

The functions that recompute everything (`condTrueInit`, `condSetTrueInit`)
repair whatever is wrong at their own set, its list and the scene; they make a
scene consistent that is consistent everywhere else.  The short-cutting update
(`condTrueUpdate`) stops at the first level that did not change, and a level
that did not change has, in a consistent scene, nothing to recompute above it:
there the two are the same function.
-/

namespace Honyar.LocalScene

open Option SceneInfo Mask

namespace SceneInfo

/-- Consistent everywhere but at one set of one list, at that list's own bit and
at the scene. -/
structure ConsistentOff (s : SceneInfo) (l : Logic) (k : Kind) (iCondSetIndex : Nat) : Prop where
  set : ∀ l' k', ∀ n ∈ (s.list l' k').stList,
    (l' = l ∧ k' = k → n.iCondSetIndex ≠ iCondSetIndex) → (s.list l' k').setTrue n = n.truth l'
  list : ∀ l' k', ¬ (l' = l ∧ k' = k) → s.listTrue l' k' = (s.list l' k').truth

theorem Consistent.off {s : SceneInfo} (h : s.Consistent) (l : Logic) (k : Kind) (i : Nat) :
    s.ConsistentOff l k i :=
  ⟨fun l' k' n hn _ => h.set l' k' n hn, fun l' k' _ => h.list l' k'⟩

end SceneInfo

/-! ## The set, its list and the scene -/

section SetInit

variable (s : SceneInfo) (l : Logic) (k : Kind) (i : Nat) (b : Bool)

theorem list_condSetTrueInit_self :
    (condSetTrueInit s l k i b).list l k =
      { s.list l k with uiCondSetTrue := write (s.list l k).uiCondSetTrue i b } := by
  have h := list_setListTrue (s.writeCondSetTrue l k i b) l l k k
    ((s.writeCondSetTrue l k i b).newCondListTrue l k)
  rw [writeCondSetTrue, list_setList_self] at h
  exact h

variable {l k}

theorem list_condSetTrueInit_of_ne {l' : Logic} {k' : Kind} (h : ¬ (l' = l ∧ k' = k)) :
    (condSetTrueInit s l k i b).list l' k' = s.list l' k' := by
  have h' := list_setListTrue (s.writeCondSetTrue l k i b) l l' k k'
    ((s.writeCondSetTrue l k i b).newCondListTrue l k)
  rw [writeCondSetTrue, list_setList_of_ne _ _ h] at h'
  exact h'

theorem listTrue_condSetTrueInit_of_ne {l' : Logic} {k' : Kind} (h : ¬ (l' = l ∧ k' = k)) :
    (condSetTrueInit s l k i b).listTrue l' k' = s.listTrue l' k' := by
  have h' := listTrue_setListTrue_of_ne (s.writeCondSetTrue l k i b)
    ((s.writeCondSetTrue l k i b).newCondListTrue l k) h
  rw [writeCondSetTrue, listTrue_setList] at h'
  exact h'

variable {s}

theorem condSetTrueInit_wf (hw : s.Wf) : (condSetTrueInit s l k i b).Wf :=
  wf_of_eraseTruth_eq (condSetTrueInit_eraseTruth s l k i b) hw

theorem listTrue_condSetTrueInit_self (hw : s.Wf) :
    (condSetTrueInit s l k i b).listTrue l k = ((condSetTrueInit s l k i b).list l k).truth := by
  have hw' : (s.writeCondSetTrue l k i b).Wf :=
    wf_of_eraseTruth_eq (s.eraseTruth_writeCondSetTrue l k i b) hw
  have h : (condSetTrueInit s l k i b).listTrue l k =
      (s.writeCondSetTrue l k i b).newCondListTrue l k :=
    listTrue_setListTrue_self _ l k _
  rw [h, hw'.newCondListTrue_eq, list_condSetTrueInit_self, writeCondSetTrue,
    list_setList_self]

theorem ucSceneCondTrue_condSetTrueInit (hw : s.Wf) :
    (condSetTrueInit s l k i b).ucSceneCondTrue = (condSetTrueInit s l k i b).sceneTruth :=
  (wf_of_eraseTruth_eq (by simp) hw : SceneInfo.Wf
    ((s.writeCondSetTrue l k i b).setListTrue l k
      ((s.writeCondSetTrue l k i b).newCondListTrue l k))).newSceneTrue_eq

end SetInit

/-- Recomputing from a set upwards, with the truth the set has, repairs the
scene. -/
theorem condSetTrueInit_consistent {s : SceneInfo} {l : Logic} {k : Kind} {n : CondSetNode k}
    (hw : s.Wf) (hn : n ∈ (s.list l k).stList) (hc : s.ConsistentOff l k n.iCondSetIndex) :
    (condSetTrueInit s l k n.iCondSetIndex (n.truth l)).Consistent where
  set := by
    intro l' k' m hm
    by_cases h : l' = l ∧ k' = k
    · obtain ⟨rfl, rfl⟩ := h
      rw [list_condSetTrueInit_self] at hm ⊢
      have hi := (hw l' k').index_lt_32 hn
      by_cases hmn : m.iCondSetIndex = n.iCondSetIndex
      · obtain rfl := (hw l' k').eq_of_index hm hn hmn
        exact getLsbD_write_self _ hi _
      · rw [← hc.set l' k' m hm fun _ => hmn]
        exact getLsbD_write_of_ne _ hi _ hmn
    · rw [list_condSetTrueInit_of_ne s _ _ h] at hm ⊢
      exact hc.set l' k' m hm fun h' => absurd h' h
  list := by
    intro l' k'
    by_cases h : l' = l ∧ k' = k
    · obtain ⟨rfl, rfl⟩ := h
      exact listTrue_condSetTrueInit_self _ _ hw
    · rw [listTrue_condSetTrueInit_of_ne s _ _ h, list_condSetTrueInit_of_ne s _ _ h]
      exact hc.list l' k' h
  scene := ucSceneCondTrue_condSetTrueInit _ _ hw

/-! ## The sets are not touched -/

theorem set?_condSetTrueInit (s : SceneInfo) (l : Logic) (k : Kind) (i : Nat) (b : Bool)
    {k' : Kind} (q : CondPtr k') : (condSetTrueInit s l k i b).set? q = s.set? q := by
  by_cases h : q.acLogic = l ∧ k' = k
  · obtain ⟨rfl, rfl⟩ := h
    rw [set?, set?, list_condSetTrueInit_self]
    rfl
  · rw [set?, set?, list_condSetTrueInit_of_ne s _ _ h]

/-! ## The condition -/

section CondInit

variable {s : SceneInfo} {k : Kind} {p : CondPtr k} {n : CondSetNode k} {c : CondNode k}

theorem condTrueInit_eq (hn : s.set? p = some n) (hc : n.node? p.pCondNode = some c) (b : Bool) :
    condTrueInit s p b =
      some (condSetTrueInit
        (s.modifySet p (.setCondTrue (Mask.write n.uiCondTrue c.iCondIndex b)))
        p.acLogic k n.iCondSetIndex
        (p.acLogic.wordTrue (Mask.write n.uiCondTrue c.iCondIndex b) n.ucCondCount)) := by
  simp [condTrueInit, hn, hc]

theorem condTrueInit_isSome (hw : s.Wf) {l : Logic} (hp : p ∈ s.ptrs l k) (b : Bool) :
    ∃ s', condTrueInit s p b = some s' := by
  obtain ⟨-, n, c, hn, hc⟩ := (mem_ptrs_iff hw).mp hp
  exact ⟨_, condTrueInit_eq hn hc b⟩

theorem condTrueInit_some {s' : SceneInfo} {b : Bool} (h : condTrueInit s p b = some s') :
    ∃ n c, s.set? p = some n ∧ n.node? p.pCondNode = some c := by
  simp only [condTrueInit, bind_eq_bind, pure_def, bind_eq_some_iff,
    some.injEq] at h
  obtain ⟨n, hn, c, hc, -⟩ := h
  exact ⟨n, c, hn, hc⟩

theorem condTrueInit_wf {s' : SceneInfo} {b : Bool} (hw : s.Wf)
    (h : condTrueInit s p b = some s') : s'.Wf :=
  wf_of_eraseTruth_eq (condTrueInit_eraseTruth h) hw

/-- Writing the bit of a condition is seen by that condition and by no other of
its set. -/
theorem CondSetNode.Wf.condTrue_write (hw : n.Wf) (hc : c ∈ n.pstCond)
    (b : Bool) (a : Nat) :
    (n.setCondTrue (Mask.write n.uiCondTrue c.iCondIndex b)).condTrue a =
      if a = c.addr then b else n.condTrue a := by
  have hi := hw.index_lt_32 hc
  change ((n.node? a).any fun d =>
    (write n.uiCondTrue c.iCondIndex b).getLsbD d.iCondIndex) = _
  split
  · rename_i ha
    rw [hw.node?_eq_some.mpr ⟨hc, ha.symm⟩]
    exact getLsbD_write_self _ hi _
  · rename_i ha
    rw [CondSetNode.condTrue]
    cases hd : n.node? a with
    | none => rfl
    | some d =>
      obtain ⟨hdm, hda⟩ := hw.node?_eq_some.mp hd
      -- two nodes of one set with the same index are the same node
      have hne : d.iCondIndex ≠ c.iCondIndex := by
        intro h
        obtain rfl := hw.eq_of_index hdm hc h
        exact ha hda.symm
      exact getLsbD_write_of_ne _ hi _ hne

/-- Writing the bit of a condition is seen by that condition and by no other of
the scene. -/
theorem truths_modifySet_write (hnw : n.Wf) (hn : s.set? p = some n)
    (hc : n.node? p.pCondNode = some c) (b : Bool) :
    (s.modifySet p (.setCondTrue (Mask.write n.uiCondTrue c.iCondIndex b))).truths =
      Function.update s.truths ⟨k, p⟩ b := by
  obtain ⟨hcm, hca⟩ := hnw.node?_eq_some.mp hc
  have hwrite := hnw.condTrue_write hcm b
  funext ⟨k', q⟩
  simp only [truths, condTrue]
  by_cases hq : (⟨k', q⟩ : AnyPtr) = ⟨k, p⟩
  · cases hq
    rw [set?_modifySet s p (.setCondTrue _) (fun _ => rfl) rfl, hn,
      Function.update_self]
    simp only [map_some, if_true, any_some, hwrite, hca]
  · rw [Function.update_of_ne hq]
    change _ = (s.set? q).any fun n => n.condTrue q.pCondNode
    by_cases hl : q.acLogic = p.acLogic ∧ k' = k
    · obtain ⟨hl, rfl⟩ := hl
      rw [set?_modifySet s p (.setCondTrue _) (fun _ => rfl) hl]
      by_cases ha : q.pCondSetNode = p.pCondSetNode
      · have hqn : s.set? q = some n := by rw [← hn, set?, set?, hl, ha]
        have hqp : q.pCondNode ≠ c.addr := by
          intro hqp
          apply hq
          cases q; cases p
          simp_all
        simp only [hqn, map_some, ha, if_true, any_some, hwrite, if_neg hqp]
      · simp only [ha, if_false, map_id']
    · rw [set?_modifySet_of_ne _ _ _ hl]

theorem condTrueInit_truths {s' : SceneInfo} {b : Bool} (hw : s.Wf)
    (h : condTrueInit s p b = some s') : s'.truths = Function.update s.truths ⟨k, p⟩ b := by
  obtain ⟨n, c, hn, hc⟩ := condTrueInit_some h
  have hnw := (hw _ k).sets n ((hw _ k).set?_eq_some.mp hn).1
  rw [condTrueInit_eq hn hc, some.injEq] at h
  rw [← h, ← truths_modifySet_write hnw hn hc]
  funext ⟨k', q⟩
  simp only [truths, condTrue, set?_condSetTrueInit]

theorem SceneInfo.ConsistentOff.modifySet {f : CondSetNode k → CondSetNode k} (hw : s.Wf)
    (hn : s.set? p = some n) (hf : ∀ m, (f m).iCondSetIndex = m.iCondSetIndex)
    (hc : s.ConsistentOff p.acLogic k n.iCondSetIndex) :
    (s.modifySet p f).ConsistentOff p.acLogic k n.iCondSetIndex := by
  obtain ⟨hnm, hna⟩ := (hw _ k).set?_eq_some.mp hn
  refine ⟨?_, ?_⟩
  · intro l' k' m hm hne
    by_cases h : l' = p.acLogic ∧ k' = k
    · obtain ⟨rfl, rfl⟩ := h
      rw [list_modifySet_self] at hm ⊢
      rcases CondList.mem_modifySet.mp hm with ⟨m₀, hm₀, ha, rfl⟩ | ⟨hm, -⟩
      · obtain rfl := Keyed.eq_of_key_eq (hw _ k').addr hm₀ hnm (ha.trans hna.symm)
        exact absurd (hf m₀) (hne ⟨rfl, rfl⟩)
      · exact hc.set _ _ m hm hne
    · rw [list_modifySet_of_ne _ _ _ h] at hm ⊢
      exact hc.set l' k' m hm hne
  · intro l' k' h
    rw [listTrue_modifySet, list_modifySet_of_ne _ _ _ h]
    exact hc.list l' k' h

theorem condTrueInit_consistent {s' : SceneInfo} {b : Bool} (hw : s.Wf) (hn : s.set? p = some n)
    (hc : s.ConsistentOff p.acLogic k n.iCondSetIndex) (h : condTrueInit s p b = some s') :
    s'.Consistent := by
  obtain ⟨n', c, hn', hcn⟩ := condTrueInit_some h
  obtain rfl : n = n' := some.inj (hn.symm.trans hn')
  rw [condTrueInit_eq hn hcn, some.injEq] at h
  subst h
  obtain ⟨hnm, hna⟩ := (hw _ k).set?_eq_some.mp hn
  generalize write n.uiCondTrue c.iCondIndex b = x
  have hnw : (n.setCondTrue x).Wf := by
    obtain ⟨h₁, h₂, h₃, h₄, h₅⟩ := (hw _ k).sets n hnm
    exact ⟨h₁, h₂, h₃, h₄, h₅⟩
  have hmem : n.setCondTrue x ∈ ((s.modifySet p (.setCondTrue x)).list p.acLogic k).stList := by
    rw [list_modifySet_self]
    exact CondList.mem_modifySet.mpr (.inl ⟨n, hnm, hna, rfl⟩)
  have htruth : p.acLogic.wordTrue x n.ucCondCount = (n.setCondTrue x).truth p.acLogic :=
    hnw.wordTrue_eq _
  rw [htruth]
  have hoff := hc.modifySet (f := .setCondTrue x) hw hn fun _ => rfl
  exact condSetTrueInit_consistent
    (wf_of_eraseTruth_eq (eraseTruth_modifySet s p _ fun _ => rfl) hw) hmem
    hoff

theorem SceneInfo.ConsistentOff.of_condSetTrueInit {l : Logic} {i : Nat} {b : Bool} (hi : i < 32)
    (hc : (condSetTrueInit s l k i b).ConsistentOff l k i) : s.ConsistentOff l k i := by
  refine ⟨?_, ?_⟩
  · intro l' k' m hm hne
    have hm' : m ∈ ((condSetTrueInit s l k i b).list l' k').stList := by
      by_cases h : l' = l ∧ k' = k
      · obtain ⟨rfl, rfl⟩ := h
        rw [list_condSetTrueInit_self]; exact hm
      · rw [list_condSetTrueInit_of_ne s _ _ h]; exact hm
    rw [← hc.set l' k' m hm' hne]
    by_cases h : l' = l ∧ k' = k
    · obtain ⟨rfl, rfl⟩ := h
      rw [list_condSetTrueInit_self]
      exact (getLsbD_write_of_ne _ hi _ (hne ⟨rfl, rfl⟩)).symm
    · rw [list_condSetTrueInit_of_ne s _ _ h]
  · intro l' k' h
    have := hc.list l' k' h
    rwa [listTrue_condSetTrueInit_of_ne s _ _ h, list_condSetTrueInit_of_ne s _ _ h] at this

theorem SceneInfo.ConsistentOff.of_modifySet {f : CondSetNode k → CondSetNode k} (hw : s.Wf)
    (hn : s.set? p = some n) (hc : (s.modifySet p f).ConsistentOff p.acLogic k n.iCondSetIndex) :
    s.ConsistentOff p.acLogic k n.iCondSetIndex := by
  obtain ⟨hnm, hna⟩ := (hw _ k).set?_eq_some.mp hn
  refine ⟨?_, ?_⟩
  · intro l' k' m hm hne
    by_cases h : l' = p.acLogic ∧ k' = k
    · obtain ⟨rfl, rfl⟩ := h
      have ha : m.addr ≠ p.pCondSetNode := by
        intro ha
        obtain rfl := Keyed.eq_of_key_eq (hw _ k').addr hm hnm (ha.trans hna.symm)
        exact hne ⟨rfl, rfl⟩ rfl
      have := hc.set p.acLogic k' m
      rw [list_modifySet_self] at this
      exact this (CondList.mem_modifySet.mpr (.inr ⟨hm, ha⟩)) hne
    · have := hc.set l' k' m
      rw [list_modifySet_of_ne _ _ _ h] at this
      exact this hm hne
  · intro l' k' h
    have := hc.list l' k' h
    rwa [listTrue_modifySet, list_modifySet_of_ne _ _ _ h] at this

theorem condTrueInit_consistent_iff {s' : SceneInfo} {b : Bool} (hw : s.Wf)
    (hn : s.set? p = some n) (h : condTrueInit s p b = some s') :
    s'.Consistent ↔ s.ConsistentOff p.acLogic k n.iCondSetIndex := by
  constructor
  · intro hc
    obtain ⟨n', c, hn', hcn⟩ := condTrueInit_some h
    obtain rfl : n = n' := some.inj (hn.symm.trans hn')
    rw [condTrueInit_eq hn hcn, some.injEq] at h
    subst h
    have hi := (hw _ k).index_lt_32 ((hw _ k).set?_eq_some.mp hn).1
    exact ((hc.off _ _ _).of_condSetTrueInit hi).of_modifySet hw hn
  · intro hc
    exact condTrueInit_consistent hw hn hc h

end CondInit

/-! ## Nothing to recompute above a level that did not change -/

namespace SceneInfo

variable {s : SceneInfo} {l : Logic} {k : Kind} {b : Bool}

theorem setList_list_self (s : SceneInfo) (l : Logic) (k : Kind) :
    s.setList l k (s.list l k) = s := by
  cases l <;> cases k <;> rfl

theorem modifyCond_id (s : SceneInfo) (p : CondPtr k) : s.modifyCond p id = s := by
  have hnode : ∀ n : CondSetNode k, n.modifyNode p.pCondNode id = n := by
    intro n
    simp [CondSetNode.modifyNode]
  rw [modifyCond, modifySet, CondList.modifySet,
    Keyed.map_write_eq_self fun n _ _ => hnode n]
  exact s.setList_list_self _ _

theorem writeCondSetTrue_eq_self {i : Nat} (hi : i < 32)
    (h : (s.list l k).uiCondSetTrue.getLsbD i = b) : s.writeCondSetTrue l k i b = s := by
  rw [writeCondSetTrue, write_eq_self _ hi h]
  exact s.setList_list_self l k

theorem setListTrue_eq_self (h : s.listTrue l k = b) : s.setListTrue l k b = s := by
  rw [setListTrue, write_eq_self _ k.listBit_lt h]
  cases l <;> rfl

end SceneInfo

/-- Above the sets, the short cuts skip nothing when the list bit and the scene
hold the truth of the level below. -/
theorem condSetTrueUpdate_eq_init {s : SceneInfo} {l : Logic} {k : Kind} {i : Nat} (b : Bool)
    (hw : s.Wf) (hi : i < 32) (hlist : s.listTrue l k = (s.list l k).truth)
    (hscene : s.ucSceneCondTrue = s.sceneTruth) :
    condSetTrueUpdate s l k i b = condSetTrueInit s l k i b := by
  have hw' : (s.writeCondSetTrue l k i b).Wf :=
    wf_of_eraseTruth_eq (s.eraseTruth_writeCondSetTrue l k i b) hw
  unfold condSetTrueUpdate condSetTrueInit
  simp only [test_eq _ hi, test_eq _ k.listBit_lt]
  by_cases hset : b = (s.list l k).uiCondSetTrue.getLsbD i
  · rw [if_neg (by simpa using hset), writeCondSetTrue_eq_self hi hset.symm,
      hw.newCondListTrue_eq, setListTrue_eq_self hlist, hw.newSceneTrue_eq, ← hscene]
  · rw [if_pos hset]
    by_cases hl : (s.writeCondSetTrue l k i b).newCondListTrue l k =
        ((s.writeCondSetTrue l k i b).logic l).ucCondListTrue.getLsbD k.listBit
    · rw [if_neg (not_not.mpr hl), setListTrue_eq_self hl.symm, hw'.newSceneTrue_eq]
      have hsame : (s.writeCondSetTrue l k i b).sceneTruth =
          (s.writeCondSetTrue l k i b).ucSceneCondTrue := by
        rw [writeCondSetTrue, sceneTruth_setList (by rfl), ← hscene,
          ucSceneCondTrue_setList]
      rw [hsame]
    · rw [if_pos hl]
      split
      · rfl
      · rename_i hs
        rw [not_not.mp hs]

section Update

variable {s : SceneInfo} {k : Kind} {p : CondPtr k} {n : CondSetNode k} {c : CondNode k}

theorem condTrueInit_eq_self (hw : s.Wf) (hcs : s.Consistent) {l : Logic}
    (hp : p ∈ s.ptrs l k) : condTrueInit s p (s.condTrue p) = some s := by
  obtain ⟨-, n, c, hn, hc⟩ := (mem_ptrs_iff hw).mp hp
  obtain ⟨hnm, hna⟩ := (hw _ k).set?_eq_some.mp hn
  have hnw := (hw _ k).sets n hnm
  have hcm := (hnw.node?_eq_some.mp hc).1
  rw [condTrueInit_eq hn hc, condTrue_eq hn hc,
    write_eq_self _ (hnw.index_lt_32 hcm) rfl, hnw.wordTrue_eq]
  have hmod : s.modifySet p (.setCondTrue n.uiCondTrue) = s := by
    rw [modifySet, CondList.modifySet, Keyed.map_write_eq_self]
    · exact s.setList_list_self _ _
    · intro m hm ha
      obtain rfl := Keyed.eq_of_key_eq (hw _ k).addr hm hnm (ha.trans hna.symm)
      rfl
  rw [hmod, ← condSetTrueUpdate_eq_init _ hw ((hw _ k).index_lt_32 hnm) (hcs.list _ _) hcs.scene,
    condSetTrueUpdate, test_eq _ ((hw _ k).index_lt_32 hnm), ← hcs.set _ k n hnm]
  simp [CondList.setTrue]

/-- On a consistent scene the update with short cuts is the recomputation
without them; it also returns the truth the condition had. -/
theorem condTrueUpdate_eq_init (hw : s.Wf) (hcs : s.Consistent) {l : Logic}
    (hp : p ∈ s.ptrs l k) (b : Bool) :
    condTrueUpdate s p b = (condTrueInit s p b).map fun s' => (s', s.condTrue p) := by
  obtain ⟨-, n, c, hn, hc⟩ := (mem_ptrs_iff hw).mp hp
  obtain ⟨hnm, hna⟩ := (hw _ k).set?_eq_some.mp hn
  have hnw := (hw _ k).sets n hnm
  have hi := hnw.index_lt_32 (hnw.node?_eq_some.mp hc).1
  have hold := condTrue_eq hn hc
  by_cases hb : b = s.condTrue p
  · rw [hb, condTrueInit_eq_self hw hcs hp]
    simp [condTrueUpdate, hn, hc, test_eq _ hi, hold]
  · rw [condTrueInit_eq hn hc]
    have hne : b ≠ n.uiCondTrue.getLsbD c.iCondIndex := by rwa [← hold]
    simp only [condTrueUpdate, hn, hc, test_eq _ hi, bind_eq_bind, bind_some,
      if_pos hne, pure_def, map_some, hold]
    have hwm : (s.modifySet p
        (.setCondTrue (write n.uiCondTrue c.iCondIndex b))).Wf :=
      wf_of_eraseTruth_eq (eraseTruth_modifySet s p _ fun _ => rfl) hw
    rw [condSetTrueUpdate_eq_init _ hwm ((hw _ k).index_lt_32 hnm)]
    · rw [listTrue_modifySet, hcs.list]
      exact (truth_modifySet s p (.setCondTrue _) fun _ => rfl).symm
    · rw [ucSceneCondTrue_modifySet, hcs.scene]
      exact (sceneTruth_modifySet s p _).symm

theorem condSetTrueInit_condSetTrueInit (s : SceneInfo) (p : CondPtr k) (x y : BitVec 32)
    {i : Nat} (hi : i < 32) (b b' : Bool) :
    condSetTrueInit
        ((condSetTrueInit (s.modifySet p (.setCondTrue x)) p.acLogic k i b).modifySet p
          (.setCondTrue y))
        p.acLogic k i b' =
      condSetTrueInit (s.modifySet p (.setCondTrue y)) p.acLogic k i b' := by
  have hmap : ∀ xs : List (CondSetNode k),
      ((xs.map fun n => if n.addr = p.pCondSetNode then n.setCondTrue x else n).map
        fun n => if n.addr = p.pCondSetNode then n.setCondTrue y else n) =
      xs.map fun n => if n.addr = p.pCondSetNode then n.setCondTrue y else n := by
    intro xs
    rw [List.map_map]
    apply List.map_congr_left
    intro n _
    by_cases h : n.addr = p.pCondSetNode <;> simp [h, CondSetNode.setCondTrue]
  obtain ⟨l, a, c⟩ := p
  simp only at hmap
  cases l <;> cases k <;>
    simp only [condSetTrueInit, modifySet, writeCondSetTrue,
      setListTrue, setList, setLogic, logic,
      list, CondLogic.list, CondLogic.setList, CondList.modifySet, hmap,
      newCondListTrue, newSceneTrue, write_write _ hi,
      write_write _ (Kind.listBit_lt _), CondList.size] <;>
    rfl

theorem condTrueInit_condTrueInit {s' : SceneInfo} {b : Bool} (hw : s.Wf)
    (h : condTrueInit s p b = some s') (b' : Bool) :
    condTrueInit s' p b' = condTrueInit s p b' := by
  obtain ⟨n, c, hn, hc⟩ := condTrueInit_some h
  obtain ⟨hnm, hna⟩ := (hw _ k).set?_eq_some.mp hn
  have hnw := (hw _ k).sets n hnm
  have hi := hnw.index_lt_32 (hnw.node?_eq_some.mp hc).1
  have hj := (hw _ k).index_lt_32 hnm
  rw [condTrueInit_eq hn hc, some.injEq] at h
  subst h
  have hn' : (condSetTrueInit
    (s.modifySet p (.setCondTrue (write n.uiCondTrue c.iCondIndex b)))
      p.acLogic k n.iCondSetIndex
      (p.acLogic.wordTrue (write n.uiCondTrue c.iCondIndex b) n.ucCondCount)).set? p =
      some (n.setCondTrue (write n.uiCondTrue c.iCondIndex b)) := by
    rw [set?_condSetTrueInit, set?_modifySet s p (.setCondTrue _) (fun _ => rfl) rfl, hn]
    simp
  have hc' : (n.setCondTrue (write n.uiCondTrue c.iCondIndex b)).node? p.pCondNode =
      some c := hc
  rw [condTrueInit_eq hn' hc', condTrueInit_eq hn hc]
  simp only [CondSetNode.setCondTrue, write_write _ hi]
  exact congrArg some (condSetTrueInit_condSetTrueInit s p _ _ hj _ _)

end Update

end Honyar.LocalScene
