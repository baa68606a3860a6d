import Honyar.LocalScene.Consistency

/-!
# Writing through a pointer

What a write to one set (`modifySet`) or to the record of one condition
(`modifyCond`) is seen as, through every pointer and by every truth word.  A
record is not looked at by the words: writing to it keeps well-formedness,
consistency, the pointers and what they read.
-/

namespace Honyar.LocalScene

open Option CondSetNode CondList

namespace SceneInfo

theorem sceneTruth_setList {s : SceneInfo} {l : Logic} {k : Kind} {x : CondList l k}
    (h : x.stList.isEmpty = (s.list l k).stList.isEmpty) :
    (s.setList l k x).sceneTruth = s.sceneTruth := by
  have hempty : ∀ l', (s.setList l k x).logicEmpty l' = s.logicEmpty l' := by
    intro l'
    cases l <;> cases k <;> cases l' <;> simp only [logicEmpty] <;>
      first
      | rfl
      | exact congrArg (· && _) h
      | exact congrArg (_ && ·) h
  simp only [sceneTruth, hempty, listTrue_setList]

variable {k : Kind} (s : SceneInfo) (p : CondPtr k) (f : CondSetNode k → CondSetNode k)

@[simp] theorem list_modifySet_self :
    (s.modifySet p f).list p.acLogic k = (s.list p.acLogic k).modifySet p.pCondSetNode f :=
  list_setList_self ..

theorem list_modifySet_of_ne {l' : Logic} {k' : Kind} (h : ¬ (l' = p.acLogic ∧ k' = k)) :
    (s.modifySet p f).list l' k' = s.list l' k' :=
  list_setList_of_ne _ _ h

@[simp] theorem listTrue_modifySet (l' : Logic) (k' : Kind) :
    (s.modifySet p f).listTrue l' k' = s.listTrue l' k' :=
  listTrue_setList ..

@[simp] theorem ucSceneCondTrue_modifySet :
    (s.modifySet p f).ucSceneCondTrue = s.ucSceneCondTrue :=
  ucSceneCondTrue_setList ..

@[simp] theorem iCount_modifySet (l' : Logic) (k' : Kind) :
    ((s.modifySet p f).list l' k').iCount = (s.list l' k').iCount := by
  by_cases h : l' = p.acLogic ∧ k' = k
  · obtain ⟨rfl, rfl⟩ := h
    rw [list_modifySet_self]
    rfl
  · rw [list_modifySet_of_ne _ _ _ h]

theorem set?_modifySet_of_ne {k' : Kind} {q : CondPtr k'}
    (h : ¬ (q.acLogic = p.acLogic ∧ k' = k)) : (s.modifySet p f).set? q = s.set? q := by
  rw [set?, set?, list_modifySet_of_ne _ _ _ h]

theorem sceneTruth_modifySet : (s.modifySet p f).sceneTruth = s.sceneTruth :=
  sceneTruth_setList (by simp [CondList.modifySet])

theorem truth_modifySet (hf : ∀ n, (f n).iCondSetIndex = n.iCondSetIndex) :
    ((s.modifySet p f).list p.acLogic k).truth = (s.list p.acLogic k).truth := by
  rw [list_modifySet_self, CondList.truth, CondList.truth]
  congr 1
  refine CondList.map_modifySet (g := (s.list p.acLogic k).setTrue) (fun n => ?_) _ _
  rw [CondList.setTrue, CondList.setTrue, hf]

theorem set?_modifySet {q : CondPtr k} (hf : ∀ n, (f n).addr = n.addr)
    (hl : q.acLogic = p.acLogic) :
    (s.modifySet p f).set? q =
      (s.set? q).map fun n => if q.pCondSetNode = p.pCondSetNode then f n else n := by
  rw [set?, set?, hl, list_modifySet_self]
  exact Keyed.find?_map_write hf _ _ _

variable {s p f}

theorem Consistent.modifySet (hi : ∀ n, (f n).iCondSetIndex = n.iCondSetIndex)
    (ht : ∀ n l, (f n).truth l = n.truth l) (h : s.Consistent) :
    (s.modifySet p f).Consistent where
  set := by
    intro l' k' m hm
    by_cases hl : l' = p.acLogic ∧ k' = k
    · obtain ⟨rfl, rfl⟩ := hl
      rw [list_modifySet_self] at hm ⊢
      rcases mem_modifySet.mp hm with ⟨n, hn, -, rfl⟩ | ⟨hm, -⟩
      · rw [ht, ← h.set _ _ n hn, setTrue, hi]
        rfl
      · exact h.set _ _ m hm
    · rw [list_modifySet_of_ne _ _ _ hl] at hm ⊢
      exact h.set l' k' m hm
  list := by
    intro l' k'
    rw [listTrue_modifySet, h.list]
    by_cases hl : l' = p.acLogic ∧ k' = k
    · obtain ⟨rfl, rfl⟩ := hl
      exact (truth_modifySet s p f hi).symm
    · rw [list_modifySet_of_ne _ _ _ hl]
  scene := by rw [ucSceneCondTrue_modifySet, h.scene, sceneTruth_modifySet]

theorem Consistent.modifyCond {g : Cond k → Cond k} (h : s.Consistent) :
    (s.modifyCond p g).Consistent :=
  h.modifySet (fun _ => rfl) fun _ _ => rfl

theorem truthState_modifyCond (g : Cond k → Cond k) :
    (s.modifyCond p g).truthState = s.truthState := by
  have hwords : ∀ l' k', ((s.modifyCond p g).list l' k').stList.map uiCondTrue =
      (s.list l' k').stList.map uiCondTrue := by
    intro l' k'
    by_cases hl : l' = p.acLogic ∧ k' = k
    · obtain ⟨rfl, rfl⟩ := hl
      rw [SceneInfo.modifyCond, list_modifySet_self]
      exact map_modifySet (g := uiCondTrue)
        (f := fun n => n.modifyNode p.pCondNode g) (fun _ => rfl) _ _
    · rw [SceneInfo.modifyCond, list_modifySet_of_ne _ _ _ hl]
  have hsets : ∀ l' k', ((s.modifyCond p g).list l' k').uiCondSetTrue =
      (s.list l' k').uiCondSetTrue := by
    intro l' k'
    by_cases hl : l' = p.acLogic ∧ k' = k
    · obtain ⟨rfl, rfl⟩ := hl
      rw [SceneInfo.modifyCond, list_modifySet_self]
      rfl
    · rw [SceneInfo.modifyCond, list_modifySet_of_ne _ _ _ hl]
  have hlists : ∀ l', ((s.modifyCond p g).logic l').ucCondListTrue =
      (s.logic l').ucCondListTrue := by
    intro l'
    obtain ⟨l, a, c⟩ := p
    cases l <;> cases k <;> cases l' <;> rfl
  simp only [truthState, hwords, hsets, hlists]
  rw [SceneInfo.modifyCond, ucSceneCondTrue_modifySet]

end SceneInfo

/-! ## Records -/

section Record

variable {k : Kind} {s : SceneInfo} {p : CondPtr k} {g : Cond k → Cond k}

theorem CondSetNode.node?_modifyNode (n : CondSetNode k) (a b : Nat) :
    (n.modifyNode a g).node? b =
      (n.node? b).map fun c => if b = a then { c with stCond := g c.stCond } else c :=
  Keyed.find?_map_write (f := fun c : CondNode k => { c with stCond := g c.stCond })
    (fun _ => rfl) _ _ _

theorem CondSetNode.Wf.modifyNode {n : CondSetNode k} (h : n.Wf) (a : Nat) :
    (n.modifyNode a g).Wf := by
  have hmap : ∀ {β : Type} (f : CondNode k → β) (_ : ∀ c : CondNode k, ∀ d,
      f { c with stCond := d } = f c), (n.modifyNode a g).pstCond.map f = n.pstCond.map f := by
    intro β f hf
    rw [CondSetNode.modifyNode, List.map_map]
    apply List.map_congr_left
    intro c _
    simp only [Function.comp_apply]
    split
    · exact hf c _
    · rfl
  have hlen : (n.modifyNode a g).pstCond.length = n.pstCond.length := by
    simp [CondSetNode.modifyNode]
  refine ⟨?_, ?_, ?_, ?_, ?_⟩
  · rw [hlen, ← h.index]; exact hmap _ fun _ _ => rfl
  · rw [hlen, ← h.count]; rfl
  · rw [hlen]; exact h.pos
  · rw [hlen]; exact h.le
  · rw [hmap CondNode.addr fun _ _ => rfl]; exact h.addr

namespace SceneInfo

/-- A write that keeps every set well formed, where it is and how long it is
keeps the scene well formed. -/
theorem Wf.modifySet {f : CondSetNode k → CondSetNode k} (hw : s.Wf)
    (hi : ∀ n, (f n).iCondSetIndex = n.iCondSetIndex) (ha : ∀ n, (f n).addr = n.addr)
    (hl : ∀ n, (f n).pstCond.length = n.pstCond.length) (hf : ∀ n, n.Wf → (f n).Wf) :
    (s.modifySet p f).Wf := by
  intro l' k'
  by_cases h : l' = p.acLogic ∧ k' = k
  · obtain ⟨rfl, rfl⟩ := h
    rw [list_modifySet_self]
    have hx := hw p.acLogic k'
    have hlen : ((s.list p.acLogic k').modifySet p.pCondSetNode f).stList.length =
        (s.list p.acLogic k').stList.length := by simp [CondList.modifySet]
    refine ⟨?_, ?_, ?_, ?_, ?_, ?_⟩
    · rw [hlen, CondList.map_modifySet hi]; exact hx.index
    · rw [hlen]; exact hx.size
    · rw [hlen]; exact hx.le
    · rw [CondList.map_modifySet (g := fun n => n.pstCond.length) hl]; exact hx.count
    · rw [CondList.map_modifySet ha]; exact hx.addr
    · intro m hm
      rcases CondList.mem_modifySet.mp hm with ⟨n, hn, -, rfl⟩ | ⟨hm, -⟩
      · exact hf n (hx.sets n hn)
      · exact hx.sets m hm
  · rw [list_modifySet_of_ne _ _ _ h]
    exact hw l' k'

theorem Wf.modifyCond (hw : s.Wf) : (s.modifyCond p g).Wf :=
  hw.modifySet (fun _ => rfl) (fun _ => rfl) (fun _ => by simp [modifyNode])
    fun _ hn => hn.modifyNode _

theorem ptrs_modifyCond (l' : Logic) (k' : Kind) :
    (s.modifyCond p g).ptrs l' k' = s.ptrs l' k' := by
  by_cases h : l' = p.acLogic ∧ k' = k
  · obtain ⟨rfl, rfl⟩ := h
    have hnode : ∀ n : CondSetNode k',
        ((n.modifyNode p.pCondNode g).pstCond.map fun c : CondNode k' =>
          (⟨p.acLogic, n.addr, c.addr⟩ : CondPtr k')) =
        n.pstCond.map fun c => ⟨p.acLogic, n.addr, c.addr⟩ := by
      intro n
      rw [modifyNode, List.map_map]
      apply List.map_congr_left
      intro c _
      simp only [Function.comp_apply]
      split <;> rfl
    rw [ptrs, ptrs, modifyCond, list_modifySet_self, List.flatMap_def, List.flatMap_def]
    congr 1
    exact map_modifySet hnode _ _
  · rw [ptrs, ptrs, modifyCond, list_modifySet_of_ne _ _ _ h]

theorem node?_modifyCond_self :
    (s.modifyCond p g).node? p = (s.node? p).map fun c => { c with stCond := g c.stCond } := by
  rw [node?, node?, modifyCond,
    set?_modifySet s p (fun n => n.modifyNode p.pCondNode g) (fun _ => rfl) rfl]
  cases s.set? p with
  | none => rfl
  | some n =>
    simp only [map_some, if_true, bind_eq_bind, bind_some,
      node?_modifyNode]

theorem node?_modifyCond_of_ne {k' : Kind} {q : CondPtr k'} (h : (⟨k', q⟩ : AnyPtr) ≠ ⟨k, p⟩) :
    (s.modifyCond p g).node? q = s.node? q := by
  rw [node?, node?, modifyCond]
  by_cases hl : q.acLogic = p.acLogic ∧ k' = k
  · obtain ⟨hl, rfl⟩ := hl
    rw [set?_modifySet s p (fun n => n.modifyNode p.pCondNode g) (fun _ => rfl) hl]
    cases s.set? q with
    | none => rfl
    | some n =>
      simp only [map_some, bind_eq_bind, bind_some]
      split
      · rename_i ha
        have hq : q.pCondNode ≠ p.pCondNode := by
          intro hq
          apply h
          cases q; cases p
          simp_all
        simp only [node?_modifyNode, hq, if_false, map_id']
      · rfl
  · rw [set?_modifySet_of_ne _ _ _ hl]

theorem condTrue_modifyCond {k' : Kind} (q : CondPtr k') :
    (s.modifyCond p g).condTrue q = s.condTrue q := by
  rw [condTrue, condTrue, modifyCond]
  by_cases hl : q.acLogic = p.acLogic ∧ k' = k
  · obtain ⟨hl, rfl⟩ := hl
    rw [set?_modifySet s p (fun n => n.modifyNode p.pCondNode g) (fun _ => rfl) hl]
    cases s.set? q with
    | none => rfl
    | some n =>
      simp only [map_some, any_some]
      split
      · rw [CondSetNode.condTrue, CondSetNode.condTrue, CondSetNode.node?_modifyNode]
        cases n.node? q.pCondNode with
        | none => rfl
        | some c =>
          simp only [map_some, any_some]
          split <;> rfl
      · rfl
  · rw [set?_modifySet_of_ne _ _ _ hl]

end SceneInfo

end Record

end Honyar.LocalScene
