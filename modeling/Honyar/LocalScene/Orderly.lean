import Honyar.LocalScene.Manual
import Mathlib.Algebra.BigOperators.Group.List.Basic

/-!
# Scenes stay orderly

A scene is `Orderly` when its four lists are well formed and no condition of its
`Or` event list stands for the manual trigger, which an addition turns into the
flag.  Every step keeps that, but for a deletion through the list of the other
logic: it counts down a list it takes nothing from.
-/

namespace Honyar.LocalScene

open Option

variable {l : Logic} {k : Kind}

/-! ## Scenes -/

/-- The lists are well formed, and no condition in them stands for the manual
trigger. -/
structure SceneInfo.Orderly (s : SceneInfo) : Prop where
  wf : s.Wf
  manual : ∀ l k, ∀ q ∈ (s.list l k).entries, q.2.isManual l = false

namespace SceneInfo

variable {s s' : SceneInfo}

theorem Orderly.of_eraseTruth_eq (hs : s.Orderly) (h : s'.eraseTruth = s.eraseTruth) :
    s'.Orderly where
  wf := wf_of_eraseTruth_eq h hs.wf
  manual l k := by
    rw [(entries_of_eraseTruth_eq h).1]
    exact hs.manual l k

theorem Orderly.of_list_eq (hs : s.Orderly) (h : ∀ l k, s'.list l k = s.list l k) :
    s'.Orderly where
  wf l k := h l k ▸ hs.wf l k
  manual l k := h l k ▸ hs.manual l k

theorem Orderly.setList (hs : s.Orderly) {y : CondList l k} (hy : y.Wf)
    (hmanual : ∀ q ∈ y.entries, q.2.isManual l = false) : (s.setList l k y).Orderly where
  wf := hs.wf.setList hy
  manual l' k' := by
    by_cases h : l' = l ∧ k' = k
    · obtain ⟨rfl, rfl⟩ := h
      rw [list_setList_self]
      exact hmanual
    · rw [list_setList_of_ne _ _ h]
      exact hs.manual l' k'

theorem Orderly.modifyCond (hs : s.Orderly) {p : CondPtr k} {f : Cond k → Cond k}
    (hf : ∀ l c, (f c).isManual l = c.isManual l) : (s.modifyCond p f).Orderly where
  wf := hs.wf.modifyCond
  manual l' k' := by
    by_cases hk : k' = k
    · subst hk
      rw [(entries_modifyCond s p f).1]
      intro q hq
      obtain ⟨q', hq', rfl⟩ := List.mem_map.mp hq
      have hold := hs.manual l' k' q' hq'
      split
      · rw [hf, hold]
      · exact hold
    · rw [SceneInfo.modifyCond, list_modifySet_of_ne _ _ _ fun h => hk h.2]
      exact hs.manual l' k'

theorem Orderly.new (i : SceneText) : (SceneInfo.new i).Orderly := by
  have hnew : ∀ l k, (SceneInfo.new i).list l k = .new l k := by
    intro l k
    cases l <;> cases k <;> rfl
  refine ⟨fun l k => ?_, fun l k q hq => ?_⟩
  · rw [hnew]
    exact ⟨rfl, rfl, Nat.zero_le _, rfl, List.nodup_nil, by simp [CondList.new]⟩
  · rw [hnew] at hq
    cases hq

end SceneInfo

theorem Cond.isManual_set (c d : Cond k) : (d.set c).isManual l = d.isManual l := by
  cases k <;> rfl

theorem CondList.Wf.of_empty {y : CondList l k} (hnil : y.stList = []) (hnum : y.iNodeNum = 0)
    (hcount : y.iCount = 0) : y.Wf := by
  refine ⟨?_, ?_, ?_, ?_, ?_, ?_⟩ <;> simp [hnil, hnum, hcount]

/-! ## The list of scenes -/

/-- Every scene is orderly. -/
def SceneList.Orderly (x : SceneList) : Prop := ∀ n ∈ x.stList, n.stSceneInfo.Orderly

namespace SceneList

variable {x x' : SceneList} {a : Nat} {s s' : SceneInfo}

theorem Orderly.scene (hx : x.Orderly) (hs : x.scene? a = some s) : s.Orderly :=
  hx _ (mem_of_scene? hs)

theorem Orderly.setScene (hx : x.Orderly) (hs : s.Orderly) (a : Nat) :
    (x.setScene a s).Orderly := by
  intro n hn
  rcases Keyed.mem_write_iff.mp hn with ⟨m, -, -, rfl⟩ | ⟨hn, -⟩
  · exact hs
  · exact hx n hn

theorem Orderly.of_sublist (hx : x.Orderly) (h : x'.stList.Sublist x.stList) : x'.Orderly :=
  fun n hn => hx n (h.subset hn)

end SceneList

/-! ## Events, checks and timers -/

section

variable {x x' : SceneList} {y y' : Engine} {os : List Effect}

theorem SceneInfo.Orderly.marked {s s' : SceneInfo} (hs : s.Orderly) (h : s.Marked s') :
    s'.Orderly := by
  induction h with
  | truth h => exact hs.of_eraseTruth_eq h
  | cond s p f hkey hmanual => exact hs.modifyCond hmanual
  | trans _ _ ih ih' => exact ih' (ih hs)

theorem SceneList.Orderly.marked (hx : x.Orderly) (h : x.Marked x') : x'.Orderly := by
  induction h with
  | refl => exact hx
  | scene _ hs hm ih => exact ih.setScene ((ih.scene hs).marked hm) _
  | other _ hlist _ _ ih =>
    rw [SceneList.Orderly, hlist]
    exact ih

/-! ## Requests -/

variable {a : Nat} {s s' : SceneInfo} {r : ErrNo}

theorem fileCond_orderly {c : Cond k} {e : PtrNode} (hind : Indexed x) (hx : x.Orderly)
    (hm : c.isManual l = false) (h : fileCond x a l c = some (x', r, e)) : x'.Orderly := by
  cases hs : x.scene? a with
  | none =>
    rw [fileCond, hs] at h
    cases h
  | some s =>
    have hplaced := hind.placed _ (SceneList.mem_of_scene? hs)
    rcases fileCond_cases hs h with ⟨p, t, d, -, -, ht, -, -, rfl⟩ | ⟨z, p, -, hadd, -, -, rfl⟩ |
      ⟨-, -, -, -, rfl⟩
    · exact hx.setScene ((hx.scene ht).modifyCond fun _ d => Cond.isManual_set c d) _
    · have hs' := hx.scene hs
      refine hx.setScene (hs'.setList
        (CondList.condAdd_wf (hs'.wf l k) (hplaced l k).below hadd) fun q hq => ?_) _
      have hperm := (CondList.condAdd_entries (hplaced l k) hadd).1
      rcases List.mem_cons.mp (hperm.mem_iff.mp hq) with rfl | hq
      · exact hm
      · exact hs'.manual l k q hq
    · exact hx

theorem sceneCondAdd_orderly {c : Cond k} (hind : Indexed x) (hx : x.Orderly)
    (h : sceneCondAdd x a l c = some (x', r)) : x'.Orderly := by
  rcases sceneCondAdd_cases h with ⟨-, s, hs, rfl⟩ | ⟨hm, x₁, e, hfile, hrest⟩
  · exact hx.setScene ((hx.scene hs).of_list_eq fun l k => s.list_setManual true l k) _
  · have hx₁ := fileCond_orderly hind hx hm hfile
    rcases hrest with ⟨-, rfl⟩ | ⟨-, ⟨b, htrue⟩ | ⟨s₁, hs₁, rfl⟩⟩
    · exact hx₁
    · simp only [SceneList.condTrueInit, bind_eq_bind, bind_eq_some_iff,
        pure_def, some.injEq] at htrue
      obtain ⟨p, -, s, hs, s', hs', rfl⟩ := htrue
      exact hx₁.setScene ((hx₁.scene hs).of_eraseTruth_eq (condTrueInit_eraseTruth hs')) _
    · exact hx₁.setScene ((hx₁.scene hs₁).of_eraseTruth_eq
        (SceneInfo.eraseTruth_setListTrue ..)) _

theorem CondList.Wf.iCount_eq {y : CondList l k} (hy : y.Wf) : y.iCount = y.entries.length := by
  rw [hy.count, entries, List.length_flatMap]
  simp only [List.length_map]

theorem CondList.Wf.length_le_iCount {y : CondList l k} (hy : y.Wf) :
    y.stList.length ≤ y.iCount := by
  rw [hy.count]
  have hle := List.length_le_sum_of_one_le (y.stList.map fun n => n.pstCond.length) (by
    intro i hi
    obtain ⟨n, hn, rfl⟩ := List.mem_map.mp hi
    exact (hy.sets n hn).pos)
  rw [List.length_map] at hle
  exact_mod_cast hle

theorem CondList.Wf.stList_eq_of_one {y : CondList l k} (hy : y.Wf) {n : CondSetNode k}
    (hn : n ∈ y.stList) (hone : y.iCount = 1) : y.stList = [n] := by
  have hle := hy.length_le_iCount
  obtain ⟨m, hm⟩ := List.length_eq_one_iff.mp
    (le_antisymm (by omega) (List.length_pos_of_mem hn))
  rw [hm, List.mem_singleton] at hn
  rw [hm, hn]

theorem CondList.Wf.withoutSet_of_one {y : CondList l k} (hy : y.Wf) {n : CondSetNode k}
    (hn : n ∈ y.stList) (hone : y.iCount = 1) :
    (y.withoutSet n.addr).stList = [] ∧ (y.withoutSet n.addr).iNodeNum = 0 ∧
      (y.withoutSet n.addr).iCount = 0 := by
  have hsingle := hy.stList_eq_of_one hn hone
  have hnum : y.iNodeNum - 1 = 0 := by
    rw [hy.size, hsingle]
    rfl
  have hcount : y.iCount - 1 = 0 := by omega
  rw [withoutSet, updateIndex, if_pos hnum]
  refine ⟨?_, hnum, hcount⟩
  show y.stList.filter _ = []
  simp [hsingle]

/-- A deletion through the list of the condition: it goes out of a set that has
others, or it was the only one of its list. -/
theorem SceneInfo.Orderly.condDel {p : CondPtr k} {bit : Kind} {s₁ : SceneInfo} {heap : Nat}
    (hs : s.Orderly) (hplaced : s.Placed heap) (h : s.condDel p.acLogic p = some s₁)
    (htrue : condDelTrue s₁ p.acLogic bit p = some s') : s'.Orderly := by
  refine Orderly.of_eraseTruth_eq ?_ (condDelTrue_eraseTruth htrue)
  obtain ⟨hentries, hothers⟩ := condDel_entries hplaced h
  refine ⟨?_, fun l' k' => ?_⟩
  · obtain ⟨n, c, hn, hc, ⟨hone, heq⟩ | ⟨hone, rfl⟩⟩ := condDel_cases h
    · obtain ⟨hgone, hcount⟩ := set?_condDel_last hn hc hone h
      have hzero : 0 = (s₁.list p.acLogic k).iCount := by
        by_contra hne
        rw [condDelTrue, if_neg hne, hgone] at htrue
        cases htrue
      obtain rfl := heq
      obtain ⟨hnil, hnum, hcount⟩ := (hs.wf _ k).withoutSet_of_one
        ((hs.wf _ k).set?_eq_some.mp hn).1 (by omega)
      exact hs.wf.setList (.of_empty hnil hnum hcount)
    · exact hs.wf.setList (without_wf hs.wf hn hc hone)
  · by_cases hl : l' = p.acLogic ∧ k' = k
    · obtain ⟨rfl, rfl⟩ := hl
      rw [hentries]
      exact fun q hq => hs.manual _ _ q (List.mem_of_mem_filter hq)
    · rw [hothers l' k' hl]
      exact hs.manual l' k'

/-- The condition that is filed under the text is deleted through its own list. -/
def CondDelOwn (x : SceneList) (s : SceneInfo) (l : Logic) (k : Kind) (key : CText) : Prop :=
  ∀ e ∈ ptrHashFind x.pHashTable key s.acSceneId, ∀ p ∈ e.condPtr? k, p.acLogic = l

instance (x : SceneList) (s : SceneInfo) (l : Logic) (k : Kind) (key : CText) :
    Decidable (CondDelOwn x s l k key) :=
  inferInstanceAs (Decidable (∀ e ∈ ptrHashFind x.pHashTable key s.acSceneId,
    ∀ p ∈ e.condPtr? k, p.acLogic = l))

theorem CondDelOwn.aimed {key : CText} (h : CondDelOwn x s l k key) : CondDelAimed x s l k key :=
  fun e he p hp => .inl (h e he p hp)

theorem sceneCondDel_orderly {c : Cond k} (hind : Indexed x) (hx : x.Orderly)
    (hs : x.scene? a = some s) (hown : c.isManual l = false → CondDelOwn x s l k c.hashKey)
    (h : sceneCondDel x a l c = some (x', r)) : x'.Orderly := by
  rcases sceneCondDel_cases h with ⟨-, s, hs, rfl⟩ | ⟨hm, hdel⟩
  · exact hx.setScene ((hx.scene hs).of_list_eq fun l k => s.list_setManual false l k) _
  · obtain ⟨-, -, rfl⟩ | ⟨e, p, s₁, s', hfind, hp, -, hcut, htrue, -, rfl⟩ :=
      condDel_eq_some hs hdel
    · exact hx
    · obtain rfl := hown hm e hfind p hp
      exact hx.setScene ((hx.scene hs).condDel
        (hind.placed _ (SceneList.mem_of_scene? hs)) hcut htrue) _

theorem condClear_orderly (hx : x.Orderly) (h : sceneCondClear x a l k = some x') :
    x'.Orderly := by
  obtain ⟨s, hs, hlist⟩ := sceneCondClear_eq h
  have hs' := hx.scene hs
  have hcounted : (s.list l k).Counted := (hs'.wf l k).size
  obtain ⟨hnil, hnum⟩ := hcounted.clear
  rw [SceneList.Orderly, hlist]
  refine hx.setScene (hs'.setList (.of_empty (y := { (s.list l k).clear with
    iCount := 0, uiCondSetTrue := 0 }) hnil hnum rfl) fun q hq => ?_) a
  rw [CondList.entries, hnil] at hq
  cases hq

/-! ## Panels and scenes -/

theorem SceneInfo.Orderly.setPanel (hs : s.Orderly) (ns : List ScenePanelNode) :
    ({ s with pstPanel := ns } : SceneInfo).Orderly :=
  hs.of_list_eq fun l k => s.list_setPanel ns l k

theorem sceneBind_orderly {i : ScenePanel} (hx : x.Orderly) (h : sceneBind x a i = some x') :
    x'.Orderly := by
  obtain ⟨s, hs, ⟨e, n, t, -, -, ht, rfl⟩ | ⟨-, rfl⟩⟩ := sceneBind_eq_some h
  · exact hx.setScene ((hx.scene ht).setPanel _) _
  · exact hx.setScene ((hx.scene hs).setPanel _) _

theorem sceneUnbind_orderly {i : ScenePanel} (hx : x.Orderly)
    (h : sceneUnbind x a i = some (x', r)) : x'.Orderly := by
  obtain ⟨s, hs, ⟨e, n, -, -, -, rfl⟩ | rfl⟩ := sceneUnbind_eq_some h
  · exact hx.setScene ((hx.scene hs).setPanel _) _
  · exact hx

theorem sceneBindClear_orderly (hx : x.Orderly) (h : sceneBindClear x a = some x') :
    x'.Orderly := by
  obtain ⟨s, -, h⟩ := bind_eq_some_iff.mp h
  obtain rfl := some.inj h
  exact hx

theorem hySceneAdd_orderly {i : SceneText} (hx : x.Orderly) : (hySceneAdd x i).Orderly := by
  rw [hySceneAdd]
  split
  · rw [sceneListSet]
    split
    · exact hx
    · intro n hn
      rcases Keyed.mem_write_iff.mp hn with ⟨m, hm, -, rfl⟩ | ⟨hn, -⟩
      · exact (hx m hm).of_list_eq fun l k => by cases l <;> cases k <;> rfl
      · exact hx n hn
  · intro n hn
    rcases List.mem_cons.mp hn with rfl | hn
    · exact .new i
    · exact hx n hn

theorem sceneListDel_orderly {i : CText} (hx : x.Orderly)
    (h : sceneListDel x i = some (x', r)) : x'.Orderly := by
  obtain rfl | ⟨a, x₁, x₂, x₃, x₄, s, -, h₁, h₂, h₃, h₄, -, rfl⟩ := sceneListDel_eq_some h
  · exact hx
  · have hx₁ := condClear_orderly (l := .or) (k := .time) hx h₁
    have hx₂ := condClear_orderly (l := .or) (k := .event) hx₁ h₂
    have hx₃ := condClear_orderly (l := .and) (k := .time) hx₂ h₃
    have hx₄ := condClear_orderly (l := .and) (k := .event) hx₃ h₄
    exact hx₄.of_sublist List.filter_sublist

end

/-! ## Steps -/

/-- The step keeps the index and the lists: it keeps the index, and a condition
is deleted through its own list. -/
def IndexAct.Orderly (y : Engine) (act : IndexAct) : Prop :=
  act.Safe y ∧
    match act with
    | .act (.condDel i l k c) => ∀ a ∈ sceneListGet y.list i, ∀ s ∈ y.list.scene? a,
        c.isManual l = false → CondDelOwn y.list s l k c.hashKey
    | _ => True

instance (y : Engine) : (act : IndexAct) → Decidable (act.Orderly y)
  | .act (.condDel i l k c) => inferInstanceAs (Decidable (IndexAct.Safe y _ ∧
      ∀ a ∈ sceneListGet y.list i, ∀ s ∈ y.list.scene? a,
        c.isManual l = false → CondDelOwn y.list s l k c.hashKey))
  | .bindClear _ | .act (.sceneAdd _) | .act (.sceneDel _) | .act (.condAdd _ _ _ _)
  | .act (.condClear _ _ _) | .act (.bind _ _) | .act (.unbind _ _) | .act (.event _ _)
  | .act (.timeTrueAll _ _) | .act (.timeout _ _) | .act (.execQueue _) =>
    inferInstanceAs (Decidable (IndexAct.Safe y _ ∧ True))

section

variable {y y' : Engine} {os : List Effect}

theorem Requested.orderly {act : Act} {x' : SceneList} (hind : Indexed y.list)
    (hy : y.list.Orderly) (hsafe : (IndexAct.act act).Orderly y) (h : Requested y.list act x') :
    x'.Orderly := by
  cases h with
  | absent => exact hy
  | sceneAdd i => exact hySceneAdd_orderly hy
  | sceneDel h => exact sceneListDel_orderly hy h
  | condAdd _ _ h => exact sceneCondAdd_orderly hind hy h
  | condDel hget hs h => exact sceneCondDel_orderly hind hy hs (hsafe.2 _ hget _ hs) h
  | condClear _ _ h => exact condClear_orderly hy h
  | bind h => exact sceneBind_orderly hy h
  | unbind h => exact sceneUnbind_orderly hy h

theorem indexStep_orderly {act : IndexAct} (hind : Indexed y.list) (hy : y.list.Orderly)
    (hsafe : act.Orderly y) (h : y.indexStep act = some (y', os)) : y'.list.Orderly := by
  cases act with
  | bindClear i =>
    rcases request_cases hind h with hsame | ⟨a, s, -, -, hclear⟩
    · exact hsame ▸ hy
    · exact sceneBindClear_orderly hy hclear
  | act act =>
    rw [Engine.indexStep] at h
    cases hact : act.isRequest with
    | true => exact (step_requested hind hact h).orderly hind hy hsafe
    | false => exact hy.marked (step_marked hind hact h)

end

end Honyar.LocalScene
