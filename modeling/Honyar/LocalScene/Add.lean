import Honyar.LocalScene.Chains
import Honyar.LocalScene.CondOps
import Honyar.LocalScene.Recompute

/-!
# When an addition keeps the truth words right

Adding a condition, or changing one, ends with a recomputation from that
condition upwards, which repairs its own set and list.  What it cannot repair is
the bits of the other sets, when these are numbered again, and nothing is
repaired where `scene_event_and_cond_add` does not recompute.  The result is the
exact condition under which an addition leaves a consistent scene, the other
conditions as they were, and the new one with its first truth.
-/

namespace Honyar.LocalScene

open Option SceneInfo Cond PtrNode
open List hiding map_id' pure_def

variable {l : Logic} {k : Kind}

/-! ## The scene list as a memory of scenes -/

namespace SceneList

theorem scene?_setScene_self {x : SceneList} {a : Nat} {s : SceneInfo} (h : x.scene? a = some s)
    (s' : SceneInfo) : (x.setScene a s').scene? a = some s' := by
  obtain ⟨n, hn, -⟩ := map_eq_some_iff.mp h
  rw [scene?, setScene,
    Keyed.find?_map_write (f := fun n : SceneNode => { n with stSceneInfo := s' }) (fun _ => rfl),
    hn]
  simp

theorem scene?_setScene_of_ne {x : SceneList} {a b : Nat} (h : b ≠ a) (s : SceneInfo) :
    (x.setScene a s).scene? b = x.scene? b := by
  rw [scene?, setScene,
    Keyed.find?_map_write (f := fun n : SceneNode => { n with stSceneInfo := s }) (fun _ => rfl)]
  simp only [h, if_false, map_id', scene?]

end SceneList

/-! ## The other sets -/

namespace SceneInfo

variable {s : SceneInfo}

theorem Consistent.off_setList_iff (hc : s.Consistent) (y : CondList l k) (i : Nat) :
    (s.setList l k y).ConsistentOff l k i ↔
      ∀ n ∈ y.stList, n.iCondSetIndex ≠ i → y.setTrue n = n.truth l := by
  constructor
  · intro h n hn hne
    have := h.set l k n
    rw [list_setList_self] at this
    exact this hn fun _ => hne
  · intro h
    refine ⟨?_, ?_⟩
    · intro l' k' n hn hne
      by_cases hl : l' = l ∧ k' = k
      · obtain ⟨rfl, rfl⟩ := hl
        rw [list_setList_self] at hn ⊢
        exact h n hn (hne ⟨rfl, rfl⟩)
      · rw [list_setList_of_ne _ _ hl] at hn ⊢
        exact hc.set l' k' n hn
    · intro l' k' hl
      rw [listTrue_setList, list_setList_of_ne _ _ hl]
      exact hc.list l' k'

end SceneInfo

namespace CondList

variable {x y : CondList l k} {p : CondPtr k} {heap : Nat} {c : Cond k}

/-- The bits that the sets of a list of event conditions read once they are
moved up by one are the ones they read before. -/
def BitsEven (x : CondList l k) : Prop :=
  ∀ i ≤ x.stList.length, x.uiCondSetTrue.getLsbD i = x.uiCondSetTrue.getLsbD 0

/-- All sets are full and a new one goes before them. -/
def OpensBefore (x : CondList l k) : Prop :=
  k = .event ∧ x.stList ≠ [] ∧ ∀ n ∈ x.stList, n.ucCondCount = 32

theorem Wf.shift_setTrue_iff (hw : x.Wf) (hset : ∀ n ∈ x.stList, x.setTrue n = n.truth l) :
    (∀ n ∈ x.stList, x.uiCondSetTrue.getLsbD (n.iCondSetIndex + 1) = n.truth l) ↔ x.BitsEven := by
  constructor
  · intro h i hi
    induction i with
    | zero => rfl
    | succ i ih =>
      have hlt : i < x.stList.length := hi
      have hidx : x.stList[i].iCondSetIndex = i := by
        have := congrArg (fun ys => ys[i]?) hw.index
        simpa [hlt] using this
      have hn := getElem_mem hlt
      rw [← ih (by omega), ← hidx, h _ hn, ← hset _ hn, setTrue]
  · intro h n hn
    have hlt := hw.index_lt hn
    rw [← hset n hn, setTrue, h (n.iCondSetIndex + 1) (by omega), h n.iCondSetIndex (by omega)]

/-- After an addition the bits of the other sets are right, unless sets were
moved up and their bits were not all equal. -/
theorem condAdd_others_iff (hw : x.Wf) (hb : x.Below heap)
    (hset : ∀ n ∈ x.stList, x.setTrue n = n.truth l) (h : x.condAdd heap c = some (y, p))
    {m : CondSetNode k} (hm : m ∈ y.stList) (ha : m.addr = p.pCondSetNode) :
    (∀ n ∈ y.stList, n.iCondSetIndex ≠ m.iCondSetIndex → y.setTrue n = n.truth l) ↔
      (x.OpensBefore → x.BitsEven) := by
  have hwy := condAdd_wf hw hb h
  rcases condAdd_cases hw hb h with ⟨ns, n, ms, hx, hlt, rfl, rfl⟩ | ⟨hfull, -, rfl, rfl⟩
  · have hn : n ∈ x.stList := by rw [hx]; simp
    have hnot : ¬ x.OpensBefore := fun ho => absurd (ho.2.2 n hn) (by omega)
    refine iff_of_true ?_ fun ho => absurd ho hnot
    intro z hz hne
    have hold : z ∈ ns ∨ z ∈ ms → z ∈ x.stList := by
      rintro (h | h) <;> rw [hx] <;> simp [h]
    rcases mem_append.mp hz with hzn | hzn
    · exact hset z (hold (.inl hzn))
    · rcases mem_cons.mp hzn with rfl | hzn
      · -- the set that got the condition is the one the pointer leads to
        have := Keyed.eq_of_key_eq hwy.addr hm hz ha
        exact absurd (congrArg CondSetNode.iCondSetIndex this).symm hne
      · exact hset z (hold (.inr hzn))
  · cases k with
    | time =>
      have hnot : ¬ x.OpensBefore := fun ho => absurd ho.1 (by decide)
      refine iff_of_true ?_ fun ho => absurd ho hnot
      intro z hz hne
      rcases mem_append.mp hz with hz | hz
      · have hxne : x.stList ≠ [] := ne_nil_of_mem hz
        simp only [setTrue, hxne, if_false]
        exact hset z hz
      · rw [mem_singleton.mp hz] at hne
        have := Keyed.eq_of_key_eq hwy.addr hm
          (mem_append_right _ (mem_singleton.mpr rfl)) ha
        exact absurd (congrArg CondSetNode.iCondSetIndex this).symm hne
    | event =>
      have hfirst : m = .single heap 0 c :=
        Keyed.eq_of_key_eq hwy.addr hm mem_cons_self ha
      subst hfirst
      by_cases hxe : x.stList = []
      · have hnot : ¬ x.OpensBefore := fun ho => ho.2.1 hxe
        refine iff_of_true ?_ fun ho => absurd ho hnot
        intro z hz hne
        simp only [Kind.openSet, hxe, map_nil, mem_singleton] at hz
        exact absurd (congrArg CondSetNode.iCondSetIndex hz) hne
      · have hopens : x.OpensBefore := ⟨rfl, hxe, hfull⟩
        simp only [hopens, true_implies]
        rw [← hw.shift_setTrue_iff hset]
        constructor
        · intro h n hn
          have := h n.shift (mem_cons_of_mem _ (mem_map_of_mem hn))
            (Nat.succ_ne_zero _)
          simp only [setTrue, hxe, if_false] at this
          exact this
        · intro h z hz hne
          rcases mem_cons.mp hz with rfl | hz
          · exact absurd rfl hne
          · obtain ⟨n, hn, rfl⟩ := mem_map.mp hz
            simp only [setTrue, hxe, if_false]
            exact h n hn

end CondList

/-! ## The scene with the new condition -/

/-- Every address of the scene is below the next one `calloc` returns. -/
def SceneInfo.Below (s : SceneInfo) (heap : Nat) : Prop := ∀ l k, (s.list l k).Below heap

instance {x : CondList l k} {heap : Nat} : Decidable (x.Below heap) :=
  inferInstanceAs (Decidable (∀ n ∈ x.stList, n.addr < heap ∧ ∀ c ∈ n.pstCond, c.addr < heap))

instance {s : SceneInfo} {heap : Nat} : Decidable (s.Below heap) :=
  inferInstanceAs (Decidable (∀ l k, (s.list l k).Below heap))

section Fresh

variable {s : SceneInfo} {y : CondList l k} {p : CondPtr k} {heap : Nat} {c : Cond k}

theorem SceneInfo.Wf.setList (hw : s.Wf) (hy : y.Wf) : (s.setList l k y).Wf := by
  intro l' k'
  by_cases h : l' = l ∧ k' = k
  · obtain ⟨rfl, rfl⟩ := h
    rw [list_setList_self]; exact hy
  · rw [list_setList_of_ne _ _ h]; exact hw l' k'

theorem set?_setList_condAdd (hw : s.Wf) (hb : s.Below heap)
    (h : (s.list l k).condAdd heap c = some (y, p)) :
    p.acLogic = l ∧ ∃ m ∈ y.stList, m.addr = p.pCondSetNode ∧
      (s.setList l k y).set? p = some m ∧ ∃ d, m.node? p.pCondNode = some d := by
  obtain ⟨hpl, -, m, hm, hma, d, hd, -⟩ := CondList.condAdd_node (hw l k) (hb l k) h
  have hwy := CondList.condAdd_wf (hw l k) (hb l k) h
  refine ⟨hpl, m, hm, hma, ?_, d, hd⟩
  subst hpl
  rw [set?, list_setList_self]
  exact hwy.set?_eq_some.mpr ⟨hm, hma⟩

theorem condTrue_setList_condAdd (hw : s.Wf) (hb : s.Below heap)
    (h : (s.list l k).condAdd heap c = some (y, p)) {l' : Logic} {k' : Kind} {q : CondPtr k'}
    (hq : q ∈ s.ptrs l' k') : (s.setList l k y).condTrue q = s.condTrue q := by
  obtain ⟨rfl, n, d, hn, hd⟩ := (mem_ptrs_iff hw).mp hq
  by_cases hl : q.acLogic = l ∧ k' = k
  · obtain ⟨rfl, rfl⟩ := hl
    obtain ⟨hnm, hna⟩ := (hw _ _).set?_eq_some.mp hn
    obtain ⟨hdm, hda⟩ := ((hw _ _).sets n hnm).node?_eq_some.mp hd
    have hwy := CondList.condAdd_wf (hw _ _) (hb _ _) h
    have hlt : q.pCondNode < heap := hda ▸ (hb _ _ n hnm).2 d hdm
    obtain ⟨m, hm, hma, -, hmt⟩ := CondList.condAdd_read (hw _ _) (hb _ _) h hnm hlt
    have hset : (s.setList q.acLogic k' y).set? q = some m := by
      rw [set?, list_setList_self]
      exact hwy.set?_eq_some.mpr ⟨hm, hma.trans hna⟩
    rw [condTrue, condTrue, hset, hn]
    exact hmt
  · rw [condTrue, condTrue, set?, set?,
      list_setList_of_ne _ _ hl]

end Fresh

/-! ## The operations -/

/-- What an addition is to leave behind: a consistent scene in which the other
conditions read what they read before and the added one its first truth. -/
structure AddKeeps (s s' : SceneInfo) (added : Option (CondPtr k)) (iTrue : Bool) : Prop where
  consistent : s'.Consistent
  others : ∀ l' k', ∀ q ∈ s.ptrs l' k',
    (∀ p, added = some p → (⟨k', q⟩ : AnyPtr) ≠ ⟨k, p⟩) → s'.condTrue q = s.condTrue q
  added : ∀ p, added = some p → s'.condTrue p = iTrue

theorem addKeeps_condTrueInit_iff {s s₁ s' : SceneInfo} {p : CondPtr k} {n : CondSetNode k}
    {b : Bool} (hw : s₁.Wf) (hn : s₁.set? p = some n)
    (hread : ∀ l' k', ∀ q ∈ s.ptrs l' k', s₁.condTrue q = s.condTrue q)
    (h : condTrueInit s₁ p b = some s') :
    AddKeeps s s' (some p) b ↔ s₁.ConsistentOff p.acLogic k n.iCondSetIndex := by
  have htruths := condTrueInit_truths hw h
  rw [← condTrueInit_consistent_iff hw hn h]
  constructor
  · exact AddKeeps.consistent
  · intro hc
    refine ⟨hc, ?_, ?_⟩
    · intro l' k' q hq hne
      have := congrFun htruths ⟨k', q⟩
      rw [Function.update_of_ne (hne p rfl)] at this
      exact this.trans (hread l' k' q hq)
    · rintro p' hp'
      obtain rfl := some.inj hp'
      have := congrFun htruths ⟨k, p⟩
      rwa [Function.update_self] at this

/-- The node a refused or accepted condition is filed with. -/
def newPtrNode (x : SceneList) (a : Nat) (s : SceneInfo) (target : PtrTarget) : PtrNode where
  addr := x.heap + 2
  acId := CText.strncpy indexMaxLen s.acSceneId
  pstScene := a
  target := target

/-- What filing does: a change of the condition filed for the scene, a new
condition, or a refusal. -/
theorem fileCond_cases {x x' : SceneList} {a : Nat} {s : SceneInfo} {c : Cond k} {iRet : ErrNo}
    {e : PtrNode} (hs : x.scene? a = some s) (h : fileCond x a l c = some (x', iRet, e)) :
    (∃ p t d, ptrHashFind x.pHashTable c.hashKey s.acSceneId = some e ∧ e.condPtr? k = some p ∧
      x.scene? e.pstScene = some t ∧ t.node? p = some d ∧ iRet = .noErr ∧
      x' = x.setScene e.pstScene (t.modifyCond p fun d => d.set c)) ∨
    (∃ y p, ptrHashFind x.pHashTable c.hashKey s.acSceneId = none ∧
      (s.list l k).condAdd x.heap c = some (y, p) ∧ iRet = .noErr ∧
      e = newPtrNode x a s (.cond ⟨k, p⟩) ∧
      x' = { x.setScene a (s.setList l k y) with
        pHashTable := ptrHashInst x.pHashTable c.hashKey e
        heap := x.heap + 3 }) ∨
    (ptrHashFind x.pHashTable c.hashKey s.acSceneId = none ∧
      (s.list l k).condAdd x.heap c = none ∧ iRet = .sceneAddErr ∧
      e = newPtrNode x a s .null ∧
      x' = { x with
        pHashTable := ptrHashInst x.pHashTable c.hashKey e
        heap := x.heap + 3 }) := by
  simp only [fileCond, hs, bind_eq_bind, bind_some] at h
  cases hf : ptrHashFind x.pHashTable c.hashKey s.acSceneId with
  | some e' =>
    simp only [hf, bind_eq_some_iff, pure_def, some.injEq,
      Prod.mk.injEq] at h
    obtain ⟨p, hp, t, ht, d, hd, rfl, rfl, rfl⟩ := h
    exact .inl ⟨p, t, d, rfl, hp, ht, hd, rfl, rfl⟩
  | none =>
    simp only [hf] at h
    cases ha : (s.list l k).condAdd x.heap c with
    | some yp =>
      obtain ⟨y, p⟩ := yp
      simp only [ha, pure_def, some.injEq, Prod.mk.injEq] at h
      obtain ⟨rfl, rfl, rfl⟩ := h
      exact .inr (.inl ⟨y, p, rfl, rfl, rfl, rfl, rfl⟩)
    | none =>
      simp only [ha, pure_def, some.injEq, Prod.mk.injEq] at h
      obtain ⟨rfl, rfl, rfl⟩ := h
      exact .inr (.inr ⟨rfl, rfl, rfl, rfl, rfl⟩)

/-- The condition stands for the manual trigger, in the one list that knows
it. -/
def Cond.isManual (l : Logic) : {k : Kind} → Cond k → Bool
  | .time => fun _ => false
  | .event => fun c : EventCond => l = .or && c.isManual

/-- What an addition does: it sets the manual trigger, or it files the condition
and, when that went well, works out its truth or clears the bit of the list. -/
theorem sceneCondAdd_cases {x x' : SceneList} {a : Nat} {c : Cond k} {r : ErrNo}
    (h : sceneCondAdd x a l c = some (x', r)) :
    (c.isManual l = true ∧ ∃ s, x.scene? a = some s ∧
      x' = x.setScene a { s with cManualTriggerFlag := true }) ∨
    c.isManual l = false ∧ ∃ x₁ e, fileCond x a l c = some (x₁, r, e) ∧
      (r ≠ .noErr ∧ x' = x₁ ∨ r = .noErr ∧ ((∃ b, x₁.condTrueInit k e b = some x') ∨
        ∃ s₁, x₁.scene? a = some s₁ ∧ x' = x₁.setScene a (s₁.setListTrue l k false))) := by
  by_cases hev : l = .and ∧ k = .event
  · obtain ⟨rfl, rfl⟩ := hev
    simp only [sceneCondAdd, sceneEventAndCondAdd, bind_eq_bind, bind_eq_some_iff,
      Prod.exists] at h
    obtain ⟨x₁, iRet, e, hfile, h⟩ := h
    refine .inr ⟨by simp [isManual], x₁, e, ?_⟩
    split at h
    · rename_i hok
      simp only [bind_eq_some_iff] at h
      obtain ⟨s₁, hs₁, h⟩ := h
      split at h
      · simp only [pure_def, some.injEq, Prod.mk.injEq] at h
        obtain ⟨rfl, rfl⟩ := h
        exact ⟨hfile, .inr ⟨hok, .inr ⟨s₁, hs₁, rfl⟩⟩⟩
      · simp only [bind_eq_some_iff, pure_def, some.injEq,
          Prod.mk.injEq] at h
        obtain ⟨x₂, h₂, rfl, rfl⟩ := h
        exact ⟨hfile, .inr ⟨hok, .inl ⟨_, h₂⟩⟩⟩
    · rename_i hbad
      simp only [pure_def, some.injEq, Prod.mk.injEq] at h
      obtain ⟨rfl, rfl⟩ := h
      exact ⟨hfile, .inl ⟨hbad, rfl⟩⟩
  · by_cases hm : c.isManual l = true
    · refine .inl ⟨hm, ?_⟩
      cases k with
      | time => cases hm
      | event =>
        cases l with
        | and => exact absurd ⟨rfl, rfl⟩ hev
        | or =>
          have hm' : EventCond.isManual c = true := by simpa [isManual] using hm
          simp only [sceneCondAdd, sceneEventOrCondAdd, hm', if_true, bind_eq_bind,
            bind_eq_some_iff, pure_def, some.injEq, Prod.mk.injEq] at h
          obtain ⟨s, hs, rfl, -⟩ := h
          exact ⟨s, hs, rfl⟩
    · have hm : c.isManual l = false := by simpa using hm
      have hgen : condAdd x a l c = some (x', r) := by
        cases l <;> cases k <;>
          simp_all [sceneCondAdd, sceneTimeOrCondAdd, sceneEventOrCondAdd, sceneTimeAndCondAdd,
            isManual]
      simp only [condAdd, bind_eq_bind, bind_eq_some_iff, Prod.exists] at hgen
      obtain ⟨x₁, iRet, e, hfile, h⟩ := hgen
      refine .inr ⟨hm, x₁, e, ?_⟩
      split at h
      · rename_i hok
        simp only [bind_eq_some_iff, pure_def, some.injEq,
          Prod.mk.injEq] at h
        obtain ⟨x₂, h₂, rfl, rfl⟩ := h
        exact ⟨hfile, .inr ⟨hok, .inl ⟨_, h₂⟩⟩⟩
      · rename_i hbad
        simp only [pure_def, some.injEq, Prod.mk.injEq] at h
        obtain ⟨rfl, rfl⟩ := h
        exact ⟨hfile, .inl ⟨hbad, rfl⟩⟩

/-- The condition that is filed, once an addition has answered. -/
def addedPtr (x : SceneList) (l : Logic) (c : Cond k) (acSceneId : CText) : Option (CondPtr k) :=
  if c.isManual l then none
  else (ptrHashFind x.pHashTable c.hashKey acSceneId).bind fun e => e.condPtr? k

/-- When an addition leaves what it is to leave.  `scene_event_and_cond_add`
does not recompute when its list holds one condition afterwards; elsewhere only
the sets that are moved up can be wrong. -/
def AddSafe (x : SceneList) (s : SceneInfo) (l : Logic) (c : Cond k) : Prop :=
  if c.isManual l then True
  else
    match ptrHashFind x.pHashTable c.hashKey s.acSceneId with
    | some e =>
      l = .and ∧ k = .event ∧ (s.list l k).iCount = 1 →
        (∀ p, e.condPtr? k = some p → s.condTrue p = c.initTrue) ∧ s.listTrue l k = false
    | none =>
      if l = .and ∧ k = .event ∧ (s.list l k).stList = [] then
        c.initTrue = false ∧ s.ucSceneCondTrue = false
      else (s.list l k).OpensBefore → (s.list l k).BitsEven

@[simp] theorem PtrNode.condPtr?_cond (x : SceneList) (a : Nat) (s : SceneInfo) (p : CondPtr k) :
    (newPtrNode x a s (.cond ⟨k, p⟩)).condPtr? k = some p := by
  simp [newPtrNode, condPtr?]

theorem ptrHashFind_inst_new (x : SceneList) (a : Nat) (s : SceneInfo) (h : PtrHash) (key : CText)
    (target : PtrTarget) :
    ptrHashFind (ptrHashInst h key (newPtrNode x a s target)) key s.acSceneId =
      some (newPtrNode x a s target) := by
  have : isFor key s.acSceneId (key, newPtrNode x a s target) = true := by
    simp [isFor, CText.strncmpEq, newPtrNode, CText.strncpy]
  simp [ptrHashFind, ptrHashInst, find?_cons, this]

theorem addKeeps_changed {s s' : SceneInfo} {p : CondPtr k} {f : Cond k → Cond k} {b : Bool}
    (hw : s.Wf) (hc : s.Consistent) (h : condTrueInit (s.modifyCond p f) p b = some s') :
    AddKeeps s s' (some p) b := by
  obtain ⟨n, -, hn, -⟩ := condTrueInit_some h
  rw [addKeeps_condTrueInit_iff hw.modifyCond hn
    (fun _ _ q _ => condTrue_modifyCond q) h]
  exact hc.modifyCond.off _ _ _

theorem addKeeps_fresh_iff {s s' : SceneInfo} {y : CondList l k} {p : CondPtr k} {heap : Nat}
    {c : Cond k} {b : Bool} (hw : s.Wf) (hc : s.Consistent) (hb : s.Below heap)
    (hadd : (s.list l k).condAdd heap c = some (y, p))
    (h : condTrueInit (s.setList l k y) p b = some s') :
    AddKeeps s s' (some p) b ↔ ((s.list l k).OpensBefore → (s.list l k).BitsEven) := by
  obtain ⟨rfl, m, hm, hma, hset, -⟩ := set?_setList_condAdd hw hb hadd
  have hwy := CondList.condAdd_wf (hw _ _) (hb _ _) hadd
  rw [addKeeps_condTrueInit_iff (hw.setList hwy) hset
    (fun _ _ q hq => condTrue_setList_condAdd hw hb hadd hq) h, hc.off_setList_iff,
    CondList.condAdd_others_iff (hw _ _) (hb _ _) (hc.set _ _) hadd hm hma]

section Ops

variable {x x' : SceneList} {a : Nat} {s : SceneInfo} {c : Cond k}

theorem SceneList.condTrueInit_some {x x' : SceneList} {e : PtrNode} {p : CondPtr k}
    {s : SceneInfo} {b : Bool} (hp : e.condPtr? k = some p) (hs : x.scene? e.pstScene = some s)
    (h : x.condTrueInit k e b = some x') :
    ∃ s', LocalScene.condTrueInit s p b = some s' ∧ x' = x.setScene e.pstScene s' := by
  simp only [condTrueInit, hp, hs, bind_eq_bind, bind_some,
    bind_eq_some_iff, pure_def, some.injEq] at h
  obtain ⟨s', hs', rfl⟩ := h
  exact ⟨s', hs', rfl⟩

theorem condAdd_keeps_iff (hs : x.scene? a = some s) (hw : s.Wf) (hc : s.Consistent)
    (hb : s.Below x.heap)
    (hown : ∀ e, ptrHashFind x.pHashTable c.hashKey s.acSceneId = some e → e.pstScene = a)
    (h : condAdd x a l c = some (x', .noErr)) :
    ∃ s' p, x'.scene? a = some s' ∧
      (ptrHashFind x'.pHashTable c.hashKey s.acSceneId).bind (fun e => e.condPtr? k) = some p ∧
      (AddKeeps s s' (some p) c.initTrue ↔
        (ptrHashFind x.pHashTable c.hashKey s.acSceneId = none →
          (s.list l k).OpensBefore → (s.list l k).BitsEven)) := by
  simp only [condAdd, bind_eq_bind, bind_eq_some_iff, Prod.exists] at h
  obtain ⟨x₁, iRet, e, hfile, h⟩ := h
  rcases fileCond_cases hs hfile with ⟨p, t, d, hf, hp, ht, hd, rfl, rfl⟩ |
    ⟨y, p, hf, hadd, rfl, rfl, rfl⟩ | ⟨-, -, rfl, -, -⟩
  · obtain rfl := hown e hf
    obtain rfl : s = t := some.inj (hs.symm.trans ht)
    simp only [if_true, bind_eq_some_iff, pure_def, some.injEq,
      Prod.mk.injEq, and_true] at h
    obtain ⟨x₂, h, rfl⟩ := h
    obtain ⟨s', hs', rfl⟩ :=
      SceneList.condTrueInit_some hp (SceneList.scene?_setScene_self hs _) h
    exact ⟨s', p, SceneList.scene?_setScene_self (SceneList.scene?_setScene_self hs _) _,
      by simp [hf, hp],
      iff_of_true (addKeeps_changed hw hc hs') fun hnone => by simp [hf] at hnone⟩
  · simp only [if_true, bind_eq_some_iff, pure_def, some.injEq,
      Prod.mk.injEq, and_true] at h
    obtain ⟨x₂, h, rfl⟩ := h
    have hs₁ : (x.setScene a (s.setList l k y)).scene? a = some (s.setList l k y) :=
      SceneList.scene?_setScene_self hs _
    obtain ⟨s', hs', rfl⟩ :=
      SceneList.condTrueInit_some (condPtr?_cond x a s p) (by exact hs₁) h
    refine ⟨s', p, SceneList.scene?_setScene_self hs₁ _, ?_, ?_⟩
    · rw [SceneList.pHashTable_setScene, ptrHashFind_inst_new]
      exact condPtr?_cond x a s p
    · rw [addKeeps_fresh_iff hw hc hb hadd hs']
      simp [hf]
  · simp at h

theorem SceneInfo.condTrue_setListTrue (s : SceneInfo) (l : Logic) (k : Kind) (b : Bool)
    {k' : Kind} (q : CondPtr k') : (s.setListTrue l k b).condTrue q = s.condTrue q := by
  rw [condTrue, condTrue, set?, set?, list_setListTrue]

theorem SceneInfo.list_setManual (s : SceneInfo) (b : Bool) (l : Logic) (k : Kind) :
    ({ s with cManualTriggerFlag := b } : SceneInfo).list l k = s.list l k := by
  cases l <;> cases k <;> rfl

theorem SceneInfo.Consistent.setManual (hc : s.Consistent) (b : Bool) :
    ({ s with cManualTriggerFlag := b } : SceneInfo).Consistent := by
  refine ⟨?_, ?_, hc.scene⟩
  · intro l' k'
    rw [list_setManual]
    exact hc.set l' k'
  · intro l' k'
    rw [list_setManual, ← hc.list]
    cases l' <;> rfl

theorem SceneInfo.condTrue_setManual (s : SceneInfo) (b : Bool) {k' : Kind} (q : CondPtr k') :
    ({ s with cManualTriggerFlag := b } : SceneInfo).condTrue q = s.condTrue q := by
  rw [condTrue, condTrue, set?, set?, list_setManual]

/-- The first set of an `And` list, false at every level: the formula is false,
whatever the other lists say. -/
theorem SceneInfo.Consistent.single_iff {y : CondList .and k} {n : CondSetNode k}
    (hc : s.Consistent) (hy : y.stList = [n]) (hn : n.truth .and = false)
    (hbit : y.setTrue n = false) :
    ((s.setList .and k y).setListTrue .and k false).Consistent ↔ s.ucSceneCondTrue = false := by
  have hscene : ((s.setList .and k y).setListTrue .and k false).sceneTruth = false := by
    have hempty : ((s.setList .and k y).setListTrue .and k false).logicEmpty .and = false := by
      have : ((s.setList .and k y).list .and k).stList.isEmpty = false := by simp [hy]
      cases k <;> simp_all [logicEmpty]
    have hfalse : (((s.setList .and k y).setListTrue .and k false).listTrue .and .time &&
        ((s.setList .and k y).setListTrue .and k false).listTrue .and .event) = false := by
      have := listTrue_setListTrue_self (s.setList .and k y) .and k false
      cases k <;> simp [this]
    rw [sceneTruth, hempty, hfalse, sceneFormula]
    cases ((s.setList .and k y).setListTrue .and k false).logicEmpty .or <;> simp
  constructor
  · intro h
    have := h.scene
    rw [hscene, ucSceneCondTrue_setListTrue, ucSceneCondTrue_setList] at this
    exact this
  · intro h
    refine ⟨?_, ?_, ?_⟩
    · intro l' k' m hm
      rw [list_setListTrue] at hm ⊢
      by_cases hl : l' = .and ∧ k' = k
      · obtain ⟨rfl, rfl⟩ := hl
        rw [list_setList_self] at hm ⊢
        rw [hy, mem_singleton] at hm
        rw [hm, hn, hbit]
      · rw [list_setList_of_ne _ _ hl] at hm ⊢
        exact hc.set l' k' m hm
    · intro l' k'
      rw [list_setListTrue]
      by_cases hl : l' = .and ∧ k' = k
      · obtain ⟨rfl, rfl⟩ := hl
        rw [listTrue_setListTrue_self, list_setList_self, CondList.truth, hy]
        simp [Logic.fold, hbit]
      · rw [listTrue_setListTrue_of_ne _ _ hl, listTrue_setList,
          list_setList_of_ne _ _ hl]
        exact hc.list l' k'
    · rw [hscene, ucSceneCondTrue_setListTrue, ucSceneCondTrue_setList, h]

/-- Clearing the bit of a list that holds the new condition alone: right when
that condition starts false and the scene was false. -/
theorem addKeeps_single_iff {y : CondList .and k} {p : CondPtr k} {heap : Nat} {c : Cond k}
    (hw : s.Wf) (hc : s.Consistent) (hb : s.Below heap) (hempty : (s.list .and k).stList = [])
    (hadd : (s.list .and k).condAdd heap c = some (y, p)) (b : Bool) :
    AddKeeps s ((s.setList .and k y).setListTrue .and k false) (some p) b ↔
      b = false ∧ s.ucSceneCondTrue = false := by
  have hread := @condTrue_setList_condAdd _ _ s y p heap c hw hb hadd
  obtain ⟨-, m, hm, -, hset, d, hd⟩ := set?_setList_condAdd hw hb hadd
  have hy : y.stList = [.single heap 0 c] ∧ y.uiCondSetTrue = 0 := by
    rcases CondList.condAdd_cases (hw _ _) (hb _ _) hadd with ⟨ns, n, ms, hx, -⟩ | ⟨-, -, -, rfl⟩
    · simp [hempty] at hx
    · cases k <;> simp [hempty, Kind.openSet]
  obtain rfl : m = .single heap 0 c := mem_singleton.mp (hy.1 ▸ hm)
  have hfalse : ((s.setList .and k y).setListTrue .and k false).condTrue p = false := by
    rw [condTrue_setListTrue, condTrue_eq hset hd]
    simp [CondSetNode.single]
  have hcons := hc.single_iff hy.1 (by simp [CondSetNode.truth, CondSetNode.single, Logic.fold])
    (by simp [CondList.setTrue, hy.2])
  constructor
  · intro h
    exact ⟨(h.added p rfl).symm.trans hfalse, hcons.mp h.consistent⟩
  · rintro ⟨rfl, hs⟩
    refine ⟨hcons.mpr hs, ?_, ?_⟩
    · intro l' k' q hq _
      rw [condTrue_setListTrue]
      exact hread hq
    · intro p' hp'
      rw [← some.inj hp']
      exact hfalse

/-- Clearing the bit of a list after a change: right when it was clear and the
condition had its first truth. -/
theorem addKeeps_unchanged_iff {p : CondPtr k} {f : Cond k → Cond k} (hc : s.Consistent)
    {k' : Kind} (b : Bool) :
    AddKeeps s ((s.modifyCond p f).setListTrue .and k' false) (some p) b ↔
      s.condTrue p = b ∧ s.listTrue .and k' = false := by
  have hread : ∀ {k'' : Kind} (q : CondPtr k''),
      ((s.modifyCond p f).setListTrue .and k' false).condTrue q = s.condTrue q := by
    intro k'' q
    rw [condTrue_setListTrue, condTrue_modifyCond]
  constructor
  · intro h
    refine ⟨(hread p).symm.trans (h.added p rfl), ?_⟩
    have hlist := h.consistent.list .and k'
    rw [listTrue_setListTrue_self, list_setListTrue,
      ← hc.modifyCond.list, modifyCond, listTrue_modifySet] at hlist
    exact hlist.symm
  · rintro ⟨hb, hl⟩
    have hself : (s.modifyCond p f).setListTrue .and k' false = s.modifyCond p f := by
      apply setListTrue_eq_self
      rw [modifyCond, listTrue_modifySet, hl]
    refine ⟨by rw [hself]; exact hc.modifyCond, fun l' k'' q _ _ => hread q, ?_⟩
    intro p' hp'
    rw [← some.inj hp', hread, hb]

theorem sceneEventAndCondAdd_keeps_iff {c : EventCond} (hs : x.scene? a = some s) (hw : s.Wf)
    (hc : s.Consistent) (hb : s.Below x.heap)
    (hown : ∀ e, ptrHashFind x.pHashTable (Cond.hashKey (k := .event) c) s.acSceneId = some e →
      e.pstScene = a)
    (h : sceneEventAndCondAdd x a c = some (x', .noErr)) :
    ∃ s' p, x'.scene? a = some s' ∧
      (ptrHashFind x'.pHashTable (hashKey (k := .event) c) s.acSceneId).bind
        (fun e => e.condPtr? .event) = some p ∧
      (AddKeeps s s' (some p) (initTrue (k := .event) c) ↔
        AddSafe (k := .event) x s .and c) := by
  simp only [sceneEventAndCondAdd, bind_eq_bind, bind_eq_some_iff, Prod.exists] at h
  obtain ⟨x₁, iRet, e, hfile, h⟩ := h
  have hmanual : isManual .and (k := .event) c = false := by simp [isManual]
  rcases fileCond_cases hs hfile with ⟨p, t, d, hf, hp, ht, hd, rfl, rfl⟩ |
    ⟨y, p, hf, hadd, rfl, rfl, rfl⟩ | ⟨-, -, rfl, -, -⟩
  · obtain rfl := hown e hf
    obtain rfl : s = t := some.inj (hs.symm.trans ht)
    have hs₁ := SceneList.scene?_setScene_self hs (s.modifyCond p fun d => d.set c)
    simp only [if_true, bind_eq_some_iff, hs₁, some.injEq] at h
    obtain ⟨_, rfl, h⟩ := h
    split at h
    · -- the list holds one condition: its bit is cleared, and that is all
      rename_i hone
      rw [modifyCond, iCount_modifySet] at hone
      simp only [pure_def, some.injEq, Prod.mk.injEq, and_true] at h
      refine ⟨_, p, h ▸ SceneList.scene?_setScene_self hs₁ _, by simp [← h, hf, hp], ?_⟩
      have hsafe : AddSafe (k := .event) x s .and c ↔
          s.condTrue p = initTrue (k := .event) c ∧ s.listTrue .and .event = false := by
        simp [AddSafe, hmanual, hf, hp, ← hone]
      rw [hsafe, addKeeps_unchanged_iff hc]
    · rename_i hone
      rw [modifyCond, iCount_modifySet] at hone
      simp only [bind_eq_some_iff, pure_def, some.injEq, Prod.mk.injEq,
        and_true] at h
      obtain ⟨x₂, h, rfl⟩ := h
      obtain ⟨s', hs', rfl⟩ := SceneList.condTrueInit_some hp hs₁ h
      have hsafe : AddSafe (k := .event) x s .and c := by
        simp [AddSafe, hmanual, hf, Ne.symm hone]
      exact ⟨s', p, SceneList.scene?_setScene_self hs₁ _, by simp [hf, hp],
        iff_of_true (addKeeps_changed hw hc hs') hsafe⟩
  · have hs₁ : (x.setScene a (s.setList .and .event y)).scene? a =
        some (s.setList .and .event y) := SceneList.scene?_setScene_self hs _
    have hs₁' : ({ x.setScene a (s.setList .and .event y) with
        pHashTable := ptrHashInst x.pHashTable (hashKey (k := .event) c)
          (newPtrNode x a s (.cond ⟨.event, p⟩))
        heap := x.heap + 3 } : SceneList).scene? a = some (s.setList .and .event y) := hs₁
    simp only [if_true, bind_eq_some_iff, hs₁', some.injEq] at h
    obtain ⟨_, rfl, h⟩ := h
    have hcount : y.iCount = (s.list .and .event).iCount + 1 := by
      rcases CondList.condAdd_cases (hw _ _) (hb _ _) hadd with ⟨_, _, _, -, -, -, rfl⟩ |
        ⟨-, -, -, rfl⟩ <;> rfl
    have hone : 1 = ((s.setList .and .event y).list .and .event).iCount ↔
        (s.list .and .event).stList = [] := by
      rw [list_setList_self, hcount, ← (hw .and .event).iCount_eq_zero_iff]
      omega
    have hfind : (ptrHashFind (ptrHashInst x.pHashTable (hashKey (k := .event) c)
        (newPtrNode x a s (.cond ⟨.event, p⟩))) (hashKey (k := .event) c)
        s.acSceneId).bind (fun e => e.condPtr? .event) = some p := by
      rw [ptrHashFind_inst_new]
      exact condPtr?_cond x a s p
    by_cases hempty : (s.list .and .event).stList = []
    · rw [if_pos (hone.mpr hempty)] at h
      simp only [pure_def, some.injEq, Prod.mk.injEq, and_true] at h
      subst h
      refine ⟨_, p, SceneList.scene?_setScene_self hs₁ _, hfind, ?_⟩
      rw [addKeeps_single_iff hw hc hb hempty hadd]
      simp [AddSafe, hmanual, hf, hempty]
    · rw [if_neg fun h' => hempty (hone.mp h')] at h
      simp only [bind_eq_some_iff, pure_def, some.injEq, Prod.mk.injEq,
        and_true] at h
      obtain ⟨x₂, h, rfl⟩ := h
      obtain ⟨s', hs', rfl⟩ :=
        SceneList.condTrueInit_some (condPtr?_cond x a s p) (by exact hs₁') h
      refine ⟨s', p, SceneList.scene?_setScene_self hs₁ _, hfind, ?_⟩
      rw [addKeeps_fresh_iff hw hc hb hadd hs']
      simp [AddSafe, hmanual, hf, hempty]
  · simp at h

/-- An addition that succeeds leaves a consistent scene, with the other
conditions as they were and the added one at its first truth, exactly when it is
`AddSafe`. -/
theorem sceneCondAdd_keeps_iff_addSafe {c : Cond k} (hs : x.scene? a = some s) (hw : s.Wf)
    (hc : s.Consistent) (hb : s.Below x.heap)
    (hown : ∀ e, ptrHashFind x.pHashTable c.hashKey s.acSceneId = some e → e.pstScene = a)
    (h : sceneCondAdd x a l c = some (x', .noErr)) :
    ∃ s', x'.scene? a = some s' ∧
      (AddKeeps s s' (addedPtr x' l c s.acSceneId) c.initTrue ↔ AddSafe x s l c) := by
  by_cases hm : c.isManual l
  · -- the manual trigger: a flag of the scene, no condition
    cases k with
    | time => simp [Cond.isManual] at hm
    | event =>
      obtain ⟨rfl, hmc⟩ : l = .or ∧ EventCond.isManual c = true := by
        simpa [Cond.isManual] using hm
      simp only [sceneCondAdd, sceneEventOrCondAdd, hmc, if_true, hs, bind_eq_bind,
        bind_some, pure_def, some.injEq, Prod.mk.injEq, and_true] at h
      subst h
      refine ⟨_, SceneList.scene?_setScene_self hs _, iff_of_true ?_ (by simp [AddSafe, hm])⟩
      rw [addedPtr, if_pos hm]
      exact ⟨hc.setManual true, fun l' k' q _ _ => condTrue_setManual s true q,
        fun p hp => by simp at hp⟩
  · by_cases hev : l = .and ∧ k = .event
    · obtain ⟨rfl, rfl⟩ := hev
      obtain ⟨s', p, hs', hp, hiff⟩ := sceneEventAndCondAdd_keeps_iff hs hw hc hb hown h
      refine ⟨s', hs', ?_⟩
      rw [addedPtr, if_neg hm, hp]
      exact hiff
    · have hgen : condAdd x a l c = some (x', .noErr) := by
        cases l <;> cases k <;>
          simp_all [sceneCondAdd, sceneTimeOrCondAdd, sceneEventOrCondAdd, sceneTimeAndCondAdd,
            Cond.isManual]
      obtain ⟨s', p, hs', hp, hiff⟩ := condAdd_keeps_iff hs hw hc hb hown hgen
      refine ⟨s', hs', ?_⟩
      rw [addedPtr, if_neg hm, hp, hiff, AddSafe, if_neg hm]
      cases ptrHashFind x.pHashTable c.hashKey s.acSceneId with
      | some e => simp only [reduceCtorEq, false_implies, true_iff]; tauto
      | none =>
        rw [if_neg fun hev' => hev ⟨hev'.1, hev'.2.1⟩]
        simp

end Ops

/-- A first `Or` condition that was last seen true: the addition is safe. -/
theorem sceneCondAdd_keeps_iff_addSafe_sample :
    ∃ s', (Sample.after (sceneEventOrCondAdd Sample.list 0 (Sample.eventCond ['k'] ['1']))).scene?
        0 = some s' ∧
      (AddKeeps (k := .event) (.new Sample.text) s'
        (addedPtr (k := .event)
          (Sample.after (sceneEventOrCondAdd Sample.list 0 (Sample.eventCond ['k'] ['1']))) .or
          (Sample.eventCond ['k'] ['1']) ['1'])
        true ↔
      AddSafe (k := .event) Sample.list (.new Sample.text) .or (Sample.eventCond ['k'] ['1'])) :=
  sceneCondAdd_keeps_iff_addSafe (a := 0) (l := .or) (k := .event)
    (c := Sample.eventCond ['k'] ['1']) (by decide) (by decide) (by decide) (by decide)
    (fun _ he => absurd he (by simp [Sample.list, hySceneAdd, sceneListGet, sceneListAdd,
      SceneList.init, ptrHashFind])) (by decide)

/-- A first `And` condition that was last seen true is left false. -/
theorem sceneEventAndCondAdd_not_keeps :
    (SceneInfo.new Sample.text).Wf ∧ (SceneInfo.new Sample.text).Consistent ∧
      Sample.list.scene? 0 = some (.new Sample.text) ∧
      ∃ x' s', sceneEventAndCondAdd Sample.list 0 (Sample.eventCond ['k'] ['1']) =
          some (x', .noErr) ∧ x'.scene? 0 = some s' ∧
        ¬ AddKeeps (k := .event) (.new Sample.text) s'
          (addedPtr (k := .event) x' .and (Sample.eventCond ['k'] ['1']) ['1'])
          (Cond.initTrue (k := .event) (Sample.eventCond ['k'] ['1'])) := by
  refine ⟨by decide, by decide, by decide, _, _, rfl, rfl, fun h => ?_⟩
  exact absurd (h.added ⟨.and, 1, 2⟩ (by decide)) (by decide)

end Honyar.LocalScene
