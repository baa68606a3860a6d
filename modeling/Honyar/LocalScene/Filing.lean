import Mathlib.Algebra.Order.BigOperators.Group.List
import Honyar.LocalScene.CondSync

/-!
# What is filed for a scene

A scene whose lists count their sets, seen as the texts its conditions are filed
under, list by list.  Whether an addition is accepted can be read off these texts
alone: a text that is filed for a condition of the same type leads to a change, a
text that is new needs room in its list, and a text that is filed for a condition
of the other type is followed to the wrong record.
-/

namespace Honyar.LocalScene

open CText Option List SceneInfo

variable {l : Logic} {k : Kind}
variable {key : CText} {l' : Logic} {k' : Kind}

/-! ## Counting -/

/-- The sets are counted, and there are at most 32 of at most 32 conditions. -/
structure CountsOk (m : Int × List Nat) : Prop where
  num : m.1 = m.2.length
  len : m.2.length ≤ 32
  le : ∀ n ∈ m.2, n ≤ 32

theorem fillFirst_spec {ns : List Nat} (h : ∃ n ∈ ns, n < 32) (hle : ∀ n ∈ ns, n ≤ 32) :
    (fillFirst ns).length = ns.length ∧ (fillFirst ns).sum = ns.sum + 1 ∧
      ∀ n ∈ fillFirst ns, n ≤ 32 := by
  induction ns with
  | nil =>
    obtain ⟨n, hn, -⟩ := h
    cases hn
  | cons m ns ih =>
    rw [fillFirst]
    by_cases hm : m < 32
    · rw [if_pos hm]
      refine ⟨rfl, ?_, ?_⟩
      · rw [sum_cons, sum_cons]
        omega
      · intro n hn
        rcases mem_cons.mp hn with rfl | hn
        · exact hm
        · exact hle n (mem_cons_of_mem m hn)
    · rw [if_neg hm]
      obtain ⟨n, hn, hlt⟩ := h
      have hrest : ∃ n ∈ ns, n < 32 := by
        rcases mem_cons.mp hn with rfl | hn
        · exact absurd hlt hm
        · exact ⟨n, hn, hlt⟩
      obtain ⟨hlen, hsum, hall⟩ := ih hrest fun n hn => hle n (mem_cons_of_mem m hn)
      refine ⟨by rw [length_cons, hlen, length_cons], ?_, ?_⟩
      · rw [sum_cons, sum_cons, hsum]
        omega
      · intro n hn
        rcases mem_cons.mp hn with rfl | hn
        · exact hle n mem_cons_self
        · exact hall n hn

namespace CountsOk

variable {m : Int × List Nat}

theorem countsAdd_of_lt (h : CountsOk m) (k : Kind) (hlt : m.2.sum < 1024) :
    ∃ m', countsAdd k m = some m' ∧ CountsOk m' ∧ m'.2.sum = m.2.sum + 1 := by
  obtain ⟨hnum, hlen, hle⟩ := h
  by_cases hroom : ∃ n ∈ m.2, n < 32
  · have hne : m.1 ≠ 0 := by
      obtain ⟨n, hn, -⟩ := hroom
      have := length_pos_of_mem hn
      omega
    obtain ⟨hlen', hsum, hall⟩ := fillFirst_spec hroom hle
    exact ⟨_, if_pos ⟨hne, hroom⟩, ⟨by rw [hlen']; exact hnum, by rw [hlen']; exact hlen, hall⟩,
      hsum⟩
  · have hfull : ∀ n ∈ m.2, 32 ≤ n := by
      intro n hn
      by_contra hn'
      exact hroom ⟨n, hn, by omega⟩
    have hsum : m.2.length * 32 ≤ m.2.sum := card_nsmul_le_sum m.2 32 hfull
    have hopen : ¬ m.1 ≥ 32 := by omega
    have hinst : (k.instSet m.2 1).Perm (1 :: m.2) := k.perm_instSet _ _
    refine ⟨_, by rw [countsAdd, if_neg fun h => hroom h.2, if_neg hopen], ⟨?_, ?_, ?_⟩, ?_⟩
    · rw [hinst.length_eq, length_cons, hnum]
      rfl
    · rw [hinst.length_eq, length_cons]
      omega
    · intro n hn
      rcases mem_cons.mp (hinst.subset hn) with rfl | hn
      · decide
      · exact hle n hn
    · rw [hinst.sum_eq, sum_cons]
      omega

theorem countsAdd_of_full (h : CountsOk m) (k : Kind) (hfull : ¬ m.2.sum < 1024) :
    countsAdd k m = none := by
  obtain ⟨hnum, hlen, hle⟩ := h
  have hroom : ¬ ∃ n ∈ m.2, n < 32 := by
    rintro ⟨n, hn, hlt⟩
    have hperm := perm_cons_erase hn
    have hrest : (m.2.erase n).sum ≤ (m.2.erase n).length * 32 :=
      sum_le_card_nsmul _ 32 fun n' hn' => hle n' (mem_of_mem_erase hn')
    have hsum := hperm.sum_eq
    have hlen' := hperm.length_eq
    rw [sum_cons] at hsum
    rw [length_cons] at hlen'
    omega
  have hsum : m.2.sum ≤ m.2.length * 32 := sum_le_card_nsmul m.2 32 hle
  have hopen : m.1 ≥ 32 := by omega
  rw [countsAdd, if_neg fun h => hroom h.2, if_pos hopen]

end CountsOk

/-! ## Texts -/

/-- The texts the conditions of a list are filed under. -/
def SceneInfo.keys (s : SceneInfo) (l : Logic) (k : Kind) : List CText :=
  (s.list l k).entries.map fun q => q.2.hashKey

theorem SceneInfo.mem_keys {s : SceneInfo} :
    key ∈ s.keys l k ↔ ∃ q ∈ (s.list l k).entries, q.2.hashKey = key := List.mem_map

theorem CondList.Chained.sum_counts {y : CondList l k} (h : y.Chained) :
    y.counts.2.sum = y.entries.length := by
  have hcount : y.stList.map CondSetNode.ucCondCount =
      y.stList.map fun n => (n.pstCond.map fun c =>
        ((⟨l, n.addr, c.addr⟩ : CondPtr k), c.stCond)).length := by
    refine map_congr_left fun n hn => ?_
    rw [length_map]
    exact (h.sets n hn).count
  rw [CondList.counts, hcount, CondList.entries, length_flatMap]

theorem SceneInfo.keys_modifyCond_set (s : SceneInfo) (p : CondPtr k) (c : Cond k) (l' : Logic)
    (k' : Kind) : (s.modifyCond p fun d => d.set c).keys l' k' = s.keys l' k' ∧
      ((s.modifyCond p fun d => d.set c).list l' k').counts = (s.list l' k').counts := by
  by_cases hk : k' = k
  · subst hk
    obtain ⟨hentries, hcounts⟩ := entries_modifyCond (l := l') s p fun d => d.set c
    refine ⟨?_, hcounts⟩
    rw [SceneInfo.keys, SceneInfo.keys, hentries, List.map_map]
    apply map_congr_left
    intro q _
    simp only [Function.comp_apply]
    split
    · exact Cond.hashKey_of_identity_eq (Cond.identity_set q.2 c)
    · rfl
  · have hne : ¬ (l' = p.acLogic ∧ k' = k) := fun h => hk h.2
    rw [SceneInfo.keys, SceneInfo.keys, modifyCond, list_modifySet_of_ne _ _ _ hne]
    exact ⟨rfl, rfl⟩

theorem SceneInfo.keys_of_eraseTruth_eq {s s' : SceneInfo} (h : s'.eraseTruth = s.eraseTruth)
    (l : Logic) (k : Kind) :
    s'.keys l k = s.keys l k ∧ (s'.list l k).counts = (s.list l k).counts := by
  obtain ⟨hentries, hcounts⟩ := entries_of_eraseTruth_eq (l := l) (k := k) h
  exact ⟨by rw [SceneInfo.keys, SceneInfo.keys, hentries], hcounts⟩

section

variable {x x' : SceneList} {a : Nat} {s s' : SceneInfo} {c : Cond k}

/-- An addition leaves the texts and counts of the other lists, though it may
change one of their conditions. -/
theorem sceneCondAdd_others {r : ErrNo} (hx : Indexed x) (hs : x.scene? a = some s)
    (hm : c.isManual l = false) (h : sceneCondAdd x a l c = some (x', r))
    (hs' : x'.scene? a = some s') (hne : ¬ (l' = l ∧ k' = k)) :
    s'.keys l' k' = s.keys l' k' ∧ (s'.list l' k').counts = (s.list l' k').counts := by
  rcases sceneCondAdd_cases h with ⟨hm', -⟩ | ⟨-, x₁, e, hfile, hrest⟩
  · rw [hm] at hm'
    cases hm'
  rcases fileCond_cases hs hfile with ⟨p, t, d, hfind, hp, ht, hd, hok, rfl⟩ |
    ⟨z, p, hfind, hadd, hok, rfl, rfl⟩ | ⟨hfind, hfull, herr, rfl, rfl⟩
  · have ha := hx.pstScene_eq hs hfind ht
    rw [ha] at ht
    obtain rfl := some.inj (hs.symm.trans ht)
    rw [ha] at hrest
    rcases hrest with ⟨hbad, -⟩ | ⟨-, hrest⟩
    · exact absurd hok hbad
    obtain ⟨t', ht', htruth⟩ :=
      truthOnly_of_sceneCondAdd (SceneList.scene?_setScene_self hs _) hp ha hrest
    obtain rfl := some.inj (hs'.symm.trans ht')
    obtain ⟨hkeys, hcounts⟩ := keys_of_eraseTruth_eq htruth.eraseTruth l' k'
    obtain ⟨hkeys', hcounts'⟩ := s.keys_modifyCond_set p c l' k'
    exact ⟨hkeys.trans hkeys', hcounts.trans hcounts'⟩
  · rcases hrest with ⟨hbad, -⟩ | ⟨-, hrest⟩
    · exact absurd hok hbad
    have hs₁ : (x.setScene a (s.setList l k z)).scene? a = some (s.setList l k z) :=
      SceneList.scene?_setScene_self hs _
    obtain ⟨t', ht', htruth⟩ := truthOnly_of_sceneCondAdd (e := newPtrNode x a s _)
      (by exact hs₁) (PtrNode.condPtr?_cond x a s p) rfl hrest
    obtain rfl := some.inj (hs'.symm.trans ht')
    obtain ⟨hkeys, hcounts⟩ := keys_of_eraseTruth_eq htruth.eraseTruth l' k'
    have hlist := list_setList_of_ne s z hne
    rw [SceneInfo.keys, SceneInfo.keys, hlist] at hkeys
    rw [hlist] at hcounts
    exact ⟨hkeys, hcounts⟩
  · rcases hrest with ⟨-, rfl⟩ | ⟨hbad, -⟩
    · obtain rfl := some.inj (hs'.symm.trans hs)
      exact ⟨rfl, rfl⟩
    · rw [herr] at hbad
      cases hbad

end

theorem sceneCondAdd_lost {x : SceneList} {a : Nat} {s : SceneInfo} {c : Cond k} {e : PtrNode}
    (hs : x.scene? a = some s) (hm : c.isManual l = false)
    (hfind : ptrHashFind x.pHashTable c.hashKey s.acSceneId = some e)
    (hlost : ∀ p, e.condPtr? k = some p → x.scene? e.pstScene = none) :
    sceneCondAdd x a l c = none := by
  cases hadd : sceneCondAdd x a l c with
  | none => rfl
  | some r =>
    obtain ⟨x', r⟩ := r
    rcases sceneCondAdd_cases hadd with ⟨hm', -⟩ | ⟨-, x₁, e', hfile, -⟩
    · rw [hm] at hm'
      cases hm'
    rcases fileCond_cases hs hfile with ⟨p, t, d, hfind', hp, ht, -⟩ | ⟨-, -, hnone, -⟩ |
      ⟨hnone, -⟩
    · obtain rfl := some.inj (hfind.symm.trans hfind')
      rw [hlost p hp] at ht
      cases ht
    · rw [hfind] at hnone
      cases hnone
    · rw [hfind] at hnone
      cases hnone

/-! ## A scene and its texts -/

/-- The texts of the four lists. -/
abbrev Shelf := Logic → Kind → List CText

/-- One text more. -/
def Shelf.put (K : Shelf) (l : Logic) (k : Kind) (key : CText) : Shelf :=
  fun l' k' => if l' = l ∧ k' = k then key :: K l' k' else K l' k'

/-- The scene at `a` is filed under the texts of `K`, and nothing else is filed for
it under a text of `U`; the other texts lead to a scene that is gone. -/
structure Shelved (U : CText → Prop) (a : Nat) (K : Shelf) (x : SceneList) (s : SceneInfo) :
    Prop where
  indexed : Indexed x
  scene : x.scene? a = some s
  keys : ∀ l k, (s.keys l k).Perm (K l k)
  counts : ∀ l k, CountsOk (s.list l k).counts
  free : ∀ key, U key → (∀ l k, key ∉ K l k) →
    ptrHashFind x.pHashTable key s.acSceneId = none
  stale : ∀ key, ¬ U key → ∃ e, ptrHashFind x.pHashTable key s.acSceneId = some e ∧ e.pstScene ≠ a

namespace Shelved

variable {U : CText → Prop} {a : Nat} {K : Shelf} {x : SceneList} {s : SceneInfo} {c : Cond k}

theorem sum_counts (h : Shelved U a K x s) (l : Logic) (k : Kind) :
    (s.list l k).counts.2.sum = (K l k).length := by
  have hplaced := h.indexed.placed _ (SceneList.mem_of_scene? h.scene)
  rw [(hplaced l k).toChained.sum_counts, ← (h.keys l k).length_eq, SceneInfo.keys,
    length_map]

theorem find (h : Shelved U a K x s) (hkey : key ∈ K l' k') :
    ∃ e p d, ptrHashFind x.pHashTable key s.acSceneId = some e ∧ e.pstScene = a ∧
      e.target = .cond ⟨k', p⟩ ∧ s.node? p = some d ∧ d.stCond.hashKey = key := by
  obtain ⟨q, hq, rfl⟩ := mem_keys.mp ((h.keys l' k').symm.subset hkey)
  obtain ⟨e, he, hea, het⟩ := h.indexed.find_of_mem_entries h.scene hq
  have hchained := (h.indexed.placed _ (SceneList.mem_of_scene? h.scene)).chained
  obtain ⟨-, d, hd, hdc⟩ := (mem_entries_iff hchained).mp hq
  exact ⟨e, q.1, d, he, hea, het, hd, by rw [hdc]⟩

theorem condPtr?_of_target {e : PtrNode} {p : CondPtr k'} (h : e.target = .cond ⟨k', p⟩) :
    e.condPtr? k' = some p := by
  rw [PtrNode.condPtr?, h]
  simp

/-- A text that is filed leads to a change, whatever list the condition is in. -/
theorem add_found (h : Shelved U a K x s) (hm : c.isManual l = false) (hkey : c.hashKey ∈ K l' k) :
    ∃ x' s', sceneCondAdd x a l c = some (x', .noErr) ∧ s'.acSceneId = s.acSceneId ∧
      Shelved U a K x' s' := by
  obtain ⟨e, p, d, hfind, hea, het, hd, -⟩ := h.find hkey
  have hp := condPtr?_of_target het
  obtain ⟨⟨x', r⟩, hadd⟩ : ∃ r, sceneCondAdd x a l c = some r := by
    refine sceneCondAdd_isSome h.indexed h.scene fun _ e' he' => ?_
    obtain rfl := some.inj (hfind.symm.trans he')
    exact ⟨p, d, hp, hea, hd⟩
  obtain ⟨s', hs', hid, -, -, hcases⟩ := sceneCondAdd_entries h.indexed h.scene hm hadd
  rcases hcases with ⟨e', p', -, -, rfl, htable, hcounts, hentries⟩ | ⟨-, -, hnone, -⟩ |
    ⟨-, hnone, -⟩
  · have hself : s'.keys l k = s.keys l k := by
      rw [SceneInfo.keys, SceneInfo.keys, hentries, List.map_map]
      apply map_congr_left
      intro q _
      simp only [Function.comp_apply]
      split
      · exact Cond.hashKey_of_identity_eq (Cond.identity_set q.2 c)
      · rfl
    have hall : ∀ l' k', s'.keys l' k' = s.keys l' k' ∧
        (s'.list l' k').counts = (s.list l' k').counts := by
      intro l' k'
      by_cases hne : l' = l ∧ k' = k
      · obtain ⟨rfl, rfl⟩ := hne
        exact ⟨hself, hcounts⟩
      · exact sceneCondAdd_others h.indexed h.scene hm hadd hs' hne
    refine ⟨x', s', hadd, hid, sceneCondAdd_indexed h.indexed hadd, hs', fun l' k' => ?_,
      fun l' k' => ?_, ?_, ?_⟩
    · rw [(hall l' k').1]
      exact h.keys l' k'
    · rw [(hall l' k').2]
      exact h.counts l' k'
    · rw [htable, hid]
      exact h.free
    · rw [htable, hid]
      exact h.stale
  · rw [hfind] at hnone
    cases hnone
  · rw [hfind] at hnone
    cases hnone

theorem add_new (h : Shelved U a K x s) (hm : c.isManual l = false) (hU : U c.hashKey)
    (hnew : ∀ l' k', c.hashKey ∉ K l' k') (hroom : (K l k).length < 1024) :
    ∃ x' s', sceneCondAdd x a l c = some (x', .noErr) ∧ s'.acSceneId = s.acSceneId ∧
      Shelved U a (K.put l k c.hashKey) x' s' := by
  have hnone := h.free c.hashKey hU hnew
  obtain ⟨⟨x', r⟩, hadd⟩ : ∃ r, sceneCondAdd x a l c = some r := by
    refine sceneCondAdd_isSome h.indexed h.scene fun _ e he => ?_
    rw [hnone] at he
    cases he
  obtain ⟨s', hs', hid, -, -, hcases⟩ := sceneCondAdd_entries h.indexed h.scene hm hadd
  obtain ⟨m, hm', hok, -⟩ := (h.counts l k).countsAdd_of_lt k (by rw [h.sum_counts]; exact hroom)
  rcases hcases with ⟨e, p, hfind, -⟩ | ⟨e, p, -, heid, -, rfl, htable, -, hcounts, hperm⟩ |
    ⟨e, -, -, -, -, -, hfull, -⟩
  · rw [hnone] at hfind
    cases hfind
  · obtain rfl := some.inj (hm'.symm.trans hcounts)
    refine ⟨x', s', hadd, hid, sceneCondAdd_indexed h.indexed hadd, hs', fun l' k' => ?_,
      fun l' k' => ?_, fun key hU' hnot => ?_, fun key hU' => ?_⟩
    · by_cases hne : l' = l ∧ k' = k
      · obtain ⟨rfl, rfl⟩ := hne
        rw [Shelf.put, if_pos ⟨rfl, rfl⟩]
        have hkeys : (s'.keys l' k').Perm (c.hashKey :: s.keys l' k') :=
          hperm.map fun q : CondPtr k' × Cond k' => q.2.hashKey
        exact hkeys.trans ((h.keys l' k').cons _)
      · rw [Shelf.put, if_neg hne, (sceneCondAdd_others h.indexed h.scene hm hadd hs' hne).1]
        exact h.keys l' k'
    · by_cases hne : l' = l ∧ k' = k
      · obtain ⟨rfl, rfl⟩ := hne
        exact hok
      · rw [(sceneCondAdd_others h.indexed h.scene hm hadd hs' hne).2]
        exact h.counts l' k'
    · have hput : ∀ l' k', key ∉ K l' k' := by
        intro l' k' hmem
        refine hnot l' k' ?_
        rw [Shelf.put]
        split
        · exact mem_cons_of_mem _ hmem
        · exact hmem
      have hne : key ≠ c.hashKey := by
        rintro rfl
        refine hnot l k ?_
        rw [Shelf.put, if_pos ⟨rfl, rfl⟩]
        exact mem_cons_self
      rw [htable, hid, ptrHashFind_ptrHashInst heid, if_neg hne]
      exact h.free key hU' hput
    · have hne : key ≠ c.hashKey := by
        rintro rfl
        exact hU' hU
      rw [htable, hid, ptrHashFind_ptrHashInst heid, if_neg hne]
      exact h.stale key hU'
  · rw [hm'] at hfull
    cases hfull

theorem add_full (h : Shelved U a K x s) (hm : c.isManual l = false) (hU : U c.hashKey)
    (hnew : ∀ l' k', c.hashKey ∉ K l' k') (hroom : ¬ (K l k).length < 1024) :
    ∃ x', sceneCondAdd x a l c = some (x', .sceneAddErr) := by
  have hnone := h.free c.hashKey hU hnew
  obtain ⟨⟨x', r⟩, hadd⟩ : ∃ r, sceneCondAdd x a l c = some r := by
    refine sceneCondAdd_isSome h.indexed h.scene fun _ e he => ?_
    rw [hnone] at he
    cases he
  obtain ⟨s', -, -, -, -, hcases⟩ := sceneCondAdd_entries h.indexed h.scene hm hadd
  have hfull := (h.counts l k).countsAdd_of_full k (by rw [h.sum_counts]; exact hroom)
  rcases hcases with ⟨e, p, hfind, -⟩ | ⟨e, p, -, -, -, -, -, -, hcounts, -⟩ |
    ⟨e, -, -, -, rfl, -⟩
  · rw [hnone] at hfind
    cases hfind
  · rw [hfull] at hcounts
    cases hcounts
  · exact ⟨x', hadd⟩

theorem add_other (h : Shelved U a K x s) (hm : c.isManual l = false) (hk : k' ≠ k)
    (hkey : c.hashKey ∈ K l' k') : sceneCondAdd x a l c = none := by
  obtain ⟨e, p, d, hfind, -, het, -⟩ := h.find hkey
  refine sceneCondAdd_lost h.scene hm hfind fun p' hp' => ?_
  rw [PtrNode.condPtr?, het] at hp'
  simp [hk] at hp'

theorem scene?_of_stale (h : Shelved U a K x s) (hU : ¬ U key) :
    ∃ e, ptrHashFind x.pHashTable key s.acSceneId = some e ∧ x.scene? e.pstScene = none := by
  obtain ⟨e, hfind, hne⟩ := h.stale key hU
  refine ⟨e, hfind, ?_⟩
  cases ht : x.scene? e.pstScene with
  | none => rfl
  | some t => exact absurd (h.indexed.pstScene_eq h.scene hfind ht) hne

theorem add_stale (h : Shelved U a K x s) (hm : c.isManual l = false) (hU : ¬ U c.hashKey) :
    sceneCondAdd x a l c = none := by
  obtain ⟨e, hfind, hgone⟩ := h.scene?_of_stale hU
  exact sceneCondAdd_lost h.scene hm hfind fun _ _ => hgone

theorem add_manual (h : Shelved U a K x s) (hm : c.isManual l = true) :
    ∃ x' s', sceneCondAdd x a l c = some (x', .noErr) ∧ s'.acSceneId = s.acSceneId ∧
      Shelved U a K x' s' := by
  refine ⟨_, { s with cManualTriggerFlag := true }, sceneCondAdd_manual h.scene hm, rfl,
    setManual_indexed h.indexed h.scene true,
    SceneList.scene?_setScene_self h.scene _, fun l' k' => ?_, fun l' k' => ?_, h.free, h.stale⟩
  · rw [SceneInfo.keys, SceneInfo.list_setManual]
    exact h.keys l' k'
  · rw [SceneInfo.list_setManual]
    exact h.counts l' k'

end Shelved

end Honyar.LocalScene
