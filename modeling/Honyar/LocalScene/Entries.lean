import Honyar.LocalScene.IntegrityRun

/-!
# A condition list as a table

The conditions of a list with the pointers to them, whatever the truth words and
counters say, and the counters that decide whether the list takes another
condition.  An addition writes one row, appends one row, or appends none because
the list is full or another list is meant.
-/

namespace Honyar.LocalScene

open CText Option List SceneInfo CondList SceneList

variable {l : Logic} {k : Kind}

/-! ## Identities -/

/-- The time key, or the device and its attribute. -/
def Cond.identity : {k : Kind} → Cond k → CText × CText
  | .time => fun c : TimeCond => (c.acTimeKey, [])
  | .event => fun c : EventCond => (c.acDevId, c.acKey)

theorem Cond.sameId_iff {c d : Cond k} : c.SameId d ↔ c.identity = d.identity := by
  cases k <;> simp [SameId, identity]

theorem Cond.identity_set (d c : Cond k) : (d.set c).identity = d.identity := by
  cases k <;> rfl

@[simp] theorem Cond.identity_passed (c : Cond k) : c.passed.identity = c.identity := by
  cases k <;> rfl

theorem Cond.identity_of_passed_eq {c d : Cond k} (h : d.passed = c.passed) :
    d.identity = c.identity := by
  cases k with
  | time =>
    have hkey := congrArg TimeCond.acTimeKey (show TimeCond.passed d = TimeCond.passed c from h)
    exact Prod.ext hkey rfl
  | event =>
    have h : d = c := h
    rw [h]

theorem Cond.hashKey_of_identity_eq {c d : Cond k} (h : d.identity = c.identity) :
    d.hashKey = c.hashKey := by
  cases k with
  | time => exact congrArg (fun i => timeHashKey i.1) h
  | event => exact congrArg (fun i => eventHashKey i.1 i.2) h

/-! ## Rows -/

/-- The conditions of a list with the pointers to them. -/
def CondList.entries (y : CondList l k) : List (CondPtr k × Cond k) :=
  y.stList.flatMap fun n => n.pstCond.map fun c => (⟨l, n.addr, c.addr⟩, c.stCond)

/-- The count the link list keeps, and those of the sets. -/
def CondList.counts (y : CondList l k) : Int × List Nat :=
  (y.iNodeNum, y.stList.map CondSetNode.ucCondCount)

theorem CondList.mem_entries {y : CondList l k} {q : CondPtr k × Cond k} :
    q ∈ y.entries ↔
      ∃ n ∈ y.stList, ∃ c ∈ n.pstCond, q = (⟨l, n.addr, c.addr⟩, c.stCond) := by
  simp only [entries, mem_flatMap, List.mem_map, eq_comm]

theorem CondList.Chained.entries_nodup {y : CondList l k} (h : y.Chained) :
    (y.entries.map Prod.fst).Nodup := by
  rw [entries, map_flatMap]
  refine nodup_flatMap.mpr ⟨fun n hn => ?_, ?_⟩
  · rw [List.map_map]
    have haddr := (h.sets n hn).addr
    rw [List.Nodup, pairwise_map] at haddr ⊢
    refine haddr.imp fun hne heq => hne ?_
    exact congrArg CondPtr.pCondNode heq
  · have haddr := h.addr
    rw [List.Nodup, pairwise_map] at haddr
    refine haddr.imp fun {n m} hne p hp hp' => hne ?_
    obtain ⟨c, -, rfl⟩ : ∃ c ∈ n.pstCond, (⟨l, n.addr, c.addr⟩ : CondPtr k) = p := by
      simpa using hp
    obtain ⟨d, -, hd⟩ : ∃ d ∈ m.pstCond, (⟨l, m.addr, d.addr⟩ : CondPtr k) =
        ⟨l, n.addr, c.addr⟩ := by
      simpa using hp'
    exact (congrArg CondPtr.pCondSetNode hd).symm

theorem SceneInfo.mem_entries_iff {s : SceneInfo} (hs : s.Chained) {p : CondPtr k} {c : Cond k} :
    (p, c) ∈ (s.list l k).entries ↔
      p.acLogic = l ∧ ∃ d, s.node? p = some d ∧ d.stCond = c := by
  rw [mem_entries]
  constructor
  · rintro ⟨n, hn, d, hd, heq⟩
    obtain ⟨rfl, rfl⟩ := Prod.mk.inj heq
    refine ⟨rfl, d, ?_, rfl⟩
    rw [node?, show s.set? ⟨l, n.addr, d.addr⟩ = some n from
      (Keyed.find?_eq_some_iff (hs l k).addr).mpr ⟨hn, rfl⟩]
    exact (((hs l k).sets n hn).node?_eq_some).mpr ⟨hd, rfl⟩
  · rintro ⟨rfl, d, hd, rfl⟩
    simp only [node?, bind_eq_bind, bind_eq_some_iff] at hd
    obtain ⟨n, hn, hd⟩ := hd
    obtain ⟨hn, hna⟩ := Keyed.mem_and_key_of_find? hn
    obtain ⟨hd, hda⟩ := Keyed.mem_and_key_of_find? hd
    exact ⟨n, hn, d, hd, by rw [hna, hda]⟩

theorem SceneInfo.has_iff_mem_entries {s : SceneInfo} {p : CondPtr k} {key : CText} :
    s.Has ⟨k, p⟩ key ↔
      ∃ c, (p, c) ∈ (s.list p.acLogic k).entries ∧ c.hashKey = key := by
  constructor
  · rintro ⟨n, hn, hna, c, hc, hca, hkey⟩
    exact ⟨c.stCond, mem_entries.mpr ⟨n, hn, c, hc, by rw [hna, hca]⟩, hkey⟩
  · rintro ⟨c, hc, hkey⟩
    obtain ⟨n, hn, d, hd, heq⟩ := mem_entries.mp hc
    obtain ⟨hp, rfl⟩ := Prod.mk.inj heq
    exact ⟨n, hn, by rw [hp], d, hd, by rw [hp], hkey⟩

/-! ## Writes -/

theorem entries_of_eraseTruth_eq {s s' : SceneInfo} (h : s'.eraseTruth = s.eraseTruth) :
    (s'.list l k).entries = (s.list l k).entries ∧ (s'.list l k).counts = (s.list l k).counts := by
  have hlist : ((s'.list l k).eraseTruth : CondList l k) = (s.list l k).eraseTruth := by
    rw [← list_eraseTruth, h, list_eraseTruth]
  have hentries : ∀ y : CondList l k, y.eraseTruth.entries = y.entries := by
    intro y
    rw [CondList.entries, CondList.entries, CondList.eraseTruth, flatMap_map]
    rfl
  have hcounts : ∀ y : CondList l k, y.eraseTruth.counts = y.counts := by
    intro y
    rw [CondList.counts, CondList.counts, CondList.eraseTruth, List.map_map]
    rfl
  exact ⟨by rw [← hentries, hlist, hentries], by rw [← hcounts, hlist, hcounts]⟩

/-- A write through a pointer writes its row, if the list has it. -/
theorem entries_modifyCond (s : SceneInfo) (p : CondPtr k) (f : Cond k → Cond k) :
    ((s.modifyCond p f).list l k).entries =
        (s.list l k).entries.map (fun q => if q.1 = p then (q.1, f q.2) else q) ∧
      ((s.modifyCond p f).list l k).counts = (s.list l k).counts := by
  by_cases hl : l = p.acLogic
  · subst hl
    rw [modifyCond, list_modifySet_self]
    constructor
    · rw [CondList.entries, CondList.entries, CondList.modifySet, flatMap_map,
        map_flatMap]
      congr 1
      funext n
      by_cases hn : n.addr = p.pCondSetNode
      · rw [if_pos hn, CondSetNode.modifyNode, List.map_map, List.map_map]
        congr 1
        funext c
        simp only [Function.comp_apply]
        by_cases hc : c.addr = p.pCondNode
        · rw [if_pos hc, if_pos (by rw [hn, hc])]
        · rw [if_neg hc, if_neg fun heq => hc (congrArg CondPtr.pCondNode heq)]
      · rw [if_neg hn, List.map_map]
        congr 1
        funext c
        rw [Function.comp_apply, if_neg fun heq => hn (congrArg CondPtr.pCondSetNode heq)]
    · rw [CondList.counts, CondList.counts, CondList.modifySet, List.map_map]
      congr 2
      funext n
      simp only [Function.comp_apply]
      split <;> rfl
  · have hne : ¬ (l = p.acLogic ∧ k = k) := fun h => hl h.1
    rw [modifyCond, list_modifySet_of_ne _ _ _ hne]
    refine ⟨?_, rfl⟩
    symm
    nth_rewrite 2 [← List.map_id (s.list l k).entries]
    apply map_congr_left
    intro q hq
    obtain ⟨n, -, c, -, rfl⟩ := CondList.mem_entries.mp hq
    rw [if_neg fun heq => hl (congrArg CondPtr.acLogic heq)]
    rfl

/-! ## Room -/

/-- Counts one condition more in the first set that has room. -/
def fillFirst : List Nat → List Nat
  | [] => []
  | n :: ns => if n < 32 then (n + 1) :: ns else n :: fillFirst ns

/-- The counts once a condition is added: `none` when the list is full. -/
def countsAdd (k : Kind) (m : Int × List Nat) : Option (Int × List Nat) :=
  if m.1 ≠ 0 ∧ ∃ n ∈ m.2, n < 32 then some (m.1, fillFirst m.2)
  else if m.1 ≥ 32 then none
  else some (m.1 + 1, k.instSet m.2 1)

/-- The list has room for `i` more conditions. -/
def Takes (k : Kind) : Nat → Int × List Nat → Prop
  | 0, _ => True
  | i + 1, m => ∃ m', countsAdd k m = some m' ∧ Takes k i m'

theorem fillFirst_append {ns ms : List Nat} {n : Nat} (hns : ∀ m ∈ ns, ¬ m < 32) (hn : n < 32) :
    fillFirst (ns ++ n :: ms) = ns ++ (n + 1) :: ms := by
  induction ns with
  | nil => exact if_pos hn
  | cons m ns ih =>
    rw [cons_append, fillFirst, if_neg (hns m mem_cons_self),
      ih fun m' hm' => hns m' (mem_cons_of_mem m hm'), cons_append]

namespace CondList

variable {y y' : CondList l k} {heap : Nat} {c : Cond k} {p : CondPtr k}

theorem entries_of_bare_eq {ns : List (CondSetNode k)}
    (h : y.stList.map CondSetNode.bare = ns.map CondSetNode.bare) :
    y.entries = ns.flatMap (fun n => n.pstCond.map fun c => (⟨l, n.addr, c.addr⟩, c.stCond)) ∧
      y.stList.map CondSetNode.ucCondCount = ns.map CondSetNode.ucCondCount := by
  have hrows : ∀ ms : List (CondSetNode k),
      (ms.map CondSetNode.bare).flatMap
          (fun n => n.pstCond.map fun c => ((⟨l, n.addr, c.addr⟩ : CondPtr k), c.stCond)) =
        ms.flatMap fun n => n.pstCond.map fun c => (⟨l, n.addr, c.addr⟩, c.stCond) := by
    intro ms
    rw [flatMap_map]
    rfl
  have hcounts : ∀ ms : List (CondSetNode k),
      (ms.map CondSetNode.bare).map CondSetNode.ucCondCount =
        ms.map CondSetNode.ucCondCount := by
    intro ms
    rw [List.map_map]
    rfl
  exact ⟨by rw [entries, ← hrows, h, hrows], by rw [← hcounts, h, hcounts]⟩

theorem find?_walk_eq_none :
    (y.walk.find? fun n => n.ucCondCount < 32) = none ↔
      ¬ (y.counts.1 ≠ 0 ∧ ∃ m ∈ y.counts.2, m < 32) := by
  rw [walk, counts]
  split
  · rename_i hzero
    simp [hzero]
  · rename_i hnum
    simp [hnum]

theorem condAdd_entries (hy : y.Placed heap) (h : y.condAdd heap c = some (y', p)) :
    y'.entries.Perm ((p, c) :: y.entries) ∧ countsAdd k y.counts = some y'.counts := by
  rw [condAdd] at h
  split at h
  · -- a set has room
    rename_i n hfind
    simp only [some.injEq, Prod.mk.injEq] at h
    obtain ⟨rfl, rfl⟩ := h
    have hnum : y.iNodeNum ≠ 0 := by
      intro hzero
      rw [walk, if_pos hzero] at hfind
      cases hfind
    rw [walk, if_neg hnum] at hfind
    obtain ⟨hroom, ns, ms, hsplit, hfull⟩ := find?_eq_some_iff_append.mp hfind
    have hroom : n.ucCondCount < 32 := by simpa using hroom
    have haddr := hy.addr
    rw [hsplit] at haddr
    have hlist : (y.addCond n.addr (heap + 1) c).stList =
        ns ++ n.addNode (heap + 1) c :: ms := by
      show (y.stList.map fun m => if m.addr = n.addr then m.addNode (heap + 1) c else m) = _
      rw [hsplit]
      exact Keyed.map_write_split haddr
    constructor
    · rw [entries, entries, hlist, hsplit, flatMap_append, flatMap_append,
        flatMap_cons, flatMap_cons, CondSetNode.addNode, map_append,
        map_singleton, append_assoc, singleton_append, ← append_assoc]
      refine perm_middle.trans ?_
      rw [append_assoc]
    · have hfull' : ∀ m ∈ ns.map CondSetNode.ucCondCount, ¬ m < 32 := by
        intro m hm
        obtain ⟨n', hn', rfl⟩ := List.mem_map.mp hm
        simpa using hfull n' hn'
      have hany : y.counts.1 ≠ 0 ∧ ∃ m ∈ y.counts.2, m < 32 :=
        ⟨hnum, n.ucCondCount, List.mem_map_of_mem (hsplit ▸ by simp), hroom⟩
      rw [countsAdd, if_pos hany, counts, counts, hlist, hsplit, map_append,
        map_cons, fillFirst_append hfull' hroom, map_append, map_cons]
      rfl
  · -- a set is opened
    rename_i hnone
    split at h
    · cases h
    rename_i hnum
    simp only [some.injEq, Prod.mk.injEq] at h
    obtain ⟨rfl, rfl⟩ := h
    obtain ⟨hentries, hcounts⟩ := entries_of_bare_eq (l := l) (openSet_bare hy c)
    constructor
    · rw [hentries, entries]
      exact (k.perm_instSet _ _).flatMap_right _
    · have hsets : (k.instSet y.stList (.single heap 0 c)).map CondSetNode.ucCondCount =
          k.instSet (y.stList.map CondSetNode.ucCondCount) 1 := by
        cases k with
        | time => rw [Kind.instSet, map_append]; rfl
        | event => rfl
      have hnum' : ¬ y.counts.1 ≥ 32 := hnum
      rw [countsAdd, if_neg (find?_walk_eq_none.mp hnone), if_neg hnum', counts, counts, hcounts,
        hsets]
      have hcount : ((y.instSet (.new heap)).addCond heap (heap + 1) c).iNodeNum =
          y.iNodeNum + 1 := iNodeNum_updateIndex _
      rw [hcount]

theorem countsAdd_of_condAdd (h : y.condAdd heap c = none) : countsAdd k y.counts = none := by
  rw [condAdd] at h
  split at h
  · cases h
  · rename_i hnone
    split at h
    · rename_i hnum
      have hnum' : y.counts.1 ≥ 32 := hnum
      rw [countsAdd, if_neg (find?_walk_eq_none.mp hnone), if_pos hnum']
    · cases h

end CondList

/-! ## Additions -/

section

variable {x x' : SceneList} {a : Nat} {s : SceneInfo} {c : Cond k}

theorem Indexed.find_of_mem_entries (hx : Indexed x) (hs : x.scene? a = some s)
    {q : CondPtr k × Cond k} (hq : q ∈ (s.list l k).entries) :
    ∃ e, ptrHashFind x.pHashTable q.2.hashKey s.acSceneId = some e ∧ e.pstScene = a ∧
      e.target = .cond ⟨k, q.1⟩ := by
  have hlogic : q.1.acLogic = l := by
    obtain ⟨n, -, d, -, rfl⟩ := mem_entries.mp hq
    rfl
  have hhas : s.Has ⟨k, q.1⟩ q.2.hashKey :=
    has_iff_mem_entries.mpr ⟨q.2, by rw [hlogic]; exact hq, rfl⟩
  obtain ⟨e, he, hea, hep⟩ := hx.filed _ (mem_of_scene? hs) _ _ hhas
  refine ⟨e, ?_, hea, hep⟩
  cases hfind : ptrHashFind x.pHashTable q.2.hashKey s.acSceneId with
  | none => exact absurd (hx.filedAs_eq hs he hea) (filedAs_ne_of_ptrHashFind hfind he)
  | some f =>
    obtain ⟨hf, hid⟩ := mem_of_ptrHashFind hfind
    have hsame := Keyed.eq_of_key_eq hx.unique hf he (by
      rw [hx.filedAs_eq hs he hea, filedAs, hid])
    exact congrArg (fun g => some g.2) hsame

theorem Indexed.eq_of_hashKey_eq (hx : Indexed x) (hs : x.scene? a = some s)
    {q r : CondPtr k × Cond k} (hq : q ∈ (s.list l k).entries) (hr : r ∈ (s.list l k).entries)
    (h : q.2.hashKey = r.2.hashKey) : q = r := by
  obtain ⟨e, he, -, hep⟩ := hx.find_of_mem_entries hs hq
  obtain ⟨f, hf, -, hfp⟩ := hx.find_of_mem_entries hs hr
  rw [h, hf, some.injEq] at he
  rw [he, hep] at hfp
  have hplaced := hx.placed _ (mem_of_scene? hs)
  refine Keyed.eq_of_key_eq (hplaced l k).entries_nodup hq hr ?_
  simpa using PtrTarget.cond.inj hfp

theorem SceneInfo.cManualTriggerFlag_setList (s : SceneInfo) (y : CondList l k) :
    (s.setList l k y).cManualTriggerFlag = s.cManualTriggerFlag := by
  cases l <;> cases k <;> rfl

theorem pHashTable_of_sceneCondAdd {x₁ : SceneList} {e : PtrNode}
    (h : (∃ b, x₁.condTrueInit k e b = some x') ∨
      ∃ s₁, x₁.scene? a = some s₁ ∧ x' = x₁.setScene a (s₁.setListTrue l k false)) :
    x'.pHashTable = x₁.pHashTable ∧ x'.heap = x₁.heap := by
  rcases h with ⟨b, h⟩ | ⟨s₁, -, rfl⟩
  · simp only [SceneList.condTrueInit, bind_eq_bind, bind_eq_some_iff,
      Option.pure_def, some.injEq] at h
    obtain ⟨p, -, t, -, t', -, rfl⟩ := h
    exact ⟨rfl, rfl⟩
  · exact ⟨rfl, rfl⟩

/-- What an addition leaves of the addressed list: the row the hash table leads
to is written, a row is appended and filed, or the list is full. -/
theorem sceneCondAdd_entries {r : ErrNo} (hx : Indexed x) (hs : x.scene? a = some s)
    (hm : c.isManual l = false) (h : sceneCondAdd x a l c = some (x', r)) :
    ∃ s', x'.scene? a = some s' ∧ s'.acSceneId = s.acSceneId ∧
      s'.cManualTriggerFlag = s.cManualTriggerFlag ∧ x.heap ≤ x'.heap ∧
      ((∃ e p, ptrHashFind x.pHashTable c.hashKey s.acSceneId = some e ∧
          e.condPtr? k = some p ∧ r = .noErr ∧ x'.pHashTable = x.pHashTable ∧
          (s'.list l k).counts = (s.list l k).counts ∧
          (s'.list l k).entries =
            (s.list l k).entries.map fun q => if q.1 = p then (q.1, q.2.set c) else q) ∨
        (∃ e p, ptrHashFind x.pHashTable c.hashKey s.acSceneId = none ∧
          e.acId = strncpy indexMaxLen s.acSceneId ∧ e.target = .cond ⟨k, p⟩ ∧ r = .noErr ∧
          x'.pHashTable = ptrHashInst x.pHashTable c.hashKey e ∧ x.heap ≤ p.pCondNode ∧
          countsAdd k (s.list l k).counts = some (s'.list l k).counts ∧
          (s'.list l k).entries.Perm ((p, c) :: (s.list l k).entries)) ∨
        ∃ e, ptrHashFind x.pHashTable c.hashKey s.acSceneId = none ∧
          e.acId = strncpy indexMaxLen s.acSceneId ∧ e.target = .null ∧ r = .sceneAddErr ∧
          x'.pHashTable = ptrHashInst x.pHashTable c.hashKey e ∧
          countsAdd k (s.list l k).counts = none ∧ s' = s) := by
  rcases sceneCondAdd_cases h with ⟨hm', -⟩ | ⟨-, x₁, e, hfile, hrest⟩
  · rw [hm] at hm'
    cases hm'
  rcases fileCond_cases hs hfile with ⟨p, t, d, hfind, hp, ht, hd, hok, rfl⟩ |
    ⟨z, p, hfind, hadd, hok, rfl, rfl⟩ | ⟨hfind, hfull, herr, rfl, rfl⟩
  · -- the condition filed under the text is changed where it stands
    have ha := hx.pstScene_eq hs hfind ht
    rw [ha] at ht
    obtain rfl := some.inj (hs.symm.trans ht)
    rw [ha] at hrest
    rcases hrest with ⟨hbad, -⟩ | ⟨-, hrest⟩
    · exact absurd hok hbad
    obtain ⟨s', hs', htruth⟩ :=
      truthOnly_of_sceneCondAdd (scene?_setScene_self hs _) hp ha hrest
    obtain ⟨htable, hheap⟩ := pHashTable_of_sceneCondAdd hrest
    obtain ⟨hentries, hcounts⟩ := entries_of_eraseTruth_eq (l := l) (k := k) htruth.eraseTruth
    obtain ⟨hentries', hcounts'⟩ := entries_modifyCond (l := l) s p fun d => d.set c
    refine ⟨s', hs', ?_, ?_, hheap.ge, .inl ⟨e, p, hfind, hp, hok, htable, hcounts.trans hcounts',
      hentries.trans hentries'⟩⟩
    · exact (congrArg acSceneId htruth.eraseTruth).trans
        (acSceneId_setList ..)
    · exact (congrArg cManualTriggerFlag htruth.eraseTruth).trans
        (cManualTriggerFlag_setList ..)
  · -- the condition is added and filed
    rcases hrest with ⟨hbad, -⟩ | ⟨-, hrest⟩
    · exact absurd hok hbad
    have hs₁ : (x.setScene a (s.setList l k z)).scene? a = some (s.setList l k z) :=
      scene?_setScene_self hs _
    obtain ⟨s', hs', htruth⟩ := truthOnly_of_sceneCondAdd (e := newPtrNode x a s _)
      (by exact hs₁) (PtrNode.condPtr?_cond x a s p) rfl hrest
    obtain ⟨htable, hheap⟩ := pHashTable_of_sceneCondAdd hrest
    obtain ⟨hentries, hcounts⟩ := entries_of_eraseTruth_eq (l := l) (k := k) htruth.eraseTruth
    rw [list_setList_self] at hentries hcounts
    have hplaced := hx.placed _ (mem_of_scene? hs)
    obtain ⟨hperm, hadd'⟩ := condAdd_entries (hplaced l k) hadd
    refine ⟨s', hs', ?_, ?_, hheap.symm ▸ Nat.le_add_right _ 3,
      .inr (.inl ⟨_, p, hfind, rfl, rfl, hok,
      htable, ?_, hcounts.symm ▸ hadd', hentries.symm ▸ hperm⟩)⟩
    · exact (congrArg acSceneId htruth.eraseTruth).trans
        (acSceneId_setList ..)
    · exact (congrArg cManualTriggerFlag htruth.eraseTruth).trans
        (cManualTriggerFlag_setList ..)
    · rw [condAdd_pCondNode hadd]
      exact Nat.le_succ _
  · -- the list is full
    rcases hrest with ⟨-, rfl⟩ | ⟨hbad, -⟩
    · exact ⟨s, hs, rfl, rfl, Nat.le_add_right _ 3, .inr (.inr ⟨_, hfind, rfl, rfl, herr, rfl,
        countsAdd_of_condAdd hfull, rfl⟩)⟩
    · rw [herr] at hbad
      cases hbad

theorem fileCond_isSome (hs : x.scene? a = some s)
    (h : ∀ e, ptrHashFind x.pHashTable c.hashKey s.acSceneId = some e →
      ∃ p d, e.condPtr? k = some p ∧ e.pstScene = a ∧ s.node? p = some d) :
    ∃ r, fileCond x a l c = some r := by
  cases hfind : ptrHashFind x.pHashTable c.hashKey s.acSceneId with
  | some e =>
    obtain ⟨p, d, hp, ha, hd⟩ := h e hfind
    simp only [fileCond, hs, bind_eq_bind, bind_some, hfind, hp, ha, hd,
      Option.pure_def]
    exact ⟨_, rfl⟩
  | none =>
    cases hadd : (s.list l k).condAdd x.heap c with
    | none =>
      simp only [fileCond, hs, bind_eq_bind, bind_some, hfind, hadd,
        Option.pure_def]
      exact ⟨_, rfl⟩
    | some q =>
      simp only [fileCond, hs, bind_eq_bind, bind_some, hfind, hadd,
        Option.pure_def]
      exact ⟨_, rfl⟩

/-- The node that was filed or found leads to a condition of the scene. -/
theorem node?_of_fileCond {x₁ : SceneList} {e : PtrNode} (hx : Indexed x)
    (hs : x.scene? a = some s) (h : fileCond x a l c = some (x₁, .noErr, e)) :
    ∃ p s₁ d, e.condPtr? k = some p ∧ e.pstScene = a ∧ x₁.scene? a = some s₁ ∧
      s₁.node? p = some d := by
  have hx₁ := fileCond_indexed hx h
  rcases fileCond_cases hs h with ⟨p, t, d, hfind, hp, ht, hd, -, rfl⟩ |
    ⟨z, p, hfind, hadd, -, rfl, rfl⟩ | ⟨-, -, hbad, -, -⟩
  · have ha := hx.pstScene_eq hs hfind ht
    rw [ha] at ht ⊢
    obtain rfl := some.inj (hs.symm.trans ht)
    refine ⟨p, _, { d with stCond := d.stCond.set c }, hp, rfl,
      scene?_setScene_self hs _, ?_⟩
    rw [node?_modifyCond_self, hd]
    rfl
  · have hs₁ : (x.setScene a (s.setList l k z)).scene? a = some (s.setList l k z) :=
      scene?_setScene_self hs _
    have hplaced := hx.placed _ (mem_of_scene? hs)
    obtain ⟨hperm, -⟩ := condAdd_entries (hplaced l k) hadd
    have hmem : (p, c) ∈ ((s.setList l k z).list l k).entries := by
      rw [list_setList_self]
      exact hperm.symm.subset mem_cons_self
    have hchained := (hx₁.placed _ (mem_of_scene? (s := s.setList l k z) hs₁)).chained
    obtain ⟨-, d, hd, -⟩ := (mem_entries_iff hchained).mp hmem
    exact ⟨p, _, d, PtrNode.condPtr?_cond x a s p, rfl, hs₁, hd⟩
  · cases hbad

theorem sceneCondAdd_manual (hs : x.scene? a = some s) (hm : c.isManual l = true) :
    sceneCondAdd x a l c =
      some (x.setScene a { s with cManualTriggerFlag := true }, .noErr) := by
  cases k with
  | time => cases hm
  | event =>
    obtain ⟨rfl, hflag⟩ : l = .or ∧ EventCond.isManual c = true := by
      simpa [Cond.isManual] using hm
    simp only [sceneCondAdd, sceneEventOrCondAdd, hs, bind_eq_bind, bind_some,
      Option.pure_def]
    exact if_pos hflag

/-- An addition goes through when nothing is filed under its text, or a condition
of the scene. -/
theorem sceneCondAdd_isSome (hx : Indexed x) (hs : x.scene? a = some s)
    (h : c.isManual l = false → ∀ e, ptrHashFind x.pHashTable c.hashKey s.acSceneId = some e →
      ∃ p d, e.condPtr? k = some p ∧ e.pstScene = a ∧ s.node? p = some d) :
    ∃ r, sceneCondAdd x a l c = some r := by
  cases hm : c.isManual l with
  | true => exact ⟨_, sceneCondAdd_manual hs hm⟩
  | false =>
    obtain ⟨⟨x₁, iRet, e⟩, hfile⟩ := fileCond_isSome (l := l) hs (h hm)
    have hrest : iRet = .noErr → (∃ s₁, x₁.scene? a = some s₁) ∧
        ∀ b, ∃ x', x₁.condTrueInit k e b = some x' := by
      rintro rfl
      obtain ⟨p, s₁, d, hp, ha, hs₁, hd⟩ := node?_of_fileCond hx hs hfile
      refine ⟨⟨s₁, hs₁⟩, fun b => ?_⟩
      simp only [node?, bind_eq_bind, bind_eq_some_iff] at hd
      obtain ⟨n, hn, hd⟩ := hd
      simp only [SceneList.condTrueInit, hp, ha, hs₁, bind_eq_bind, bind_some,
        condTrueInit_eq hn hd, Option.pure_def]
      exact ⟨_, rfl⟩
    by_cases hev : l = .and ∧ k = .event
    · obtain ⟨rfl, rfl⟩ := hev
      simp only [sceneCondAdd, sceneEventAndCondAdd, hfile, bind_eq_bind,
        bind_some]
      split
      · rename_i hok
        obtain ⟨⟨s₁, hs₁⟩, htrue⟩ := hrest hok
        obtain ⟨x', hx'⟩ := htrue (Cond.initTrue (k := .event) c)
        simp only [hs₁, bind_some]
        split
        · exact ⟨_, rfl⟩
        · rw [hx']
          exact ⟨_, rfl⟩
      · exact ⟨_, rfl⟩
    · have hgen : sceneCondAdd x a l c = condAdd x a l c := by
        cases l <;> cases k <;>
          simp_all [sceneCondAdd, sceneTimeOrCondAdd, sceneEventOrCondAdd, sceneTimeAndCondAdd,
            Cond.isManual]
      rw [hgen, condAdd, hfile, bind_eq_bind, bind_some]
      show ∃ r, (if iRet = .noErr then _ else _) = some r
      split
      · rename_i hok
        obtain ⟨x', hx'⟩ := (hrest hok).2 c.initTrue
        rw [hx']
        exact ⟨_, rfl⟩
      · exact ⟨_, rfl⟩

end

end Honyar.LocalScene
