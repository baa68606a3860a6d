import Honyar.LocalScene.DelAll

/-!
# The event conditions of a device

`scene_list_dev_unregister` copies the first 128 event conditions of a list and
deletes those of the device one after the other.  `DevSafe` is when that leaves
the list without the device and its other conditions as they are.
-/

namespace Honyar.LocalScene

open CText Option List CondList

variable {l : Logic}
variable {p : CondPtr .event} {n : CondSetNode .event}

/-- `!strncmp(acDevId, pDevId, DEV_ID_MAX_LEN)`. -/
def isDev (pDevId acDevId : CText) : Bool := strncmpEq devIdMaxLen acDevId pDevId

/-- The condition is one of the device. -/
def EventCond.isOf (pDevId : CText) (c : EventCond) : Bool := isDev pDevId c.acDevId

/-! ## Lists -/

/-- The conditions of a set that are not of the device. -/
def CondSetNode.kept (n : CondSetNode .event) (pDevId : CText) : List (CondNode .event) :=
  n.pstCond.filter fun c => !EventCond.isOf pDevId c.stCond

namespace CondList

/-- `event_cond_get_list`: the array holds so many conditions. -/
def condGetList (y : CondList l .event) (iDevMaxNum : Nat) : List EventCond :=
  y.conds.take iDevMaxNum

/-- Where the conditions of the device are that are copied. -/
def devPtrs (y : CondList l .event) (pDevId : CText) : List (CondPtr .event) :=
  ((y.entries.take condMaxNum).filter fun q => EventCond.isOf pDevId q.2).map Prod.fst

/-- When the deletions take the device out of the list and nothing else: no
condition of the device is behind the array, a set that has no other conditions
is alone in its list, and in every other set the truths of the conditions that
stay are the first bits of its word. -/
structure DevSafe (y : CondList l .event) (pDevId : CText) : Prop where
  copied : ∀ c ∈ y.conds.drop condMaxNum, EventCond.isOf pDevId c = false
  sets : ∀ n ∈ y.stList, n.kept pDevId = [] → y.stList = [n]
  bits : ∀ n ∈ y.stList, (n.kept pDevId).map (fun c => n.uiCondTrue.getLsbD c.iCondIndex) =
    (List.range (n.kept pDevId).length).map n.uiCondTrue.getLsbD

/-- All conditions of the list, and there are some, are of the device. -/
def Swept (y : CondList l .event) (pDevId : CText) : Prop :=
  y.stList ≠ [] ∧ ∀ n ∈ y.stList, n.kept pDevId = []

/-- No condition of the list is of the device. -/
def Spared (y : CondList l .event) (pDevId : CText) : Prop :=
  ∀ c ∈ y.conds, EventCond.isOf pDevId c = false

instance (y : CondList l .event) (pDevId : CText) : Decidable (y.Swept pDevId) :=
  inferInstanceAs (Decidable (_ ∧ _))

instance (y : CondList l .event) (pDevId : CText) : Decidable (y.Spared pDevId) :=
  inferInstanceAs (Decidable (∀ _ ∈ _, _))

section

variable {y : CondList l .event} {pDevId : CText} {q : CondPtr .event × Cond .event}

theorem Wf.conds_eq (hy : y.Wf) : y.conds = y.entries.map Prod.snd :=
  Counted.conds_eq hy.size

theorem mem_devPtrs (hp : p ∈ y.devPtrs pDevId) :
    ∃ c, (p, c) ∈ y.entries.take condMaxNum ∧ EventCond.isOf pDevId c = true := by
  obtain ⟨⟨p, c⟩, hq, rfl⟩ := List.mem_map.mp hp
  obtain ⟨hq, hof⟩ := mem_filter.mp hq
  exact ⟨c, hq, hof⟩

theorem Wf.devPtrs_nodup (hy : y.Wf) (pDevId : CText) : (y.devPtrs pDevId).Nodup :=
  ((filter_sublist.trans (take_sublist _ _)).map _).nodup hy.chained.entries_nodup

theorem Wf.isOf_of_mem_devPtrs (hy : y.Wf) (hq : q ∈ y.entries) (hp : q.1 ∈ y.devPtrs pDevId) :
    q ∈ y.entries.take condMaxNum ∧ EventCond.isOf pDevId q.2 = true := by
  obtain ⟨c, hc, hof⟩ := mem_devPtrs hp
  have heq := Keyed.eq_of_key_eq hy.chained.entries_nodup hq (mem_of_mem_take hc) rfl
  rw [heq]
  exact ⟨hc, hof⟩

theorem Wf.notMem_drop (hy : y.Wf) (hq : q ∈ y.entries.take condMaxNum) :
    q ∉ y.entries.drop condMaxNum := by
  intro hq'
  have hnodup := hy.chained.entries_nodup.of_map
  rw [← take_append_drop condMaxNum y.entries, nodup_append] at hnodup
  exact hnodup.2.2 q hq q hq' rfl

theorem Wf.copied_iff (hy : y.Wf) :
    (∀ c ∈ y.conds.drop condMaxNum, EventCond.isOf pDevId c = false) ↔
      ∀ q ∈ y.entries, EventCond.isOf pDevId q.2 = true → q.1 ∈ y.devPtrs pDevId := by
  rw [hy.conds_eq, ← map_drop, List.forall_mem_map]
  constructor
  · intro h q hq hof
    rw [← take_append_drop condMaxNum y.entries] at hq
    rcases mem_append.mp hq with hq | hq
    · exact List.mem_map_of_mem (mem_filter.mpr ⟨hq, hof⟩)
    · rw [h q hq] at hof
      cases hof
  · intro h q hq
    by_contra hof
    rw [Bool.not_eq_false] at hof
    have hmem := mem_of_mem_drop hq
    exact hy.notMem_drop (hy.isOf_of_mem_devPtrs hmem (h q hmem hof)).1 hq

theorem kept_eq_nil : n.kept pDevId = [] ↔ ∀ q ∈ n.rows l, EventCond.isOf pDevId q.2 = true := by
  rw [CondSetNode.kept, filter_eq_nil_iff, CondSetNode.rows, List.forall_mem_map]
  simp

theorem kept_rows :
    (n.rows l).filter (fun q => !EventCond.isOf pDevId q.2) =
      (n.kept pDevId).map fun c => (⟨l, n.addr, c.addr⟩, c.stCond) := by
  rw [CondSetNode.rows, List.filter_map]
  rfl

theorem mem_entries_of_mem_rows (hn : n ∈ y.stList) (hq : q ∈ n.rows l) : q ∈ y.entries :=
  mem_flatMap.mpr ⟨n, hn, hq⟩

theorem Wf.filter_devPtrs (hy : y.Wf)
    (hcopied : ∀ c ∈ y.conds.drop condMaxNum, EventCond.isOf pDevId c = false)
    (hq : q ∈ y.entries) :
    decide (q.1 ∉ y.devPtrs pDevId) = !EventCond.isOf pDevId q.2 := by
  have hiff : q.1 ∈ y.devPtrs pDevId ↔ EventCond.isOf pDevId q.2 = true :=
    ⟨fun hp => (hy.isOf_of_mem_devPtrs hq hp).2, hy.copied_iff.mp hcopied q hq⟩
  rw [decide_not]
  congr 1
  rw [Bool.eq_iff_iff, decide_eq_true_eq]
  exact hiff

end

end CondList

/-! ## Scenes -/

namespace SceneInfo

variable {s s' : SceneInfo} {pDevId : CText}

/-- The device is out of the list, and the other conditions read what they
read. -/
structure Clean (s : SceneInfo) (l : Logic) (pDevId : CText) (s' : SceneInfo) : Prop where
  entries : (s'.list l .event).entries =
    (s.list l .event).entries.filter fun q => !EventCond.isOf pDevId q.2
  reads : ∀ q ∈ s'.ptrs l .event, s'.condTrue q = s.condTrue q

theorem mem_ptrs_of_mem_devPtrs (hp : p ∈ (s.list l .event).devPtrs pDevId) :
    p ∈ s.ptrs l .event := by
  obtain ⟨c, hc, -⟩ := mem_devPtrs hp
  rw [ptrs_eq]
  exact List.mem_map_of_mem (mem_of_mem_take hc)

theorem clean_cut_iff (hw : s.Wf)
    (hcut : s.Cut l ((s.list l .event).devPtrs pDevId) s')
    (hkeep : ∀ n ∈ (s.list l .event).stList,
      ∃ q ∈ n.rows l, q.1 ∉ (s.list l .event).devPtrs pDevId) :
    s.Clean l pDevId s' ↔ (s.list l .event).DevSafe pDevId := by
  have hy := hw l .event
  have hbits (hcopied : ∀ c ∈ (s.list l .event).conds.drop condMaxNum,
      EventCond.isOf pDevId c = false) : (∀ q ∈ s'.ptrs l .event, s'.condTrue q = s.condTrue q) ↔
        ∀ n ∈ (s.list l .event).stList,
          (n.kept pDevId).map (fun c => n.uiCondTrue.getLsbD c.iCondIndex) =
            (List.range (n.kept pDevId).length).map n.uiCondTrue.getLsbD := by
    rw [hcut.reads_iff]
    refine forall₂_congr fun n hn => ?_
    have hrows : (n.rows l).filter (fun q => q.1 ∉ (s.list l .event).devPtrs pDevId) =
        (n.kept pDevId).map fun c => (⟨l, n.addr, c.addr⟩, c.stCond) := by
      rw [← kept_rows]
      exact filter_congr fun q hq =>
        hy.filter_devPtrs hcopied (mem_entries_of_mem_rows hn hq)
    have hread : (n.kept pDevId).map (fun c => s.condTrue (⟨l, n.addr, c.addr⟩ : CondPtr .event)) =
        (n.kept pDevId).map fun c => n.uiCondTrue.getLsbD c.iCondIndex := by
      refine map_congr_left fun c hc => ?_
      have hmem := mem_of_mem_filter hc
      exact condTrue_eq (p := ⟨l, n.addr, c.addr⟩) (hy.set?_eq_some.mpr ⟨hn, rfl⟩)
        ((hy.sets n hn).node?_eq_some.mpr ⟨hmem, rfl⟩)
    rw [hrows, List.map_map, length_map, ← hread]
    rfl
  constructor
  · rintro ⟨hentries, hreads⟩
    have hcopied : ∀ c ∈ (s.list l .event).conds.drop condMaxNum,
        EventCond.isOf pDevId c = false := by
      refine hy.copied_iff.mpr fun q hq hof => ?_
      by_contra hnot
      have hmem : q ∈ (s'.list l .event).entries := by
        rw [hcut.entries, mem_filter]
        exact ⟨hq, decide_eq_true hnot⟩
      rw [hentries, mem_filter, hof] at hmem
      cases hmem.2
    refine ⟨hcopied, fun n hn hnil => ?_, (hbits hcopied).mp hreads⟩
    obtain ⟨q, hq, hnot⟩ := hkeep n hn
    exact absurd (hy.copied_iff.mp hcopied q (mem_entries_of_mem_rows hn hq)
      (kept_eq_nil.mp hnil q hq)) hnot
  · intro h
    refine ⟨?_, (hbits h.copied).mpr h.bits⟩
    rw [hcut.entries]
    exact filter_congr fun q hq => hy.filter_devPtrs h.copied hq

theorem clean_drained {t : SceneInfo} (hw : s.Wf) (hdrained : Drained l .event t s')
    (hn : (s.list l .event).stList = [n])
    (hall : ∀ q ∈ n.rows l, q.1 ∈ (s.list l .event).devPtrs pDevId) :
    s.Clean l pDevId s' ∧ (s.list l .event).DevSafe pDevId := by
  have hy := hw l .event
  have hnm : n ∈ (s.list l .event).stList := by rw [hn]; exact mem_singleton_self n
  have hnil : (s'.list l .event).entries = [] := by
    rw [entries, hdrained.nil]
    rfl
  have hrows : (s.list l .event).entries = n.rows l := by
    rw [entries_eq, hn, flatMap_singleton]
  have hof : ∀ q ∈ (s.list l .event).entries, EventCond.isOf pDevId q.2 = true := fun q hq =>
    (hy.isOf_of_mem_devPtrs hq (hall q (hrows ▸ hq))).2
  have hkept : n.kept pDevId = [] := kept_eq_nil.mpr (hrows ▸ hof)
  refine ⟨⟨?_, fun q hq => ?_⟩, ?_, fun m hm _ => ?_, fun m hm => ?_⟩
  · rw [hnil]
    exact (filter_eq_nil_iff.mpr fun q hq => by simp [hof q hq]).symm
  · rw [ptrs_eq, hnil] at hq
    cases hq
  · exact hy.copied_iff.mpr fun q hq _ => hall q (hrows ▸ hq)
  · rw [hn, mem_singleton] at hm
    rw [hn, hm]
  · rw [hn, mem_singleton] at hm
    rw [hm, hkept]
    rfl

/-- The deletions take the device out of the list, and nothing else, exactly when
the list is `DevSafe`. -/
theorem condsOut_clean_iff (hw : s.Wf) :
    (∃ s', s.condsOut ((s.list l .event).devPtrs pDevId) = some s' ∧ s.Clean l pDevId s') ↔
      (s.list l .event).DevSafe pDevId := by
  have hy := hw l .event
  have hnodup := hy.devPtrs_nodup pDevId
  have hsub : ∀ p ∈ (s.list l .event).devPtrs pDevId, p ∈ s.ptrs l .event :=
    fun p => mem_ptrs_of_mem_devPtrs
  by_cases hgone : ∃ n ∈ (s.list l .event).stList,
      ∀ q ∈ n.rows l, q.1 ∈ (s.list l .event).devPtrs pDevId
  · obtain ⟨n, hn, hall⟩ := hgone
    by_cases hone : (s.list l .event).stList.length = 1
    · have hsingle : (s.list l .event).stList = [n] := by
        obtain ⟨m, hm⟩ := length_eq_one_iff.mp hone
        rw [hm, mem_singleton] at hn
        rw [hm, hn]
      obtain ⟨t, s', hrun, hdrained, -⟩ := condsOut_drained hw hnodup hsub hsingle hall
      obtain ⟨hclean, hsafe⟩ := clean_drained hw hdrained hsingle hall
      exact iff_of_true ⟨s', hrun, hclean⟩ hsafe
    · rw [condsOut_none hw hnodup hsub hn hall hone]
      refine iff_of_false (by simp) fun hsafe => hone ?_
      rw [hsafe.sets n hn (kept_eq_nil.mpr fun q hq =>
        (hy.isOf_of_mem_devPtrs (mem_entries_of_mem_rows hn hq) (hall q hq)).2)]
      rfl
  · have hkeep : ∀ n ∈ (s.list l .event).stList,
        ∃ q ∈ n.rows l, q.1 ∉ (s.list l .event).devPtrs pDevId := by
      intro n hn
      by_contra hnone
      push Not at hnone
      exact hgone ⟨n, hn, hnone⟩
    obtain ⟨s', hrun, hcut, -⟩ := condsOut_inside hw hnodup hsub hkeep
    rw [← clean_cut_iff hw hcut hkeep]
    constructor
    · rintro ⟨s'', hrun', hclean⟩
      obtain rfl := some.inj (hrun.symm.trans hrun')
      exact hclean
    · exact fun hclean => ⟨s', hrun, hclean⟩

/-! ## One list -/

variable {t : SceneInfo}

/-- The bit the last condition of an event list reads. -/
def lastTrue (s : SceneInfo) (l : Logic) : Bool :=
  (s.list l .event).stList.any fun n => n.uiCondTrue.getLsbD 0

theorem condsOut_swept (hw : s.Wf) (hsafe : (s.list l .event).DevSafe pDevId)
    (hswept : (s.list l .event).Swept pDevId) :
    ∃ t s', s.condsOut ((s.list l .event).devPtrs pDevId) = some s' ∧ Drained l .event t s' ∧
      t.Wf ∧ ((t.list l .event).stList ≠ []) ∧
      (∀ l' k', ¬ (l' = l ∧ k' = .event) →
        t.list l' k' = s.list l' k' ∧ t.listTrue l' k' = s.listTrue l' k') ∧
      ((s.list l .event).iCount = 1 → t = s) ∧
      (s.settled.Consistent → t.settled.Consistent ∧ t.listTrue l .event = s.lastTrue l ∧
        ((s.list l .event).iCount ≠ 1 → t.Consistent)) := by
  obtain ⟨hne, hnil⟩ := hswept
  obtain ⟨n, hn⟩ := exists_mem_of_ne_nil _ hne
  have hsingle := hsafe.sets n hn (hnil n hn)
  have hall : ∀ q ∈ n.rows l, q.1 ∈ (s.list l .event).devPtrs pDevId := fun q hq =>
    (hw l .event).copied_iff.mp hsafe.copied q (mem_entries_of_mem_rows hn hq)
      (kept_eq_nil.mp (hnil n hn) q hq)
  obtain ⟨t, s', hrun, hdrained, hcut, hone, hcons⟩ := condsOut_drained hw
    ((hw l .event).devPtrs_nodup pDevId) (fun p => mem_ptrs_of_mem_devPtrs) hsingle hall
  refine ⟨t, s', hrun, hdrained, hcut.wf, fun htnil => hne ?_, hcut.others, hone, fun hc => ?_⟩
  · have hlen := hcut.sets.length_eq
    rw [htnil] at hlen
    exact length_eq_zero_iff.mp hlen
  · obtain ⟨hset, hbit, hword⟩ := hcons hc
    refine ⟨hset, ?_, hword⟩
    rw [hbit, lastTrue, hsingle, any_cons, any_nil, Bool.or_false]

theorem condsOut_unswept (hw : s.Wf) (hsafe : (s.list l .event).DevSafe pDevId)
    (hswept : ¬ (s.list l .event).Swept pDevId) :
    ∃ s', s.condsOut ((s.list l .event).devPtrs pDevId) = some s' ∧ s'.Wf ∧
      ((s'.list l .event).stList = [] ↔ (s.list l .event).stList = []) ∧
      (∀ l' k', ¬ (l' = l ∧ k' = .event) →
        s'.list l' k' = s.list l' k' ∧ s'.listTrue l' k' = s.listTrue l' k') ∧
      ((s.list l .event).Spared pDevId → s' = s) ∧
      (s.settled.Consistent → s'.settled.Consistent ∧
        (¬ (s.list l .event).Spared pDevId → s'.Consistent)) := by
  have hy := hw l .event
  have hkeep : ∀ n ∈ (s.list l .event).stList,
      ∃ q ∈ n.rows l, q.1 ∉ (s.list l .event).devPtrs pDevId := by
    intro n hn
    by_contra hnone
    push Not at hnone
    -- a set without others is alone
    have hnil : n.kept pDevId = [] := kept_eq_nil.mpr fun q hq =>
      (hy.isOf_of_mem_devPtrs (mem_entries_of_mem_rows hn hq) (hnone q hq)).2
    have hsingle := hsafe.sets n hn hnil
    refine hswept ⟨ne_nil_of_mem hn, fun m hm => ?_⟩
    rw [hsingle, mem_singleton] at hm
    rw [hm, hnil]
  obtain ⟨s', hrun, hcut, hsame, hcons⟩ := condsOut_inside hw (hy.devPtrs_nodup pDevId)
    (fun p => mem_ptrs_of_mem_devPtrs) hkeep
  refine ⟨s', hrun, hcut.wf, ?_, hcut.others, fun hspared => hsame ?_, fun hc => ?_⟩
  · rw [← length_eq_zero_iff, ← length_eq_zero_iff, hcut.sets.length_eq]
  · refine eq_nil_iff_forall_not_mem.mpr fun p hp => ?_
    obtain ⟨c, hc, hof⟩ := mem_devPtrs hp
    have hmem : c ∈ (s.list l .event).conds := by
      rw [hy.conds_eq]
      exact List.mem_map_of_mem (mem_of_mem_take hc)
    rw [hspared c hmem] at hof
    cases hof
  · obtain ⟨hset, hwhole⟩ := hcons hc
    refine ⟨hset, fun hspared => hwhole fun hnil => hspared fun c hmem => ?_⟩
    rw [hy.conds_eq] at hmem
    obtain ⟨q, hq, rfl⟩ := List.mem_map.mp hmem
    by_contra hof
    rw [Bool.not_eq_false] at hof
    have hp := hy.copied_iff.mp hsafe.copied q hq hof
    rw [hnil] at hp
    cases hp

theorem condsOut_safe (hw : s.Wf) (hsafe : (s.list l .event).DevSafe pDevId) :
    ∃ s', s.condsOut ((s.list l .event).devPtrs pDevId) = some s' ∧ s'.Wf ∧
      s.Clean l pDevId s' ∧ ∀ l' k', ¬ (l' = l ∧ k' = .event) → s'.list l' k' = s.list l' k' := by
  obtain ⟨s', hrun, hclean⟩ := (condsOut_clean_iff hw).mpr hsafe
  refine ⟨s', hrun, ?_⟩
  by_cases hswept : (s.list l .event).Swept pDevId
  · obtain ⟨t, s'', hrun', hdrained, -, -, hothers, -⟩ := condsOut_swept hw hsafe hswept
    obtain rfl := some.inj (hrun.symm.trans hrun')
    exact ⟨hdrained.wf, hclean, fun l' k' hl =>
      (hdrained.others l' k' hl).trans (hothers l' k' hl).1⟩
  · obtain ⟨s'', hrun', hw', -, hothers, -⟩ := condsOut_unswept hw hsafe hswept
    obtain rfl := some.inj (hrun.symm.trans hrun')
    exact ⟨hw', hclean, fun l' k' hl => (hothers l' k' hl).1⟩

/-- The texts are the same, and the lists but for one. -/
structure OneList (l : Logic) (k : Kind) (s s' : SceneInfo) : Prop where
  texts : s.SameTexts s'
  others : ∀ l' k', ¬ (l' = l ∧ k' = k) → s'.list l' k' = s.list l' k'

section OneList

variable {k : Kind} {s'' : SceneInfo}

theorem OneList.refl (l : Logic) (k : Kind) (s : SceneInfo) : s.OneList l k s :=
  ⟨.refl s, fun _ _ _ => rfl⟩

theorem OneList.trans (h : s.OneList l k s') (h' : s'.OneList l k s'') : s.OneList l k s'' where
  texts := h.texts.trans h'.texts
  others l' k' hne := (h'.others l' k' hne).trans (h.others l' k' hne)

theorem OneList.setList (s : SceneInfo) (y : CondList l k) : s.OneList l k (s.setList l k y) where
  texts := .setList s y
  others _ _ hne := list_setList_of_ne _ _ hne

theorem condOut_one {p : CondPtr k} (h : s.condOut p = some s') : s.OneList p.acLogic k s' := by
  obtain ⟨t, hdel, htrue⟩ := bind_eq_some_iff.mp h
  have hfirst : s.OneList p.acLogic k t := by
    obtain ⟨n, d, -, -, ⟨-, rfl⟩ | ⟨-, rfl⟩⟩ := condDel_cases hdel
    · exact .setList s _
    · exact .setList s _
  refine hfirst.trans ?_
  simp only [condDelTrue, bind_eq_bind] at htrue
  split at htrue
  · rw [← some.inj htrue]
    refine ⟨(SameTexts.setList t _).trans (.setListTrue _ _ _ _), fun l' k' hne => ?_⟩
    rw [list_setListTrue, modifyList, list_setList_of_ne _ _ hne]
  · obtain ⟨n, -, heq⟩ := bind_eq_some_iff.mp htrue
    rw [← some.inj heq]
    exact ⟨.condSetTrueInit _ _ _ _ _, fun l' k' hne => list_condSetTrueInit_of_ne _ _ _ hne⟩

theorem condsOut_one {ps : List (CondPtr k)} (h : s.condsOut ps = some s')
    (hl : ∀ p ∈ ps, p.acLogic = l) : s.OneList l k s' := by
  induction ps generalizing s with
  | nil =>
    obtain rfl := some.inj h
    exact .refl l k s
  | cons p ps ih =>
    rw [condsOut, foldlM_cons] at h
    obtain ⟨t, hout, hrun⟩ := bind_eq_some_iff.mp h
    have hfirst : s.OneList l k t := hl p mem_cons_self ▸ condOut_one hout
    exact hfirst.trans (ih hrun fun q hq => hl q (mem_cons_of_mem p hq))

end OneList

theorem acLogic_of_mem_devPtrs (hp : p ∈ (s.list l .event).devPtrs pDevId) : p.acLogic = l := by
  obtain ⟨c, hc, -⟩ := mem_devPtrs hp
  obtain ⟨n, -, d, -, heq⟩ := mem_entries.mp (mem_of_mem_take hc)
  rw [(Prod.mk.inj heq).1]

/-! ## Both lists -/

/-- The event conditions of the device go out of the `Or` list and then out of the
`And` list. -/
def devOut (s : SceneInfo) (pDevId : CText) : Option SceneInfo :=
  (s.condsOut ((s.list .or .event).devPtrs pDevId)).bind fun t =>
    t.condsOut ((t.list .and .event).devPtrs pDevId)

theorem Clean.congr {r r' : SceneInfo} (h : s.Clean l pDevId s')
    (hlist : r.list l .event = s.list l .event) (hlist' : r'.list l .event = s'.list l .event) :
    r.Clean l pDevId r' where
  entries := by rw [hlist, hlist', h.entries]
  reads q hq := by
    rw [ptrs_eq, hlist', ← ptrs_eq] at hq
    obtain ⟨r, -, hqr⟩ := List.mem_map.mp (ptrs_eq s' l .event ▸ hq)
    have hl : q.acLogic = l := by
      rw [ptrs, mem_flatMap] at hq
      obtain ⟨n, -, hq⟩ := hq
      obtain ⟨c, -, rfl⟩ := List.mem_map.mp hq
      rfl
    have hread := h.reads q hq
    subst hl
    rw [condTrue, condTrue, set?, set?, hlist, hlist']
    exact hread

/-- The event conditions of the device go, and the others stay as they are, exactly
when both lists are `DevSafe`. -/
theorem devOut_clean_iff (hw : s.Wf) :
    (∃ s', s.devOut pDevId = some s' ∧ ∀ l, s.Clean l pDevId s') ↔
      ∀ l, (s.list l .event).DevSafe pDevId := by
  constructor
  · rintro ⟨s', h, hclean⟩
    obtain ⟨t, hrun, hrun'⟩ := bind_eq_some_iff.mp h
    have hand : t.list .and .event = s.list .and .event :=
      (condsOut_one hrun fun p => acLogic_of_mem_devPtrs).others _ _ (by simp)
    have hor : s'.list .or .event = t.list .or .event :=
      (condsOut_one hrun' fun p => acLogic_of_mem_devPtrs).others _ _ (by simp)
    have hsafe : (s.list .or .event).DevSafe pDevId :=
      (condsOut_clean_iff hw).mp ⟨t, hrun, (hclean .or).congr rfl hor.symm⟩
    obtain ⟨t', hrun'', hwt, -⟩ := condsOut_safe hw hsafe
    obtain rfl := some.inj (hrun.symm.trans hrun'')
    have hsafe' : (t.list .and .event).DevSafe pDevId :=
      (condsOut_clean_iff hwt).mp ⟨s', hrun', (hclean .and).congr hand rfl⟩
    intro l
    cases l with
    | or => exact hsafe
    | and => exact hand ▸ hsafe'
  · intro hsafe
    obtain ⟨t, hrun, hwt, hclean, hothers⟩ := condsOut_safe hw (hsafe .or)
    have hand : t.list .and .event = s.list .and .event := hothers _ _ (by simp)
    obtain ⟨s', hrun', -, hclean', hothers'⟩ := condsOut_safe hwt (hand ▸ hsafe .and)
    have hor : s'.list .or .event = t.list .or .event := hothers' _ _ (by simp)
    refine ⟨s', bind_eq_some_iff.mpr ⟨t, hrun, hrun'⟩, fun l => ?_⟩
    cases l with
    | or => exact hclean.congr rfl hor
    | and => exact hclean'.congr hand.symm rfl

end SceneInfo

end Honyar.LocalScene
