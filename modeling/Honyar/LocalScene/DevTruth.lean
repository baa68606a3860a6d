import Honyar.LocalScene.DevConds

/-!
# The truth words without a device

A deletion inside a set works out the words above it; the last one of a list does
not.  `TruthSafe` is when the words are right after the event conditions of a
device went out of both lists.
-/

namespace Honyar.LocalScene

variable {l : Logic}

namespace SceneInfo

variable {s s' t : SceneInfo} {pDevId : CText}

/-! ## Emptied lists -/

theorem settled_consistent_iff : s.settled.Consistent ↔
    (∀ l k, ∀ n ∈ (s.list l k).stList, (s.list l k).setTrue n = n.truth l) ∧
      ∀ l k, s.listTrue l k = (s.list l k).truth := by
  constructor
  · intro hc
    refine ⟨fun l k n hn => ?_, fun l k => ?_⟩
    · rw [← list_settled] at hn ⊢
      exact hc.set l k n hn
    · rw [← listTrue_settled, ← list_settled]
      exact hc.list l k
  · rintro ⟨hset, hlist⟩
    refine ⟨fun l k n hn => ?_, fun l k => ?_, ?_⟩
    · rw [list_settled] at hn ⊢
      exact hset l k n hn
    · rw [listTrue_settled, list_settled]
      exact hlist l k
    · show s.sceneTruth = _
      simp only [sceneTruth, logicEmpty, list_settled, listTrue_settled]

theorem sceneTruth_congr (hnil : ∀ l k, (s'.list l k).stList = [] ↔ (s.list l k).stList = [])
    (hbits : ∀ l k, s'.listTrue l k = s.listTrue l k) : s'.sceneTruth = s.sceneTruth := by
  have hempty (l : Logic) (k : Kind) :
      (s'.list l k).stList.isEmpty = (s.list l k).stList.isEmpty := by
    rw [Bool.eq_iff_iff, List.isEmpty_iff, List.isEmpty_iff]
    exact hnil l k
  simp only [sceneTruth, logicEmpty, hempty, hbits]

theorem Drained.settled_or (hdrained : Drained .or .event t s') (hc : t.settled.Consistent) :
    s'.settled.Consistent := by
  obtain ⟨hset, hlist⟩ := settled_consistent_iff.mp hc
  refine settled_consistent_iff.mpr ⟨fun l k n hn => ?_, fun l k => ?_⟩
  · by_cases hl : l = .or ∧ k = .event
    · obtain ⟨rfl, rfl⟩ := hl
      rw [hdrained.nil] at hn
      cases hn
    · rw [hdrained.others l k hl] at hn ⊢
      exact hset l k n hn
  · rw [hdrained.bits]
    split
    · rename_i hl
      obtain ⟨rfl, rfl⟩ := hl
      rw [CondList.truth, show delBit .or .event = .event from rfl, hdrained.nil]
      rfl
    · rename_i hl
      rw [hdrained.others l k hl]
      exact hlist l k

/-- The bit of an emptied `And` list is not written, and that of the time list
is. -/
theorem Drained.settled_and_iff (hdrained : Drained .and .event t s')
    (hc : t.settled.Consistent) : s'.settled.Consistent ↔
      t.listTrue .and .event = true ∧ t.listTrue .and .time = true := by
  obtain ⟨hset, hlist⟩ := settled_consistent_iff.mp hc
  have hevent : s'.listTrue .and .event = t.listTrue .and .event := by
    rw [hdrained.bits, if_neg (by decide)]
  have htime : s'.listTrue .and .time = true := by
    rw [hdrained.bits, if_pos ⟨rfl, rfl⟩]
    rfl
  have hnil : (s'.list .and .event).truth = true := by
    rw [CondList.truth, hdrained.nil]
    rfl
  rw [settled_consistent_iff]
  constructor
  · rintro ⟨-, hlist'⟩
    refine ⟨?_, ?_⟩
    · rw [← hevent, hlist', hnil]
    · rw [hlist, ← hdrained.others .and .time (by simp), ← hlist', htime]
  · rintro ⟨hand, htimes⟩
    refine ⟨fun l k n hn => ?_, fun l k => ?_⟩
    · by_cases hl : l = .and ∧ k = .event
      · obtain ⟨rfl, rfl⟩ := hl
        rw [hdrained.nil] at hn
        cases hn
      · rw [hdrained.others l k hl] at hn ⊢
        exact hset l k n hn
    · by_cases hl : l = .and ∧ k = .event
      · obtain ⟨rfl, rfl⟩ := hl
        rw [hevent, hnil, hand]
      · rw [hdrained.others l k hl, ← hlist]
        by_cases hk : l = .and ∧ k = .time
        · obtain ⟨rfl, rfl⟩ := hk
          rw [htime, htimes]
        · rw [hdrained.bits]
          exact if_neg hk

/-- The formula with and without the `And` event list, which is true. -/
theorem Drained.sceneTruth_iff {u : SceneInfo} (hdrained : Drained .and .event u s')
    (hne : (u.list .and .event).stList ≠ []) (hand : u.listTrue .and .event = true)
    (htime : u.listTrue .and .time = true) : u.sceneTruth = s'.sceneTruth ↔
      ¬ (u.logicEmpty .or = true ∧ (u.list .and .time).stList = []) := by
  have hor : s'.logicEmpty .or = u.logicEmpty .or := by
    rw [logicEmpty, logicEmpty, hdrained.others .or .time (by simp),
      hdrained.others .or .event (by simp)]
  have hempty : s'.logicEmpty .and = (u.list .and .time).stList.isEmpty := by
    rw [logicEmpty, hdrained.others .and .time (by simp), hdrained.nil]
    exact Bool.and_true _
  have hfull : u.logicEmpty .and = false := by
    rw [logicEmpty, List.isEmpty_eq_false_iff.mpr hne]
    exact Bool.and_false _
  have hbits : ∀ k, s'.listTrue .or k = u.listTrue .or k := fun k => by
    rw [hdrained.bits, if_neg (by simp)]
  have hbits' : ∀ k, s'.listTrue .and k = true := by
    intro k
    rw [hdrained.bits]
    cases k with
    | time => rfl
    | event => exact hand
  rw [← List.isEmpty_iff, sceneTruth, sceneTruth, hor, hempty, hfull, hbits, hbits, hbits', hbits',
    hand, htime]
  cases u.logicEmpty .or <;> cases (u.list .and .time).stList.isEmpty <;>
    simp [sceneFormula]

theorem list_emptied_of_ne (s : SceneInfo) {k k' : Kind} {l' : Logic} (h : ¬ (l' = l ∧ k' = k)) :
    (s.emptied l k).list l' k' = s.list l' k' := by
  rw [emptied, list_setListTrue, list_setList_of_ne _ _ h]

theorem stList_emptied (s : SceneInfo) (l : Logic) (k : Kind) :
    ((s.emptied l k).list l k).stList = [] := by
  rw [emptied, list_setListTrue, list_setList_self]
  rfl

theorem listTrue_emptied_self (s : SceneInfo) (l : Logic) (k : Kind) :
    (s.emptied l k).listTrue l k = decide (l = .and) := by
  rw [emptied, listTrue_setListTrue_self]

theorem listTrue_emptied_of_ne (s : SceneInfo) {k k' : Kind} {l' : Logic}
    (h : ¬ (l' = l ∧ k' = k)) : (s.emptied l k).listTrue l' k' = s.listTrue l' k' := by
  rw [emptied, listTrue_setListTrue_of_ne _ _ h, listTrue_setList]

theorem sceneTruth_emptied_or (hnil : (t.list .or .event).stList = [])
    (hbit : t.listTrue .or .event = false)
    (hothers : ∀ l' k', ¬ (l' = .or ∧ k' = .event) →
      t.list l' k' = s.list l' k' ∧ t.listTrue l' k' = s.listTrue l' k') :
    t.sceneTruth = (s.emptied .or .event).sceneTruth := by
  refine sceneTruth_congr (fun l k => ?_) fun l k => ?_
  · by_cases hl : l = .or ∧ k = .event
    · obtain ⟨rfl, rfl⟩ := hl
      exact iff_of_true hnil (stList_emptied ..)
    · rw [(hothers l k hl).1, list_emptied_of_ne _ hl]
  · by_cases hl : l = .or ∧ k = .event
    · obtain ⟨rfl, rfl⟩ := hl
      rw [hbit, listTrue_emptied_self]
      rfl
    · rw [(hothers l k hl).2, listTrue_emptied_of_ne _ hl]

/-! ## The `Or` list first -/

/-- What the deletions from the `Or` list leave of a consistent scene. -/
structure OrOut (s : SceneInfo) (pDevId : CText) (t : SceneInfo) : Prop where
  wf : t.Wf
  settled : t.settled.Consistent
  others : ∀ l' k', ¬ (l' = .or ∧ k' = .event) →
    t.list l' k' = s.list l' k' ∧ t.listTrue l' k' = s.listTrue l' k'
  swept : (s.list .or .event).Swept pDevId →
    (t.list .or .event).stList = [] ∧ t.listTrue .or .event = false ∧
      t.ucSceneCondTrue = (s.setListTrue .or .event (s.lastTrue .or)).sceneTruth
  unswept : ¬ (s.list .or .event).Swept pDevId → t.Consistent ∧
    ((t.list .or .event).stList = [] ↔ (s.list .or .event).stList = [])

theorem condsOut_or (hw : s.Wf) (hc : s.Consistent) (hsafe : (s.list .or .event).DevSafe pDevId) :
    ∃ t, s.condsOut ((s.list .or .event).devPtrs pDevId) = some t ∧ s.OrOut pDevId t := by
  by_cases hswept : (s.list .or .event).Swept pDevId
  · obtain ⟨u, t, hrun, hdrained, hwu, hne, hothers, hone, hcons⟩ := condsOut_swept hw hsafe hswept
    obtain ⟨hset, hbit, hword⟩ := hcons hc.settled
    refine ⟨t, hrun, hdrained.wf, hdrained.settled_or hset, fun l' k' hl => ?_,
      fun _ => ⟨?_, ?_, ?_⟩, fun h => absurd hswept h⟩
    · refine ⟨(hdrained.others l' k' hl).trans (hothers l' k' hl).1, ?_⟩
      rw [hdrained.bits]
      exact (if_neg hl).trans (hothers l' k' hl).2
    · exact hdrained.nil
    · rw [hdrained.bits, if_pos ⟨rfl, rfl⟩]
      rfl
    · -- the word of the scene is the one before the last deletion
      have hcu : u.ucSceneCondTrue = u.sceneTruth := by
        by_cases h : (s.list .or .event).iCount = 1
        · rw [hone h]
          exact hc.scene
        · exact (hword h).scene
      rw [hdrained.scene, hcu]
      refine sceneTruth_congr (fun l' k' => ?_) fun l' k' => ?_
      · rw [list_setListTrue]
        by_cases hl : l' = .or ∧ k' = .event
        · obtain ⟨rfl, rfl⟩ := hl
          exact iff_of_false hne hswept.1
        · rw [(hothers l' k' hl).1]
      · by_cases hl : l' = .or ∧ k' = .event
        · obtain ⟨rfl, rfl⟩ := hl
          rw [hbit, listTrue_setListTrue_self]
        · rw [(hothers l' k' hl).2, listTrue_setListTrue_of_ne _ _ hl]
  · obtain ⟨t, hrun, hwt, hnil, hothers, hsame, hcons⟩ := condsOut_unswept hw hsafe hswept
    obtain ⟨hset, hwhole⟩ := hcons hc.settled
    refine ⟨t, hrun, hwt, hset, hothers, fun h => absurd h hswept, fun _ => ⟨?_, hnil⟩⟩
    by_cases hspared : (s.list .or .event).Spared pDevId
    · rw [hsame hspared]
      exact hc
    · exact hwhole hspared

/-- So it does where the `And` event list is emptied after it, with the bits of the
`And` lists set. -/
theorem sceneTruth_emptied_and (hdrained : Drained .and .event t s')
    (hnil : (t.list .or .event).stList = []) (hbit : t.listTrue .or .event = false)
    (hothers : ∀ l' k', ¬ (l' = .or ∧ k' = .event) →
      t.list l' k' = s.list l' k' ∧ t.listTrue l' k' = s.listTrue l' k')
    (hand : t.listTrue .and .event = true) (htime : t.listTrue .and .time = true) :
    s'.sceneTruth = ((s.emptied .or .event).emptied .and .event).sceneTruth := by
  have hfalse := listTrue_emptied_self s .or .event
  refine sceneTruth_congr (fun l k => ?_) fun l k => ?_
  · by_cases hl : l = .and ∧ k = .event
    · obtain ⟨rfl, rfl⟩ := hl
      exact iff_of_true hdrained.nil (stList_emptied ..)
    · rw [hdrained.others l k hl, list_emptied_of_ne _ hl]
      by_cases hl' : l = .or ∧ k = .event
      · obtain ⟨rfl, rfl⟩ := hl'
        exact iff_of_true hnil (stList_emptied ..)
      · rw [(hothers l k hl').1, list_emptied_of_ne _ hl']
  · rw [hdrained.bits]
    cases l with
    | or =>
      rw [if_neg (by simp), listTrue_emptied_of_ne _ (by simp)]
      cases k with
      | time => rw [(hothers .or .time (by simp)).2, listTrue_emptied_of_ne _ (by simp)]
      | event =>
        rw [hbit, hfalse]
        rfl
    | and =>
      cases k with
      | time =>
        rw [if_pos ⟨rfl, rfl⟩, listTrue_emptied_of_ne _ (by simp),
          listTrue_emptied_of_ne _ (by simp), ← (hothers .and .time (by simp)).2, htime]
        rfl
      | event =>
        rw [if_neg (by decide), hand, listTrue_emptied_self]
        rfl

/-- The scene with the lists empty that have conditions of the device only. -/
def drained (s : SceneInfo) (pDevId : CText) : SceneInfo :=
  if (s.list .and .event).Swept pDevId then (s.emptied .or .event).emptied .and .event
  else s.emptied .or .event

/-- A condition is left besides the `And` event conditions. -/
def Keeps (s : SceneInfo) (pDevId : CText) : Prop :=
  (s.list .or .time).stList ≠ [] ∨ (s.list .and .time).stList ≠ [] ∨
    (s.list .or .event).stList ≠ [] ∧ ¬ (s.list .or .event).Swept pDevId

/-- When the truth words are right after the deletions.  When all `And` event
conditions go, the bit of their list is left as the last of them had it, and that
of the time list is set; the word of the scene is the one before the last
deletion.  So it is when all `Or` event conditions go and nothing is worked out
after them. -/
structure TruthSafe (s : SceneInfo) (pDevId : CText) : Prop where
  bits : (s.list .and .event).Swept pDevId →
    s.lastTrue .and = true ∧ s.listTrue .and .time = true
  andWord : (s.list .and .event).Swept pDevId →
    ¬ ((s.list .or .event).Swept pDevId ∧ (s.list .and .event).iCount = 1) → s.Keeps pDevId
  orWord : (s.list .or .event).Swept pDevId →
    (s.list .and .event).Spared pDevId ∨
      (s.list .and .event).Swept pDevId ∧ (s.list .and .event).iCount = 1 →
    (s.setListTrue .or .event (s.lastTrue .or)).sceneTruth = (s.drained pDevId).sceneTruth

/-! ## The `And` list -/

variable {u : SceneInfo}

theorem OrOut.keeps_iff (hout : s.OrOut pDevId t)
    (hothers : ∀ l' k', ¬ (l' = .and ∧ k' = .event) → u.list l' k' = t.list l' k') :
    ¬ (u.logicEmpty .or = true ∧ (u.list .and .time).stList = []) ↔ s.Keeps pDevId := by
  rw [logicEmpty, Bool.and_eq_true, List.isEmpty_iff, List.isEmpty_iff,
    hothers .or .time (by simp), hothers .or .event (by simp), hothers .and .time (by simp),
    (hout.others .or .time (by simp)).1, (hout.others .and .time (by simp)).1, Keeps]
  by_cases hswept : (s.list .or .event).Swept pDevId
  · have hnil := (hout.swept hswept).1
    constructor
    · intro hnone
      by_cases htime : (s.list .or .time).stList = []
      · exact .inr (.inl fun hand => hnone ⟨⟨htime, hnil⟩, hand⟩)
      · exact .inl htime
    · rintro (htime | hand | ⟨-, hnot⟩) ⟨⟨htime', -⟩, hand'⟩
      · exact htime htime'
      · exact hand hand'
      · exact hnot hswept
  · rw [(hout.unswept hswept).2]
    constructor
    · intro hnone
      by_cases htime : (s.list .or .time).stList = []
      · by_cases hor : (s.list .or .event).stList = []
        · exact .inr (.inl fun hand => hnone ⟨⟨htime, hor⟩, hand⟩)
        · exact .inr (.inr ⟨hor, hswept⟩)
      · exact .inl htime
    · rintro (htime | hand | ⟨hor, -⟩) ⟨⟨htime', hor'⟩, hand'⟩
      · exact htime htime'
      · exact hand hand'
      · exact hor hor'

/-- With the bits of both `And` lists set, the word is the question. -/
theorem OrOut.andWord_iff (hout : s.OrOut pDevId t) (hdrained : Drained .and .event u s')
    (hne : (u.list .and .event).stList ≠ [])
    (hothers : ∀ l' k', ¬ (l' = .and ∧ k' = .event) → u.list l' k' = t.list l' k')
    (hsame : (s.list .and .event).iCount = 1 → u = t)
    (hword : (s.list .and .event).iCount ≠ 1 → u.Consistent)
    (hand : u.listTrue .and .event = true) (htime : u.listTrue .and .time = true) :
    u.ucSceneCondTrue = s'.sceneTruth ↔
      (¬ ((s.list .or .event).Swept pDevId ∧ (s.list .and .event).iCount = 1) →
        s.Keeps pDevId) ∧
      ((s.list .or .event).Swept pDevId → (s.list .and .event).iCount = 1 →
        (s.setListTrue .or .event (s.lastTrue .or)).sceneTruth =
          ((s.emptied .or .event).emptied .and .event).sceneTruth) := by
  by_cases hstale : (s.list .or .event).Swept pDevId ∧ (s.list .and .event).iCount = 1
  · obtain ⟨hswept, hone⟩ := hstale
    obtain rfl := hsame hone
    obtain ⟨hnil, hbit, hstays⟩ := hout.swept hswept
    rw [hstays, sceneTruth_emptied_and hdrained hnil hbit hout.others hand htime]
    exact ⟨fun heq => ⟨fun hnot => absurd ⟨hswept, hone⟩ hnot, fun _ _ => heq⟩,
      fun hboth => hboth.2 hswept hone⟩
  · -- the word was worked out before the last deletion
    have hcu : u.ucSceneCondTrue = u.sceneTruth := by
      by_cases hone : (s.list .and .event).iCount = 1
      · rw [hsame hone]
        exact (hout.unswept fun hswept => hstale ⟨hswept, hone⟩).1.scene
      · exact (hword hone).scene
    rw [hcu, hdrained.sceneTruth_iff hne hand htime, hout.keeps_iff hothers]
    exact ⟨fun hk => ⟨fun _ => hk, fun hswept hone => absurd ⟨hswept, hone⟩ hstale⟩,
      fun hboth => hboth.1 hstale⟩

theorem not_spared_of_swept {y : CondList l .event} (hy : y.Wf) (hswept : y.Swept pDevId) :
    ¬ y.Spared pDevId := by
  intro hspared
  obtain ⟨n, hn⟩ := List.exists_mem_of_ne_nil _ hswept.1
  obtain ⟨c, hc⟩ := List.exists_mem_of_length_pos (hy.sets n hn).pos
  have hof := CondList.kept_eq_nil.mp (hswept.2 n hn) _ (List.mem_map_of_mem hc : _ ∈ n.rows l)
  rw [hspared c.stCond (CondList.Counted.mem_conds hy.size hn hc)] at hof
  cases hof

theorem OrOut.consistent_swept_iff (hw : s.Wf) (hout : s.OrOut pDevId t)
    (hsafe : (s.list .and .event).DevSafe pDevId)
    (hswept : (s.list .and .event).Swept pDevId)
    (h : t.condsOut ((t.list .and .event).devPtrs pDevId) = some s') :
    s'.Consistent ↔ s.TruthSafe pDevId := by
  obtain ⟨hlist, -⟩ := hout.others .and .event (by simp)
  have htimes := (hout.others .and .time (by simp)).2
  obtain ⟨u, s'', hrun, hdrained, -, hne, hothers, hsame, hcons⟩ :=
    condsOut_swept hout.wf (hlist ▸ hsafe) (hlist ▸ hswept)
  obtain rfl := Option.some.inj (h.symm.trans hrun)
  obtain ⟨hset, hbit, hword⟩ := hcons hout.settled
  have hlast : u.listTrue .and .event = s.lastTrue .and := by rw [hbit, lastTrue, lastTrue, hlist]
  have htime : u.listTrue .and .time = s.listTrue .and .time :=
    (hothers .and .time (by simp)).2.trans htimes
  rw [hlist] at hsame hword
  have hiff (hbits : s.lastTrue .and = true ∧ s.listTrue .and .time = true) :=
    hout.andWord_iff hdrained hne (fun l' k' hl => (hothers l' k' hl).1) hsame hword
      (hlast.trans hbits.1) (htime.trans hbits.2)
  have hdrain : s.drained pDevId = (s.emptied .or .event).emptied .and .event := if_pos hswept
  rw [consistent_iff_settled, hdrained.settled_and_iff hset, hlast, htime, hdrained.scene]
  constructor
  · rintro ⟨hbits, heq⟩
    obtain ⟨handWord, horWord⟩ := (hiff hbits).mp heq
    refine ⟨fun _ => hbits, fun _ => handWord, fun hor hrest => ?_⟩
    rw [hdrain]
    rcases hrest with hspared | ⟨-, hone⟩
    · exact absurd hspared (not_spared_of_swept (hw .and .event) hswept)
    · exact horWord hor hone
  · rintro ⟨hbits, handWord, horWord⟩
    rw [hdrain] at horWord
    exact ⟨hbits hswept, (hiff (hbits hswept)).mpr ⟨handWord hswept,
      fun hor hone => horWord hor (.inr ⟨hswept, hone⟩)⟩⟩

theorem OrOut.consistent_unswept_iff (hout : s.OrOut pDevId t)
    (hsafe : (s.list .and .event).DevSafe pDevId)
    (hswept : ¬ (s.list .and .event).Swept pDevId)
    (h : t.condsOut ((t.list .and .event).devPtrs pDevId) = some s') :
    s'.Consistent ↔ s.TruthSafe pDevId := by
  obtain ⟨hlist, -⟩ := hout.others .and .event (by simp)
  obtain ⟨s'', hrun, -, -, -, hsame, hcons⟩ :=
    condsOut_unswept hout.wf (hlist ▸ hsafe) (hlist ▸ hswept)
  obtain rfl := Option.some.inj (h.symm.trans hrun)
  obtain ⟨-, hwhole⟩ := hcons hout.settled
  rw [hlist] at hsame hwhole
  have hdrain : s.drained pDevId = s.emptied .or .event := if_neg hswept
  have htruth : s.TruthSafe pDevId ↔ ((s.list .or .event).Swept pDevId →
      (s.list .and .event).Spared pDevId →
      (s.setListTrue .or .event (s.lastTrue .or)).sceneTruth =
        (s.emptied .or .event).sceneTruth) := by
    rw [← hdrain]
    constructor
    · exact fun hsafe hor hspared => hsafe.orWord hor (.inl hspared)
    · exact fun hword => ⟨fun hand => absurd hand hswept, fun hand => absurd hand hswept,
        fun hor hrest => hword hor (hrest.resolve_right fun hand => hswept hand.1)⟩
  rw [htruth]
  by_cases hspared : (s.list .and .event).Spared pDevId
  · rw [hsame hspared]
    by_cases hor : (s.list .or .event).Swept pDevId
    · obtain ⟨hnil, hbit, hword⟩ := hout.swept hor
      rw [consistent_iff_settled, hword, sceneTruth_emptied_or hnil hbit hout.others]
      exact ⟨fun hboth _ _ => hboth.2, fun hword => ⟨hout.settled, hword hor hspared⟩⟩
    · exact iff_of_true (hout.unswept hor).1 fun h => absurd h hor
  · exact iff_of_true (hwhole hspared) fun _ h => absurd h hspared

/-! ## Both lists -/

theorem devOut_iff (hw : s.Wf) (hc : s.Consistent) :
    (∃ s', s.devOut pDevId = some s' ∧ (∀ l, s.Clean l pDevId s') ∧ s'.Consistent) ↔
      (∀ l, (s.list l .event).DevSafe pDevId) ∧ s.TruthSafe pDevId := by
  have htruth {s' : SceneInfo} (hsafe : ∀ l, (s.list l .event).DevSafe pDevId)
      (h : s.devOut pDevId = some s') : s'.Consistent ↔ s.TruthSafe pDevId := by
    obtain ⟨t, hrun, hout⟩ := condsOut_or hw hc (hsafe .or)
    rw [devOut, hrun, Option.bind_some] at h
    by_cases hswept : (s.list .and .event).Swept pDevId
    · exact hout.consistent_swept_iff hw (hsafe .and) hswept h
    · exact hout.consistent_unswept_iff (hsafe .and) hswept h
  constructor
  · rintro ⟨s', h, hclean, hcons⟩
    have hsafe := (devOut_clean_iff hw).mp ⟨s', h, hclean⟩
    exact ⟨hsafe, (htruth hsafe h).mp hcons⟩
  · rintro ⟨hsafe, hsafe'⟩
    obtain ⟨s', h, hclean⟩ := (devOut_clean_iff hw).mpr hsafe
    exact ⟨s', h, hclean, (htruth hsafe h).mpr hsafe'⟩

end SceneInfo

end Honyar.LocalScene
