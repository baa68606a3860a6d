import Honyar.LocalScene.SyncOnce

/-!
# Values and marks of a queue

The array of values and the word of flags of a synchronisation queue, read
together as one list of entries with their marks.  A report and a request under
protection write both anew, entry by entry.

Setting a flag marks the entry that is appended; cleaning one cleans them all, so
an entry that is appended without a mark takes the marks of those before it away.
-/

namespace Honyar.LocalScene

open CText Option
open List hiding any_eq_true map_map pure_def
open List (any_cons append_nil cons_append foldl_cons forall_mem_cons length_append length_map
  map_append map_congr_left map_cons)

variable {vs : List SyncEntry} {x : SyncList}

/-! ## Marks -/

/-- The values with the bits of a word. -/
def marksOf (vs : List SyncEntry) (f : BitVec 32) : List (SyncEntry × Bool) :=
  vs.zipIdx.map fun e => (e.1, f.getLsbD e.2)

/-- The entry without its mark. -/
def unmark (e : SyncEntry × Bool) : SyncEntry × Bool := (e.1, false)

/-- Appends an entry as the loops write it. -/
def appendMarked (ms : List (SyncEntry × Bool)) (e : SyncEntry × Bool) :
    List (SyncEntry × Bool) :=
  if e.2 then ms ++ [e] else ms.map unmark ++ [e]

theorem marksOf_append {f g : BitVec 32} (e : SyncEntry)
    (h : ∀ i < vs.length, g.getLsbD i = f.getLsbD i) :
    marksOf (vs ++ [e]) g = marksOf vs f ++ [(e, g.getLsbD vs.length)] := by
  rw [marksOf, marksOf, zipIdx_append, map_append]
  congr 1
  · apply map_congr_left
    intro d hd
    rw [h _ (mem_zipIdx' hd).1]
  · simp

theorem map_unmark_marksOf (vs : List SyncEntry) (f : BitVec 32) :
    (marksOf vs f).map unmark = marksOf vs 0#32 := by
  rw [marksOf, marksOf, List.map_map]
  apply map_congr_left
  intro e _
  simp [unmark]

theorem marksOf_set (f : BitVec 32) (e : SyncEntry) (h : vs.length < 32) :
    marksOf (vs ++ [e]) (syncFlagSet f vs.length) = appendMarked (marksOf vs f) (e, true) := by
  rw [marksOf_append e (f := f), getLsbD_syncFlagSet f h, if_pos rfl]
  · rfl
  · intro i hi
    rw [getLsbD_syncFlagSet f h, if_neg (Nat.ne_of_lt hi)]

theorem marksOf_clean (f : BitVec 32) (e : SyncEntry) (h : vs.length < 32) :
    marksOf (vs ++ [e]) (syncFlagClean f vs.length) = appendMarked (marksOf vs f) (e, false) := by
  rw [syncFlagClean_eq f h, marksOf_append e (f := 0#32) fun _ _ => rfl, appendMarked,
    if_neg Bool.false_ne_true, map_unmark_marksOf]
  simp

theorem map_unmark_foldl (ms es : List (SyncEntry × Bool)) :
    (es.foldl appendMarked ms).map unmark = (ms ++ es).map unmark := by
  induction es generalizing ms with
  | nil => rw [List.foldl_nil, append_nil]
  | cons e es ih =>
    have happend : (appendMarked ms e).map unmark = (ms ++ [e]).map unmark := by
      rw [appendMarked]
      split
      · rfl
      · rw [map_append, map_append, List.map_map]
        rfl
    rw [foldl_cons, ih, map_append, happend, ← map_append, List.append_assoc,
      List.singleton_append]

theorem map_unmark_eq_self {ms : List (SyncEntry × Bool)} :
    ms.map unmark = ms ↔ ∀ e ∈ ms, e.2 = false := by
  constructor
  · intro h e he
    rw [← h] at he
    obtain ⟨d, -, rfl⟩ := mem_map.mp he
    rfl
  · intro h
    nth_rewrite 2 [← map_id ms]
    apply map_congr_left
    intro e he
    exact Prod.ext rfl (h e he).symm

/-- Entries that are written one after another keep their marks exactly when no entry without
a mark stands behind one with it. -/
theorem foldl_appendMarked_eq (ms : List (SyncEntry × Bool)) :
    ms.foldl appendMarked [] = ms ↔ ms.Pairwise fun e d => e.2 = true → d.2 = true := by
  induction ms using reverseRecOn with
  | nil => simp
  | append_singleton ms e ih =>
    rw [foldl_append, foldl_cons, foldl_nil, pairwise_append,
      appendMarked]
    cases he : e.2 with
    | true =>
      rw [if_pos rfl, append_left_inj, ih]
      simp [he]
    | false =>
      rw [if_neg Bool.false_ne_true, append_left_inj, map_unmark_foldl, nil_append,
        map_unmark_eq_self]
      simp only [pairwise_cons, not_mem_nil, false_implies, implies_true,
        List.Pairwise.nil, true_and, mem_singleton, forall_eq, he,
        Bool.false_eq_true, imp_false, Bool.not_eq_true]
      constructor
      · intro hnone
        refine ⟨pairwise_iff_forall_sublist.mpr fun {d d'} hsub hd => ?_, hnone⟩
        have hmem : d ∈ ms := hsub.subset mem_cons_self
        rw [hnone d hmem] at hd
        cases hd
      · exact fun h => h.2

namespace SyncNode

variable {n : SyncNode}

/-- The entries with their marks. -/
def marked (n : SyncNode) : List (SyncEntry × Bool) :=
  n.aiValue.zipIdx.map fun e => (e.1, n.sent e.2)

theorem marked_eq (n : SyncNode) : n.marked = marksOf n.aiValue n.uiSendFlag := by
  rw [marked, marksOf]
  apply map_congr_left
  intro e _
  rw [sent_eq]

theorem length_marked (n : SyncNode) : n.marked.length = n.aiValue.length := by
  rw [marked, length_map, length_zipIdx]

theorem noneSent_iff : n.NoneSent ↔ ∀ e ∈ n.marked, e.2 = false := by
  constructor
  · intro h e he
    obtain ⟨d, hd, rfl⟩ := mem_map.mp he
    exact h.of_mem hd
  · intro h i hi
    refine h (n.aiValue[i], n.sent i) (mem_map.mpr ⟨(n.aiValue[i], i), ?_, rfl⟩)
    exact mk_mem_zipIdx_iff_getElem?.mpr (getElem?_eq_getElem hi)

/-! ## Reports -/

/-- The entry a report of this value answers. -/
def answers (iValue : Int) (e : SyncEntry × Bool) : Bool := e.2 && e.1.iValue == iValue

theorem answer_loop_marks (iValue : Int) (es : List (SyncEntry × Nat))
    (r : (List SyncEntry × BitVec 32) × Bool) (hlen : r.1.1.length + es.length ≤ 32) :
    (marksOf (es.foldl (n.answerOne iValue) r).1.1 (es.foldl (n.answerOne iValue) r).1.2 =
      (if r.2 then es.map (fun e => (e.1, n.sent e.2))
        else (es.map fun e => (e.1, n.sent e.2)).eraseP (answers iValue)).foldl appendMarked
        (marksOf r.1.1 r.1.2)) ∧
    (es.foldl (n.answerOne iValue) r).2 =
      (r.2 || (es.map fun e => (e.1, n.sent e.2)).any (answers iValue)) := by
  induction es generalizing r with
  | nil => simp
  | cons e es ih =>
    obtain ⟨⟨vs, f⟩, b⟩ := r
    rw [length_cons] at hlen
    have hvs : vs.length < 32 := by simp only at hlen; omega
    have happend : ∀ g : BitVec 32, (vs ++ [e.1]).length + es.length ≤ 32 := by
      intro _
      rw [length_append, length_singleton]
      simp only at hlen
      omega
    rw [foldl_cons, map_cons, answerOne]
    by_cases hsent : n.sent e.2 = true
    · rw [if_pos hsent]
      by_cases hfound : (!b && e.1.iValue == iValue) = true
      · -- the entry is answered
        rw [if_pos hfound]
        obtain ⟨hb, hvalue⟩ : b = false ∧ (e.1.iValue == iValue) = true := by
          simpa using hfound
        subst hb
        have hansw : answers iValue (e.1, n.sent e.2) = true := by
          rw [answers, hsent, hvalue]
          rfl
        obtain ⟨hmarks, hflag⟩ := ih ((vs, f), true) (by simp only at hlen ⊢; omega)
        rw [eraseP_cons_of_pos hansw, any_cons, hansw]
        exact ⟨hmarks, hflag⟩
      · -- it was sent, and stays
        rw [if_neg hfound]
        have hansw : b = true ∨ answers iValue (e.1, n.sent e.2) = false := by
          rw [answers, hsent]
          cases b
          · right
            simpa using hfound
          · exact .inl rfl
        obtain ⟨hmarks, hflag⟩ :=
          ih ((vs ++ [e.1], syncFlagSet f vs.length), b) (happend f)
        rw [marksOf_set f e.1 hvs] at hmarks
        rcases hansw with rfl | hansw
        · rw [if_pos rfl] at hmarks ⊢
          rw [foldl_cons, hsent]
          exact ⟨hmarks, by rw [hflag]; rfl⟩
        · rw [eraseP_cons_of_neg (by simp [hansw]), any_cons, hansw, Bool.false_or]
          refine ⟨?_, hflag⟩
          rw [hmarks]
          cases b
          · rw [if_neg Bool.false_ne_true, if_neg Bool.false_ne_true, foldl_cons, hsent]
          · rw [if_pos rfl, if_pos rfl, foldl_cons, hsent]
    · -- it was not sent
      have hunsent : n.sent e.2 = false := by simpa using hsent
      rw [if_neg hsent]
      have hansw : answers iValue (e.1, n.sent e.2) = false := by
        rw [answers, hunsent]
        rfl
      obtain ⟨hmarks, hflag⟩ :=
        ih ((vs ++ [e.1], syncFlagClean f vs.length), b) (happend f)
      rw [marksOf_clean f e.1 hvs] at hmarks
      rw [eraseP_cons_of_neg (by simp [hansw]), any_cons, hansw, Bool.false_or]
      refine ⟨?_, hflag⟩
      rw [hmarks]
      cases b
      · rw [if_neg Bool.false_ne_true, if_neg Bool.false_ne_true, foldl_cons, hunsent]
      · rw [if_pos rfl, if_pos rfl, foldl_cons, hunsent]

theorem event_marked (hn : n.aiValue.length ≤ eventMaxNum) (now iValue : Int) (b : Bool) :
    (n.event now iValue b).1.marked =
        (if b then n.marked else n.marked.eraseP (answers iValue)).foldl appendMarked [] ∧
      (n.event now iValue b).2 = (b || n.marked.any (answers iValue)) := by
  obtain ⟨hmarks, hflag⟩ := n.answer_loop_marks iValue n.aiValue.zipIdx (([], 0#32), b)
    (by simpa [eventMaxNum] using hn)
  rw [marked_eq]
  exact ⟨hmarks, hflag⟩

theorem length_event_le (hn : n.aiValue.length ≤ eventMaxNum) (now iValue : Int) (b : Bool) :
    (n.event now iValue b).1.aiValue.length ≤ n.aiValue.length := by
  have hlen := congrArg length (map_unmark_foldl []
    (if b then n.marked else n.marked.eraseP (answers iValue)))
  rw [← (event_marked hn now iValue b).1, length_map, length_map, nil_append,
    length_marked] at hlen
  rw [hlen, ← n.length_marked]
  split
  · exact le_refl _
  · exact length_eraseP_le

/-! ## Requests -/

theorem keep_loop_marks (es : List (SyncEntry × Nat)) (r : List SyncEntry × BitVec 32)
    (hlen : r.1.length + es.length ≤ 32) :
    marksOf (es.foldl n.keepSent r).1 (es.foldl n.keepSent r).2 =
      marksOf r.1 r.2 ++ (es.map fun e => (e.1, n.sent e.2)).filter Prod.snd := by
  induction es generalizing r with
  | nil => simp
  | cons e es ih =>
    rw [length_cons] at hlen
    rw [foldl_cons, map_cons, keepSent]
    by_cases hsent : n.sent e.2 = true
    · have hkeep : (e.1, n.sent e.2).2 = true := hsent
      rw [if_pos hsent, ih _ (by simp only [length_append, length_singleton]; omega),
        marksOf_set r.2 e.1 (by omega), filter_cons_of_pos hkeep, hsent, appendMarked,
        if_pos rfl, append_assoc, singleton_append]
    · have hdrop : ¬ (e.1, n.sent e.2).2 = true := hsent
      rw [if_neg hsent, ih _ (by omega), filter_cons_of_neg hdrop]

theorem dropUnsent_marked (hn : n.aiValue.length ≤ eventMaxNum) :
    n.dropUnsent.marked = n.marked.filter Prod.snd := by
  have hmarks := n.keep_loop_marks n.aiValue.zipIdx ([], 0#32) (by simpa [eventMaxNum] using hn)
  rw [marked_eq]
  exact hmarks

theorem push_marked {e : SyncEntry} {n' : SyncNode} (h : n.push e = some n') :
    n'.marked = n.marked.map unmark ++ [(e, false)] ∧ n.aiValue.length < eventMaxNum ∧
      n'.aiValue.length = n.aiValue.length + 1 := by
  rw [push] at h
  split at h
  · rename_i hlt
    cases h
    refine ⟨?_, hlt, by simp⟩
    rw [marked_eq, marked_eq]
    exact marksOf_clean n.uiSendFlag e hlt
  · cases h

theorem push_isSome (e : SyncEntry) :
    (∃ n', n.push e = some n') ↔ n.aiValue.length < eventMaxNum := by
  rw [push]
  split
  · rename_i hlt
    exact ⟨fun _ => hlt, fun _ => ⟨_, rfl⟩⟩
  · rename_i hge
    exact ⟨fun ⟨_, h⟩ => (nomatch h), fun h => absurd h hge⟩

/-- What stays of a queue when a request comes: what was sent, or everything. -/
def staying (n : SyncNode) (now : Int) : List (SyncEntry × Bool) :=
  if (n.count now).iProtect then n.marked.filter Prod.snd else n.marked

/-- A request finds a place behind what stays, and takes all marks away. -/
theorem reqAdd_marked (hn : n.aiValue.length ≤ eventMaxNum) (now : Int) (e : SyncEntry) :
    (∀ n', n.reqAdd now e = some n' →
      n'.marked = (n.staying now).map unmark ++ [(e, false)]) ∧
    ((∃ n', n.reqAdd now e = some n') ↔ (n.staying now).length < eventMaxNum) := by
  have hmarked : (if (n.count now).iProtect then (n.count now).dropUnsent else n.count now).marked =
      n.staying now := by
    rw [staying]
    split
    · exact dropUnsent_marked (n := n.count now) hn
    · rfl
  simp only [reqAdd, bind_eq_bind, pure_def, bind_eq_some_iff,
    some.injEq]
  refine ⟨?_, ?_⟩
  · rintro n' ⟨m, hm, rfl⟩
    have hpush := (push_marked hm).1
    rw [hmarked] at hpush
    exact hpush
  · rw [← hmarked, length_marked, ← push_isSome e]
    constructor
    · rintro ⟨n', m, hm, -⟩
      exact ⟨m, hm⟩
    · rintro ⟨m, hm⟩
      exact ⟨_, m, hm, rfl⟩

end SyncNode

/-! ## The queue of an attribute -/

section

variable {now : Int} {d k v : CText} {ns ms : List SyncNode} {n : SyncNode}

theorem syncEventLoop_others (h : ∀ m ∈ ns, m.isFor d k = false) (b : Bool) :
    syncEventLoop now d k v (ns ++ ms) b =
      (ns ++ (syncEventLoop now d k v ms b).1, (syncEventLoop now d k v ms b).2) := by
  induction ns with
  | nil => rfl
  | cons m ns ih =>
    obtain ⟨hm, hns⟩ := forall_mem_cons.mp h
    rw [cons_append, syncEventLoop, hm]
    simp only [Bool.false_eq_true, if_false, ih hns, cons_append]

theorem syncEventLoop_self (hn : n.isFor d k = true) (h : ∀ m ∈ ns ++ ms, m.isFor d k = false)
    (b : Bool) :
    syncEventLoop now d k v (ns ++ n :: ms) b =
      (ns ++ (n.event now (atoi v) b).1 :: ms, (n.event now (atoi v) b).2) := by
  obtain ⟨hns, hms⟩ := forall_mem_append.mp h
  have hrest : syncEventLoop now d k v (ms ++ []) (n.event now (atoi v) b).2 = _ :=
    syncEventLoop_others hms _
  rw [append_nil] at hrest
  rw [syncEventLoop_others hns, syncEventLoop, hn]
  simp only [if_true, hrest, syncEventLoop, append_nil]

theorem syncReqAddLoop_others (h : ∀ m ∈ ns, m.isFor d k = false) (iSeq : Nat) :
    syncReqAddLoop now d k v (ns ++ ms) iSeq =
      (syncReqAddLoop now d k v ms iSeq).map fun r => (ns ++ r.1, r.2) := by
  induction ns with
  | nil => simp
  | cons m ns ih =>
    obtain ⟨hm, hns⟩ := forall_mem_cons.mp h
    rw [cons_append, syncReqAddLoop, hm]
    simp only [Bool.false_eq_true, if_false, ih hns, bind_eq_bind, pure_def]
    cases syncReqAddLoop now d k v ms iSeq <;> rfl

theorem syncReqAddLoop_self (hn : n.isFor d k = true) (h : ∀ m ∈ ns ++ ms, m.isFor d k = false)
    (iSeq : Nat) :
    syncReqAddLoop now d k v (ns ++ n :: ms) iSeq =
      (n.reqAdd now ⟨atoi v, iSeq⟩).map fun n' => (ns ++ n' :: ms, iSeq + 1) := by
  obtain ⟨hns, hms⟩ := forall_mem_append.mp h
  have hrest : syncReqAddLoop now d k v (ms ++ []) (iSeq + 1) = _ :=
    syncReqAddLoop_others hms _
  rw [append_nil] at hrest
  rw [syncReqAddLoop_others hns, syncReqAddLoop, hn]
  simp only [if_true, hrest, syncReqAddLoop, bind_eq_bind, pure_def]
  cases n.reqAdd now ⟨atoi v, iSeq⟩ <;> simp

theorem sceneSyncEvent_eq (hx : x.nodes = ns ++ n :: ms) (hn : n.isFor d k = true)
    (h : ∀ m ∈ ns ++ ms, m.isFor d k = false) (now : Int) (v : CText) :
    sceneSyncEvent x now d k v =
      ({ x with nodes := ns ++ (n.event now (atoi v) false).1 :: ms },
        (n.event now (atoi v) false).2) := by
  rw [sceneSyncEvent, hx, syncEventLoop_self hn h]

theorem sceneSyncEventReqAdd_eq (hx : x.nodes = ns ++ n :: ms) (hn : n.isFor d k = true)
    (h : ∀ m ∈ ns ++ ms, m.isFor d k = false) (now : Int) (v : CText) :
    sceneSyncEventReqAdd x now d k v =
      (n.reqAdd now ⟨atoi v, x.iSeq⟩).map fun n' => ⟨ns ++ n' :: ms, x.iSeq + 1⟩ := by
  have hany : (x.nodes.any fun n => n.isFor d k) = true := by
    rw [hx, any_append, any_cons, hn, Bool.true_or, Bool.or_true]
  rw [sceneSyncEventReqAdd, if_pos hany, hx, syncReqAddLoop_self hn h]
  cases n.reqAdd now ⟨atoi v, x.iSeq⟩ <;> rfl

/-- The report is answered by the first entry that was sent with its value, which goes; every
other entry stays as it was. -/
structure Answered (n : SyncNode) (iValue : Int) (n' : SyncNode) (ucFoundFlag : Bool) : Prop where
  found : ucFoundFlag = true ↔ ∃ e ∈ n.marked, e.2 = true ∧ e.1.iValue = iValue
  rest : n'.marked = n.marked.eraseP (SyncNode.answers iValue)

theorem SyncNode.answered_event_iff (hn : n.aiValue.length ≤ eventMaxNum) (iValue : Int) :
    Answered n iValue (n.event now iValue false).1 (n.event now iValue false).2 ↔
      (n.marked.eraseP (answers iValue)).Pairwise fun e f => e.2 = true → f.2 = true := by
  obtain ⟨hmarks, hflag⟩ := event_marked hn now iValue false
  rw [if_neg Bool.false_ne_true] at hmarks
  rw [Bool.false_or] at hflag
  rw [← foldl_appendMarked_eq, ← hmarks]
  constructor
  · exact fun h => h.rest
  · refine fun h => ⟨?_, h⟩
    rw [hflag, List.any_eq_true]
    simp [answers]

/-- In every state of a queue, a report is answered as it should be exactly when, among the
entries it does not answer, none that was not sent stands behind one that was. -/
theorem sceneSyncEvent_answered_iff {x : SyncList} (hx : x.nodes = ns ++ n :: ms)
    (hlen : n.aiValue.length ≤ eventMaxNum) (hn : n.isFor d k = true)
    (h : ∀ m ∈ ns ++ ms, m.isFor d k = false) (now : Int) (v : CText) :
    (∃ n', (sceneSyncEvent x now d k v).1.nodes = ns ++ n' :: ms ∧
        Answered n (atoi v) n' (sceneSyncEvent x now d k v).2) ↔
      (n.marked.eraseP (SyncNode.answers (atoi v))).Pairwise
        fun e f => e.2 = true → f.2 = true := by
  have hanswered : Answered n (atoi v) (n.event now (atoi v) false).1
      (n.event now (atoi v) false).2 ↔ _ := SyncNode.answered_event_iff hlen _
  rw [sceneSyncEvent_eq hx hn h, ← hanswered]
  constructor
  · rintro ⟨n', hnodes, hans⟩
    have hsame := (List.cons.inj (List.append_cancel_left hnodes)).1
    exact hsame ▸ hans
  · exact fun hans => ⟨_, rfl, hans⟩

/-- A queue of two entries that were both sent. -/
def Sample.sentTwo : SyncNode where
  acDevId := ['d']
  acKey := ['k']
  aiValue := [⟨1, 0⟩, ⟨2, 1⟩]
  uiSendFlag := 3#32
  iProtect := false
  iCount := 2
  stActiveTime := 0

/-- A queue whose first entry was sent and whose second was not. -/
def Sample.sentFirst : SyncNode := { Sample.sentTwo with uiSendFlag := 1#32 }

theorem sceneSyncEvent_answered_sentTwo :
    (∃ n', (sceneSyncEvent ⟨[Sample.sentTwo], 2⟩ 1 ['d'] ['k'] ['2']).1.nodes = [] ++ n' :: [] ∧
        Answered Sample.sentTwo (atoi ['2']) n'
          (sceneSyncEvent ⟨[Sample.sentTwo], 2⟩ 1 ['d'] ['k'] ['2']).2) ↔
      (Sample.sentTwo.marked.eraseP (SyncNode.answers (atoi ['2']))).Pairwise
        fun e f => e.2 = true → f.2 = true :=
  sceneSyncEvent_answered_iff
    (show (⟨[Sample.sentTwo], 2⟩ : SyncList).nodes = [] ++ Sample.sentTwo :: [] from rfl)
    (by decide) (by decide) (by simp) 1 ['2']

/-- A report that answers no entry takes the mark of the first away. -/
theorem sceneSyncEvent_loses_mark :
    ¬ ∀ (x : SyncList) (ns ms : List SyncNode) (n : SyncNode) (d k : CText),
      x.nodes = ns ++ n :: ms → n.aiValue.length ≤ eventMaxNum → n.isFor d k = true →
      (∀ m ∈ ns ++ ms, m.isFor d k = false) → ∀ (now : Int) (v : CText),
      ∃ n', (sceneSyncEvent x now d k v).1.nodes = ns ++ n' :: ms ∧
        Answered n (atoi v) n' (sceneSyncEvent x now d k v).2 := by
  intro h
  obtain ⟨n', hnodes, hans⟩ := h ⟨[Sample.sentFirst], 2⟩ [] [] Sample.sentFirst ['d'] ['k'] rfl
    (by decide) (by decide) (by simp) 1 ['5']
  have hnodes : [(Sample.sentFirst.event 1 5 false).1] = [n'] := hnodes
  obtain rfl := (List.cons.inj hnodes).1
  exact absurd hans.rest (by decide)

/-- Under protection a request replaces what was not sent and keeps what was, exactly when
nothing was sent. -/
theorem sceneSyncEventReqAdd_coalesces_iff {x : SyncList} (hx : x.nodes = ns ++ n :: ms)
    (hlen : n.aiValue.length ≤ eventMaxNum) (hn : n.isFor d k = true)
    (h : ∀ m ∈ ns ++ ms, m.isFor d k = false) (now : Int) (v : CText)
    (hprotect : (n.count now).iProtect = true) :
    (∃ x' n', sceneSyncEventReqAdd x now d k v = some x' ∧ x'.nodes = ns ++ n' :: ms ∧
        n'.marked = n.marked.filter Prod.snd ++ [(⟨atoi v, x.iSeq⟩, false)]) ↔ n.NoneSent := by
  obtain ⟨hmarked, hsome⟩ := SyncNode.reqAdd_marked hlen now ⟨atoi v, x.iSeq⟩
  have hstay : n.staying now = n.marked.filter Prod.snd := by
    rw [SyncNode.staying, if_pos hprotect]
  have hkept : (n.marked.filter Prod.snd).map unmark = n.marked.filter Prod.snd ↔ n.NoneSent := by
    rw [map_unmark_eq_self, SyncNode.noneSent_iff]
    constructor
    · intro hall e he
      by_contra hsent
      have hsent : e.2 = true := by simpa using hsent
      have := hall e (List.mem_filter.mpr ⟨he, hsent⟩)
      rw [hsent] at this
      cases this
    · exact fun hall e he => hall e (List.mem_of_mem_filter he)
  rw [sceneSyncEventReqAdd_eq hx hn h, ← hkept]
  constructor
  · rintro ⟨x', n', hx', hnodes, hn'⟩
    obtain ⟨m, hm, rfl⟩ := map_eq_some_iff.mp hx'
    obtain rfl := (List.cons.inj (List.append_cancel_left hnodes)).1
    rw [hmarked m hm, hstay] at hn'
    exact List.append_cancel_right hn'
  · intro hmap
    have hnil : n.marked.filter Prod.snd = [] := by
      rw [List.filter_eq_nil_iff]
      intro e he hsent
      have := SyncNode.noneSent_iff.mp (hkept.mp hmap) e he
      rw [this] at hsent
      cases hsent
    obtain ⟨m, hm⟩ := hsome.mpr (by rw [hstay, hnil]; exact Nat.succ_pos _)
    refine ⟨_, m, by rw [hm]; rfl, rfl, ?_⟩
    rw [hmarked m hm, hstay, hmap]

end

namespace Sample

/-- Three requests for the attribute `k` of the device `d` within a second, executed at once. -/
def threeCalls : List SyncCall :=
  [.reqAdd 0 ['d'] ['k'] ['1'], .reqAdd 0 ['d'] ['k'] ['2'], .reqAdd 0 ['d'] ['k'] ['3'],
    .reqExec 0]

/-- The queue they leave. -/
def sentThree : SyncNode where
  acDevId := ['d']
  acKey := ['k']
  aiValue := [⟨1, 0⟩, ⟨2, 1⟩, ⟨3, 2⟩]
  uiSendFlag := 7#32
  iProtect := false
  iCount := 3
  stActiveTime := 0

example : (Run.run SyncList.call .init threeCalls).map Prod.fst = some ⟨[sentThree], 3⟩ := by
  decide

/-- The queue of three requests that were not executed. -/
def unsentThree : SyncNode := { sentThree with uiSendFlag := 0#32 }

end Sample

theorem sceneSyncEventReqAdd_coalesces_unsentThree :
    (∃ x' n', sceneSyncEventReqAdd ⟨[Sample.unsentThree], 3⟩ 1 ['d'] ['k'] ['4'] = some x' ∧
        x'.nodes = [] ++ n' :: [] ∧ n'.marked =
          Sample.unsentThree.marked.filter Prod.snd ++ [(⟨atoi ['4'], 3⟩, false)]) ↔
      Sample.unsentThree.NoneSent :=
  sceneSyncEventReqAdd_coalesces_iff
    (show (⟨[Sample.unsentThree], 3⟩ : SyncList).nodes = [] ++ Sample.unsentThree :: [] from rfl)
    (by decide) (by decide) (by simp) 1 ['4'] (by decide)

/-- The request that turns the protection on takes the marks of the three entries away. -/
theorem sceneSyncEventReqAdd_loses_marks :
    ¬ ∀ (x : SyncList) (ns ms : List SyncNode) (n : SyncNode) (d k : CText),
      x.nodes = ns ++ n :: ms → n.aiValue.length ≤ eventMaxNum → n.isFor d k = true →
      (∀ m ∈ ns ++ ms, m.isFor d k = false) → ∀ (now : Int) (v : CText),
      (n.count now).iProtect = true →
      ∃ x' n', sceneSyncEventReqAdd x now d k v = some x' ∧ x'.nodes = ns ++ n' :: ms ∧
        n'.marked = n.marked.filter Prod.snd ++ [(⟨atoi v, x.iSeq⟩, false)] := by
  intro h
  obtain ⟨x', n', hx', hnodes, hmarked⟩ := h ⟨[Sample.sentThree], 3⟩ [] [] Sample.sentThree
    ['d'] ['k'] rfl (by decide) (by decide) (by simp) 1 ['4'] (by decide)
  have hreq : (Sample.sentThree.reqAdd 1 ⟨4, 3⟩).map (fun n => (⟨[n], 4⟩ : SyncList)) = some x' :=
    hx'
  obtain ⟨m, hm, rfl⟩ := map_eq_some_iff.mp hreq
  obtain rfl := (List.cons.inj hnodes).1
  have hlost : (Sample.sentThree.reqAdd 1 ⟨4, 3⟩).map SyncNode.marked =
      some [(⟨1, 0⟩, false), (⟨2, 1⟩, false), (⟨3, 2⟩, false), (⟨4, 3⟩, false)] := by decide
  rw [hm, map_some, hmarked] at hlost
  exact absurd hlost (by decide)

/-! ## The bound of the queues -/

/-- No queue has more entries than its array has places. -/
def SyncList.Bounded (x : SyncList) : Prop := ∀ n ∈ x.nodes, n.aiValue.length ≤ eventMaxNum

/-- Behind the entries that stay of the queue of a request, there is a place. -/
def SyncCall.Room (x : SyncList) : SyncCall → Prop
  | .reqAdd now d k _ => ∀ n ∈ x.nodes, n.isFor d k = true →
      (n.staying now).length < eventMaxNum
  | .reqExec _ => True
  | .event _ _ _ _ => True

instance SyncCall.decidableRoom (x : SyncList) : (a : SyncCall) → Decidable (a.Room x)
  | .reqAdd now d k _ => inferInstanceAs (Decidable (∀ n ∈ x.nodes, n.isFor d k = true →
      (n.staying now).length < eventMaxNum))
  | .reqExec _ => inferInstanceAs (Decidable True)
  | .event _ _ _ _ => inferInstanceAs (Decidable True)

theorem syncReqAddLoop_bounded {now : Int} {d k v : CText} (ns : List SyncNode)
    (hns : ∀ n ∈ ns, n.aiValue.length ≤ eventMaxNum) (iSeq : Nat) :
    (∀ r, syncReqAddLoop now d k v ns iSeq = some r → ∀ n ∈ r.1, n.aiValue.length ≤ eventMaxNum) ∧
    ((∃ r, syncReqAddLoop now d k v ns iSeq = some r) ↔
      ∀ n ∈ ns, n.isFor d k = true → (n.staying now).length < eventMaxNum) := by
  induction ns generalizing iSeq with
  | nil => simp [syncReqAddLoop]
  | cons n ns ih =>
    obtain ⟨hn, hns⟩ := forall_mem_cons.mp hns
    rw [forall_mem_cons, syncReqAddLoop]
    by_cases hfor : n.isFor d k = true
    · obtain ⟨hbound, hsome⟩ := ih hns (iSeq + 1)
      obtain ⟨hmarked, hroom⟩ := SyncNode.reqAdd_marked hn now ⟨atoi v, iSeq⟩
      simp only [hfor, if_true, bind_eq_bind, pure_def, bind_eq_some_iff,
        some.injEq, true_implies]
      refine ⟨?_, ?_⟩
      · rintro - ⟨n', hn', ⟨ns', iSeq'⟩, hr, rfl⟩
        refine forall_mem_cons.mpr ⟨?_, hbound _ hr⟩
        have hlen := congrArg length (hmarked n' hn')
        rw [SyncNode.length_marked, length_append, length_map,
          length_singleton] at hlen
        have := hroom.mp ⟨n', hn'⟩
        omega
      · rw [← hroom, ← hsome]
        constructor
        · rintro ⟨-, n', hn', r, hr, -⟩
          exact ⟨⟨n', hn'⟩, r, hr⟩
        · rintro ⟨⟨n', hn'⟩, r, hr⟩
          exact ⟨_, n', hn', r, hr, rfl⟩
    · obtain ⟨hbound, hsome⟩ := ih hns iSeq
      simp only [hfor, if_false, bind_eq_bind, pure_def, bind_eq_some_iff,
        some.injEq, false_implies, true_and, Bool.false_eq_true]
      refine ⟨?_, ?_⟩
      · rintro - ⟨⟨ns', iSeq'⟩, hr, rfl⟩
        exact forall_mem_cons.mpr ⟨hn, hbound _ hr⟩
      · rw [← hsome]
        constructor
        · rintro ⟨-, r, hr, -⟩
          exact ⟨r, hr⟩
        · rintro ⟨r, hr⟩
          exact ⟨_, r, hr, rfl⟩

theorem SyncNode.reqExec_aiValue {n n' : SyncNode} {now : Int} {ds : List SyncDispatch}
    (h : n.reqExec now = some (n', ds)) : n'.aiValue = n.aiValue := by
  rw [reqExec] at h
  split at h
  · cases h
  split at h
  · cases h
  split at h
  · simp only at h
    split at h <;> split at h <;> cases h <;> rfl
  · cases h
    rfl

theorem SyncList.Bounded.call (hx : x.Bounded) (a : SyncCall) :
    (∀ x' ds, x.call a = some (x', ds) → x'.Bounded) ∧
      ((∃ r, x.call a = some r) ↔ a.Room x) := by
  cases a with
  | reqAdd now d k v =>
    obtain ⟨hbound, hsome⟩ := @syncReqAddLoop_bounded now d k v x.nodes hx x.iSeq
    rw [SyncCall.Room, ← hsome]
    simp only [SyncList.call, sceneSyncEventReqAdd]
    by_cases hany : (x.nodes.any fun n => n.isFor d k) = true
    · rw [if_pos hany]
      simp only [bind_eq_bind, pure_def, map_eq_some_iff,
        bind_eq_some_iff, some.injEq, Prod.mk.injEq]
      refine ⟨?_, ?_⟩
      · rintro - - ⟨-, ⟨r, hr, rfl⟩, rfl, -⟩
        exact hbound r hr
      · constructor
        · rintro ⟨-, -, ⟨r, hr, -⟩, -⟩
          exact ⟨r, hr⟩
        · rintro ⟨r, hr⟩
          exact ⟨_, _, ⟨r, hr, rfl⟩, rfl⟩
    · have hothers : ∀ m ∈ x.nodes, m.isFor d k = false := by
        simpa using hany
      rw [if_neg hany]
      refine ⟨?_, iff_of_true ⟨_, rfl⟩ (hsome.mpr fun n hn hfor => ?_)⟩
      · intro x' ds h
        cases h
        refine forall_mem_append.mpr ⟨hx, ?_⟩
        simp [eventMaxNum]
      · rw [hothers n hn] at hfor
        cases hfor
  | reqExec now =>
    refine ⟨?_, iff_of_true ⟨_, rfl⟩ trivial⟩
    intro x' ds h
    cases h
    intro n hn
    obtain ⟨m, hm, hn⟩ := mem_filterMap.mp hn
    obtain ⟨⟨n', ds⟩, hexec, rfl⟩ := map_eq_some_iff.mp hn
    rw [SyncNode.reqExec_aiValue hexec]
    exact hx m hm
  | event now d k v =>
    refine ⟨?_, iff_of_true ⟨_, rfl⟩ trivial⟩
    intro x' ds h
    cases h
    have hloop : ∀ (ns : List SyncNode) (b : Bool),
        (∀ n ∈ ns, n.aiValue.length ≤ eventMaxNum) →
        ∀ n ∈ (syncEventLoop now d k v ns b).1, n.aiValue.length ≤ eventMaxNum := by
      intro ns
      induction ns with
      | nil => simp [syncEventLoop]
      | cons n ns ih =>
        intro b hns
        obtain ⟨hn, hns⟩ := forall_mem_cons.mp hns
        rw [syncEventLoop]
        refine forall_mem_cons.mpr ⟨?_, ih _ hns⟩
        split
        · exact (SyncNode.length_event_le hn now (atoi v) b).trans hn
        · exact hn
    exact hloop x.nodes false hx

/-- A run goes through, and leaves no queue with more entries than places, exactly when every
request finds a place behind the entries that stay of its queue. -/
theorem sync_run_bounded_iff (as : List SyncCall) :
    (∃ x ds, Run.run SyncList.call .init as = some (x, ds) ∧ x.Bounded) ↔
      Run.Along SyncList.call (fun x a => a.Room x) .init as := by
  have hinit : SyncList.Bounded .init := by simp [SyncList.Bounded, SyncList.init]
  rw [← Run.run_isSome_iff_along (J := SyncList.Bounded) (fun x a hx => (hx.call a).2)
    (fun x a x' ds hx h => (hx.call a).1 x' ds h) hinit]
  constructor
  · rintro ⟨x, ds, hrun, -⟩
    exact ⟨(x, ds), hrun⟩
  · rintro ⟨⟨x, ds⟩, hrun⟩
    exact ⟨x, ds, hrun, Run.run_preserves (fun x a x' o hx h => (hx.call a).1 x' o h) hinit hrun⟩

/-- Requests for one attribute, each two seconds after the one before. -/
def Sample.slowCalls : List SyncCall :=
  (List.range 33).map fun i => .reqAdd (2 * i) ['d'] ['k'] ['1']

/-- The thirty-third is written behind the array. -/
theorem sync_run_overflows :
    ¬ ∀ as : List SyncCall,
      ∃ x ds, Run.run SyncList.call .init as = some (x, ds) ∧ x.Bounded := by
  intro h
  obtain ⟨x, ds, hrun, -⟩ := h Sample.slowCalls
  have hnone : Run.run SyncList.call .init Sample.slowCalls = none := by decide +kernel
  rw [hnone] at hrun
  cases hrun

end Honyar.LocalScene
