import Honyar.LocalScene.SceneSync
import Mathlib.Data.List.Flatten
import Mathlib.Data.List.Pairwise

/-!
# No command is sent twice

Runs of the three operations on the synchronisation queues.  The cleaning of a
flag cleans all flags of its queue, so a request to a queue that still holds an
entry that was sent makes the next execution send that entry again; a run
without such a request sends every entry at most once.

The invariant behind it: in every queue either all entries were sent or none
was, and in the second case none of them is among the dispatches so far.
-/

namespace Honyar.LocalScene

open CText Option SyncNode
open List hiding map_map pure_def

/-! ## The flags -/

theorem syncFlagGet_eq (f : BitVec 32) (i : Nat) : syncFlagGet f i = f.getLsbD i := by
  have h : (f >>> i) &&& 1#32 = if f.getLsbD i then 1#32 else 0#32 := by
    apply BitVec.eq_of_getLsbD_eq
    intro j _
    rw [BitVec.getLsbD_and, BitVec.getLsbD_ushiftRight, BitVec.getLsbD_one]
    by_cases hj : j = 0
    · subst hj
      cases f.getLsbD i <;> simp
    · cases f.getLsbD i <;> simp [hj, BitVec.getLsbD_one]
  rw [syncFlagGet, h]
  cases f.getLsbD i <;> decide

theorem getLsbD_syncFlagSet (f : BitVec 32) {i : Nat} (hi : i < 32) (j : Nat) :
    (syncFlagSet f i).getLsbD j = if j = i then true else f.getLsbD j :=
  Mask.getLsbD_write f hi true j

theorem syncFlagClean_eq (f : BitVec 32) {i : Nat} (hi : i < 32) : syncFlagClean f i = 0#32 := by
  have h : 1#32 <<< i ≠ 0#32 := by
    intro h
    have := congrArg (fun x => x.getLsbD i) h
    simp [Mask.getLsbD_shiftLeft_one i i hi] at this
  simp [syncFlagClean, h]

namespace SyncNode

variable {n : SyncNode}

/-- The numbers of the entries. -/
def seqs (n : SyncNode) : List Nat := n.aiValue.map SyncEntry.iSeq

/-- No entry was sent. -/
def NoneSent (n : SyncNode) : Prop := ∀ i < n.aiValue.length, n.sent i = false

/-- Every entry was sent. -/
def AllSent (n : SyncNode) : Prop := ∀ i < n.aiValue.length, n.sent i = true

instance (n : SyncNode) : Decidable n.NoneSent := by unfold NoneSent; infer_instance

theorem sent_eq (n : SyncNode) (i : Nat) : n.sent i = n.uiSendFlag.getLsbD i := syncFlagGet_eq _ _

theorem AllSent.of_mem (h : n.AllSent) {e : SyncEntry × Nat} (he : e ∈ n.aiValue.zipIdx) :
    n.sent e.2 = true :=
  h _ (mem_zipIdx' he).1

theorem NoneSent.of_mem (h : n.NoneSent) {e : SyncEntry × Nat} (he : e ∈ n.aiValue.zipIdx) :
    n.sent e.2 = false :=
  h _ (mem_zipIdx' he).1

/-! ## Requests -/

theorem NoneSent.dropUnsent (h : n.NoneSent) : n.dropUnsent.aiValue = [] := by
  have hloop : n.aiValue.zipIdx.foldl n.keepSent ([], 0#32) = ([], 0#32) := by
    refine foldlRecOn (motive := fun r => r = ([], 0#32)) _ _ rfl ?_
    rintro r rfl e he
    rw [keepSent, if_neg (by simp [h.of_mem he])]
  rw [SyncNode.dropUnsent, hloop]

/-- A request to a queue none of whose entries was sent leaves such a queue: the
old entries, or none of them, and the new one. -/
theorem NoneSent.reqAdd (h : n.NoneSent) {now : Int} (e : SyncEntry)
    (hroom : (n.count now).iProtect = true ∨ n.aiValue.length < eventMaxNum) :
    ∃ n', n.reqAdd now e = some n' ∧ n'.NoneSent ∧ n'.aiValue.length ≤ eventMaxNum ∧
      ∃ es, es.Sublist n.aiValue ∧ n'.aiValue = es ++ [e] := by
  have hpush : ∀ m : SyncNode, m.aiValue.length < eventMaxNum →
      ∃ m', m.push e = some m' ∧ m'.uiSendFlag = 0#32 ∧ m'.aiValue = m.aiValue ++ [e] := by
    intro m hm
    refine ⟨_, if_pos hm, ?_, rfl⟩
    exact syncFlagClean_eq _ hm
  have hrest : ∀ m : SyncNode, m.aiValue.Sublist n.aiValue → m.aiValue.length < eventMaxNum →
      ∃ n', (m.push e).bind (fun m' => some { m' with stActiveTime := now }) = some n' ∧
        n'.NoneSent ∧ n'.aiValue.length ≤ eventMaxNum ∧
        ∃ es, es.Sublist n.aiValue ∧ n'.aiValue = es ++ [e] := by
    intro m hsub hm
    obtain ⟨m', hm', hflag, hvalue⟩ := hpush m hm
    refine ⟨{ m' with stActiveTime := now }, by rw [hm', bind_some], ?_, ?_,
      m.aiValue, hsub, hvalue⟩
    · intro i _
      simp [sent_eq, hflag]
    · simp only [hvalue, length_append, length_singleton]
      omega
  simp only [SyncNode.reqAdd, bind_eq_bind, pure_def]
  by_cases hp : (n.count now).iProtect = true
  · rw [if_pos hp]
    have hnone : (n.count now).NoneSent := h
    apply hrest
    · rw [hnone.dropUnsent]
      exact nil_sublist _
    · rw [hnone.dropUnsent]
      decide
  · rw [if_neg hp]
    exact hrest _ (List.Sublist.refl _) (hroom.resolve_left hp)

/-! ## Executions -/

/-- What sending the rest `es` of a queue does to the flags and the
dispatches. -/
theorem sendAll_loop (n : SyncNode) (es : List (SyncEntry × Nat)) (hes : ∀ e ∈ es, e.2 < 32)
    (r : BitVec 32 × List SyncDispatch) :
    ∃ f ds, es.foldl n.sendOne r = (f, r.2 ++ ds) ∧
      (∀ i, r.1.getLsbD i = true ∨ i ∈ es.map Prod.snd → f.getLsbD i = true) ∧
      (ds.map SyncDispatch.iSeq).Sublist (es.map (SyncEntry.iSeq ∘ Prod.fst)) := by
  induction es generalizing r with
  | nil => exact ⟨r.1, [], by simp, by simp, by simp⟩
  | cons e es ih =>
    have he : e.2 < 32 := hes e mem_cons_self
    have hes' : ∀ d ∈ es, d.2 < 32 := fun d hd => hes d (mem_cons_of_mem _ hd)
    obtain ⟨f, ds, heq, hflag, hsub⟩ := ih hes' (n.sendOne r e)
    rw [foldl_cons, heq]
    by_cases hf : syncFlagGet r.1 e.2 = true
    · rw [sendOne, if_pos hf] at hflag ⊢
      refine ⟨f, ds, rfl, ?_, hsub.cons _⟩
      rintro i (hi | hi)
      · exact hflag i (.inl hi)
      · rcases mem_cons.mp hi with rfl | hi
        · exact hflag _ (.inl (by rw [← syncFlagGet_eq]; exact hf))
        · exact hflag i (.inr hi)
    · rw [sendOne, if_neg hf] at hflag ⊢
      refine ⟨f, _, by rw [append_assoc], ?_, ?_⟩
      · rintro i (hi | hi)
        · refine hflag i (.inl ?_)
          rw [getLsbD_syncFlagSet _ he]
          split
          · rfl
          · exact hi
        · rcases mem_cons.mp hi with rfl | hi
          · exact hflag _ (.inl (by rw [getLsbD_syncFlagSet _ he, if_pos rfl]))
          · exact hflag i (.inr hi)
      · exact hsub.cons_cons _

theorem sendAll_allSent (hn : n.aiValue.length ≤ eventMaxNum) : n.sendAll.1.AllSent := by
  obtain ⟨f, ds, heq, hflag, -⟩ := n.sendAll_loop n.aiValue.zipIdx
    (fun e he => lt_of_lt_of_le (mem_zipIdx' he).1 hn) (n.uiSendFlag, [])
  intro i hi
  rw [sent_eq]
  simp only [sendAll, heq] at hi ⊢
  refine hflag i (.inr ?_)
  rw [zipIdx_map_snd, mem_range']
  exact ⟨i, by simpa using hi, by simp⟩

theorem sendAll_seqs (hn : n.aiValue.length ≤ eventMaxNum) :
    (n.sendAll.2.map SyncDispatch.iSeq).Sublist n.seqs := by
  obtain ⟨f, ds, heq, -, hsub⟩ := n.sendAll_loop n.aiValue.zipIdx
    (fun e he => lt_of_lt_of_le (List.mem_zipIdx' he).1 hn) (n.uiSendFlag, [])
  rw [← List.map_map, List.zipIdx_map_fst] at hsub
  rw [sendAll, heq]
  exact hsub

theorem AllSent.sendAll (h : n.AllSent) : n.sendAll.2 = [] := by
  have hloop : n.aiValue.zipIdx.foldl n.sendOne (n.uiSendFlag, []) = (n.uiSendFlag, []) := by
    refine foldlRecOn (motive := fun r => r = (n.uiSendFlag, [])) _ _ rfl ?_
    rintro r rfl e he
    exact if_pos (h.of_mem he)
  rw [SyncNode.sendAll, hloop]

/-! ## Reports -/

/-- A report to the rest `es` of a queue all of whose entries were sent: the
flags of the entries that stay are set. -/
theorem answer_loop_sent (iValue : Int) (es : List (SyncEntry × Nat))
    (hes : ∀ e ∈ es, n.sent e.2 = true) (r : (List SyncEntry × BitVec 32) × Bool)
    (hlen : r.1.1.length + es.length ≤ 32) (hr : ∀ i < r.1.1.length, r.1.2.getLsbD i = true) :
    ∃ vs f b, es.foldl (n.answerOne iValue) r = ((r.1.1 ++ vs, f), b) ∧
      vs.Sublist (es.map Prod.fst) ∧ ∀ i < (r.1.1 ++ vs).length, f.getLsbD i = true := by
  induction es generalizing r with
  | nil => exact ⟨[], r.1.2, r.2, by simp, by simp, by simpa using hr⟩
  | cons e es ih =>
    have hes' : ∀ d ∈ es, n.sent d.2 = true := fun d hd => hes d (mem_cons_of_mem _ hd)
    rw [length_cons] at hlen
    rw [foldl_cons, answerOne, if_pos (hes e mem_cons_self)]
    split
    · obtain ⟨vs, f, b, heq, hsub, hf⟩ := ih hes' (r.1, true) (by simp only; omega) hr
      exact ⟨vs, f, b, heq, hsub.cons _, hf⟩
    · have hset : ∀ i < (r.1.1 ++ [e.1]).length,
          (syncFlagSet r.1.2 r.1.1.length).getLsbD i = true := by
        intro i hi
        rw [getLsbD_syncFlagSet _ (by omega)]
        split
        · rfl
        · rw [length_append, length_singleton] at hi
          exact hr i (by omega)
      obtain ⟨vs, f, b, heq, hsub, hf⟩ :=
        ih hes' ((r.1.1 ++ [e.1], syncFlagSet r.1.2 r.1.1.length), r.2)
          (by simp only [length_append, length_singleton]; omega) hset
      rw [append_assoc] at heq hf
      exact ⟨e.1 :: vs, f, b, heq, hsub.cons_cons _, hf⟩

theorem AllSent.event (h : n.AllSent) (hn : n.aiValue.length ≤ eventMaxNum) (now iValue : Int)
    (b : Bool) :
    (n.event now iValue b).1.AllSent ∧ (n.event now iValue b).1.aiValue.Sublist n.aiValue := by
  obtain ⟨vs, f, b', heq, hsub, hf⟩ := answer_loop_sent iValue n.aiValue.zipIdx
    (fun e he => h.of_mem he) (([], 0#32), b) (by simpa [eventMaxNum] using hn) (by simp)
  rw [zipIdx_map_fst] at hsub
  simp only [SyncNode.event, heq, nil_append] at hf ⊢
  refine ⟨fun i hi => ?_, hsub⟩
  rw [sent_eq]
  exact hf i hi

theorem answer_loop_unsent (iValue : Int) (es : List (SyncEntry × Nat))
    (hes : ∀ e ∈ es, n.sent e.2 = false) (vs : List SyncEntry) (b : Bool)
    (hlen : vs.length + es.length ≤ 32) :
    es.foldl (n.answerOne iValue) ((vs, 0#32), b) = ((vs ++ es.map Prod.fst, 0#32), b) := by
  induction es generalizing vs with
  | nil => simp
  | cons e es ih =>
    have hes' : ∀ d ∈ es, n.sent d.2 = false := fun d hd => hes d (mem_cons_of_mem _ hd)
    rw [length_cons] at hlen
    rw [foldl_cons, answerOne, if_neg (by simp [hes e mem_cons_self]),
      syncFlagClean_eq _ (by simp only; omega), ih hes' _ (by simp; omega)]
    simp

theorem NoneSent.event (h : n.NoneSent) (hn : n.aiValue.length ≤ eventMaxNum) (now iValue : Int)
    (b : Bool) :
    (n.event now iValue b).1.NoneSent ∧ (n.event now iValue b).1.aiValue = n.aiValue := by
  have hloop := answer_loop_unsent iValue n.aiValue.zipIdx (fun e he => h.of_mem he) [] b
    (by simpa [eventMaxNum] using hn)
  rw [zipIdx_map_fst, nil_append] at hloop
  rw [SyncNode.event, hloop]
  exact ⟨fun i _ => by simp [sent_eq], rfl⟩

/-! ## One queue and the dispatches so far -/

/-- The queue can be executed without sending one of `log` again. -/
structure Once (n : SyncNode) (log : List Nat) : Prop where
  length_le : n.aiValue.length ≤ eventMaxNum
  sent : n.AllSent ∨ n.NoneSent ∧ ∀ q ∈ n.seqs, q ∉ log

theorem Once.reqAdd {log : List Nat} (h : n.Once log) (hnone : n.NoneSent) {now : Int}
    (e : SyncEntry) (he : e.iSeq ∉ log)
    (hroom : (n.count now).iProtect = true ∨ n.aiValue.length < eventMaxNum) :
    ∃ n', n.reqAdd now e = some n' ∧ n'.Once log ∧
      ∃ qs, qs.Sublist n.seqs ∧ n'.seqs = qs ++ [e.iSeq] := by
  obtain ⟨n', heq, hnone', hlen, es, hsub, hvalue⟩ := hnone.reqAdd e hroom
  have hseqs : n'.seqs = es.map SyncEntry.iSeq ++ [e.iSeq] := by simp [seqs, hvalue]
  refine ⟨n', heq, ⟨hlen, .inr ⟨hnone', ?_⟩⟩, es.map SyncEntry.iSeq, hsub.map _, hseqs⟩
  intro q hq
  rw [hseqs, mem_append, mem_singleton] at hq
  rcases hq with hq | rfl
  · have hq' : q ∈ n.seqs := (hsub.map SyncEntry.iSeq).subset hq
    rcases h.sent with hall | ⟨-, hlog⟩
    · -- a queue both all and none of which was sent is empty
      exfalso
      cases hv : n.aiValue with
      | nil => simp [seqs, hv] at hq'
      | cons d ds =>
        have hpos : 0 < n.aiValue.length := by simp [hv]
        exact absurd (hall 0 hpos) (by simp [hnone 0 hpos])
    · exact hlog q hq'
  · exact he

theorem Once.reqExec {log : List Nat} (h : n.Once log) (now : Int) :
    n.reqExec now = none ∨
    ∃ n' ds, n.reqExec now = some (n', ds) ∧ n'.aiValue = n.aiValue ∧
      (ds.map SyncDispatch.iSeq).Sublist n.seqs ∧ (∀ d ∈ ds, d.iSeq ∉ log) ∧
      (n'.AllSent ∨ ds = [] ∧ n'.NoneSent ∧ ∀ q ∈ n.seqs, q ∉ log) := by
  have hsend : ∀ m : SyncNode, m.aiValue = n.aiValue → m.uiSendFlag = n.uiSendFlag →
      (m.sendAll.2.map SyncDispatch.iSeq).Sublist n.seqs ∧
        (∀ d ∈ m.sendAll.2, d.iSeq ∉ log) ∧ m.sendAll.1.AllSent := by
    intro m hv hf
    have hlen : m.aiValue.length ≤ eventMaxNum := hv ▸ h.length_le
    have hsub : (m.sendAll.2.map SyncDispatch.iSeq).Sublist n.seqs := by
      rw [seqs, ← hv]
      exact sendAll_seqs hlen
    refine ⟨hsub, ?_, sendAll_allSent hlen⟩
    intro d hd
    rcases h.sent with hall | ⟨-, hlog⟩
    · have hall' : m.AllSent := by
        intro i hi
        rw [sent_eq, hf, ← sent_eq]
        exact hall i (hv ▸ hi)
      rw [hall'.sendAll] at hd
      simp at hd
    · exact hlog _ (hsub.subset (mem_map_of_mem hd))
  rw [SyncNode.reqExec]
  split
  · exact .inl rfl
  split
  · exact .inl rfl
  split
  · -- under protection: the queue waits, or is sent with the protection lifted or not
    right
    have hm : ∃ m : SyncNode, m = (if now - n.stActiveTime ≥ syncEventSafeTime then
        { n with iProtect := false, iCount := 0 } else n) ∧
        m.aiValue = n.aiValue ∧ m.uiSendFlag = n.uiSendFlag := by
      refine ⟨_, rfl, ?_, ?_⟩ <;> split <;> rfl
    obtain ⟨m, hm, hv, hf⟩ := hm
    simp only [← hm]
    split
    · refine ⟨m, [], rfl, hv, by simp, by simp, ?_⟩
      have hsame : ∀ i, m.sent i = n.sent i := fun i => by rw [sent_eq, hf, ← sent_eq]
      rcases h.sent with hall | ⟨hnone, hlog⟩
      · exact .inl fun i hi => by rw [hsame]; exact hall i (hv ▸ hi)
      · exact .inr ⟨rfl, fun i hi => by rw [hsame]; exact hnone i (hv ▸ hi), hlog⟩
    · obtain ⟨hsub, hlog, hall⟩ := hsend m hv hf
      exact ⟨_, _, rfl, hv, hsub, hlog, .inl hall⟩
  · obtain ⟨hsub, hlog, hall⟩ := hsend n rfl rfl
    exact .inr ⟨_, _, rfl, rfl, hsub, hlog, .inl hall⟩

theorem Once.event {log : List Nat} (h : n.Once log) (now iValue : Int) (b : Bool) :
    (n.event now iValue b).1.Once log ∧ (n.event now iValue b).1.seqs.Sublist n.seqs := by
  rcases h.sent with hall | ⟨hnone, hlog⟩
  · obtain ⟨hall', hsub⟩ := hall.event h.length_le now iValue b
    exact ⟨⟨hsub.length_le.trans h.length_le, .inl hall'⟩, hsub.map _⟩
  · obtain ⟨hnone', hvalue⟩ := hnone.event h.length_le now iValue b
    have hseqs : (n.event now iValue b).1.seqs = n.seqs := by rw [seqs, hvalue, seqs]
    exact ⟨⟨hvalue ▸ h.length_le, .inr ⟨hnone', hseqs ▸ hlog⟩⟩, hseqs ▸ List.Sublist.refl _⟩

end SyncNode

/-! ## Runs -/

/-- A call of one of the three operations, at the time `now`. -/
inductive SyncCall where
  | reqAdd (now : Int) (pcDevId pcKey pcValue : CText)
  | reqExec (now : Int)
  | event (now : Int) (pcDevId pcKey pcValue : CText)
deriving DecidableEq, Repr

/-- What a call leaves, and the dispatches it makes. -/
def SyncList.call (x : SyncList) : SyncCall → Option (SyncList × List SyncDispatch)
  | .reqAdd now d k v => (sceneSyncEventReqAdd x now d k v).map fun x' => (x', [])
  | .reqExec now => some (sceneSyncEventReqExec x now)
  | .event now d k v => some ((sceneSyncEvent x now d k v).1, [])

/-- A call that finds no entry that was sent in the queue it appends to, and a
place for one more. -/
def SyncCall.Safe (x : SyncList) : SyncCall → Prop
  | .reqAdd now d k _ => ∀ n ∈ x.nodes, n.isFor d k = true →
      n.NoneSent ∧ ((n.count now).iProtect = true ∨ n.aiValue.length < eventMaxNum)
  | .reqExec _ => True
  | .event _ _ _ _ => True

instance (x : SyncList) (a : SyncCall) : Decidable (a.Safe x) := by
  cases a <;> unfold SyncCall.Safe <;> infer_instance

/-- The numbers of all entries. -/
def syncSeqs (ns : List SyncNode) : List Nat := ns.flatMap SyncNode.seqs

/-- What holds of the queues and the numbers of the dispatches so far. -/
structure SyncInv (x : SyncList) (log : List SyncDispatch) : Prop where
  once : ∀ n ∈ x.nodes, n.Once (log.map SyncDispatch.iSeq)
  nodup : (syncSeqs x.nodes).Nodup
  lt : ∀ q ∈ syncSeqs x.nodes, q < x.iSeq
  log_nodup : (log.map SyncDispatch.iSeq).Nodup
  log_lt : ∀ q ∈ log.map SyncDispatch.iSeq, q < x.iSeq

theorem SyncInv.init : SyncInv .init [] where
  once := by simp [SyncList.init]
  nodup := by simp [SyncList.init, syncSeqs]
  lt := by simp [SyncList.init, syncSeqs]
  log_nodup := by simp
  log_lt := by simp

theorem mem_syncSeqs {ns : List SyncNode} {q : Nat} :
    q ∈ syncSeqs ns ↔ ∃ n ∈ ns, q ∈ n.seqs := mem_flatMap

theorem nodup_syncSeqs_cons {n : SyncNode} {ns : List SyncNode} :
    (syncSeqs (n :: ns)).Nodup ↔
      n.seqs.Nodup ∧ (syncSeqs ns).Nodup ∧ ∀ q ∈ n.seqs, q ∉ syncSeqs ns := by
  rw [syncSeqs, flatMap_cons, nodup_append']
  rfl

/-- The loop of a safe request: `base` bounds the old numbers, and the numbers
from `iSeq` on are new. -/
theorem syncReqAddLoop_once {log : List Nat} {now : Int} {d k v : CText} {base : Nat}
    (hlog : ∀ q ∈ log, q < base) (ns : List SyncNode) (iSeq : Nat) (hbase : base ≤ iSeq)
    (honce : ∀ n ∈ ns, n.Once log) (hnodup : (syncSeqs ns).Nodup)
    (hlt : ∀ q ∈ syncSeqs ns, q < base)
    (hsafe : ∀ n ∈ ns, n.isFor d k = true →
      n.NoneSent ∧ ((n.count now).iProtect = true ∨ n.aiValue.length < eventMaxNum)) :
    ∃ ns' iSeq', syncReqAddLoop now d k v ns iSeq = some (ns', iSeq') ∧ iSeq ≤ iSeq' ∧
      (∀ n ∈ ns', n.Once log) ∧ (syncSeqs ns').Nodup ∧
      ∀ q ∈ syncSeqs ns', q ∈ syncSeqs ns ∨ iSeq ≤ q ∧ q < iSeq' := by
  induction ns generalizing iSeq with
  | nil => exact ⟨[], iSeq, rfl, le_refl _, by simp, by simp [syncSeqs], by simp [syncSeqs]⟩
  | cons n ns ih =>
    obtain ⟨hn, hns⟩ := forall_mem_cons.mp honce
    obtain ⟨hsn, hsns⟩ := forall_mem_cons.mp hsafe
    obtain ⟨hnn, hnns, hdisj⟩ := nodup_syncSeqs_cons.mp hnodup
    have hltn : ∀ q ∈ n.seqs, q < base :=
      fun q hq => hlt q (mem_syncSeqs.mpr ⟨n, mem_cons_self, hq⟩)
    have hltns : ∀ q ∈ syncSeqs ns, q < base := by
      intro q hq
      obtain ⟨m, hm, hqm⟩ := mem_syncSeqs.mp hq
      exact hlt q (mem_syncSeqs.mpr ⟨m, mem_cons_of_mem _ hm, hqm⟩)
    have hcons : ∀ (m : SyncNode) (ms : List SyncNode) (q : Nat),
        q ∈ syncSeqs (m :: ms) ↔ q ∈ m.seqs ∨ q ∈ syncSeqs ms := by
      intro m ms q
      simp [syncSeqs]
    by_cases hf : n.isFor d k = true
    · obtain ⟨hnone, hroom⟩ := hsn hf
      obtain ⟨n', heq, hn', qs, hsub, hseqs⟩ := hn.reqAdd hnone ⟨atoi v, iSeq⟩
        (fun h => absurd (hlog _ h) (by simp only; omega)) hroom
      obtain ⟨ns', iSeq', heqs, hle, honce', hnodup', hnew⟩ :=
        ih (iSeq + 1) (by omega) hns hnns hltns hsns
      have hn'seqs : ∀ q ∈ n'.seqs, q ∈ n.seqs ∨ q = iSeq := by
        intro q hq
        rw [hseqs, mem_append, mem_singleton] at hq
        exact hq.imp (fun h => hsub.subset h) id
      refine ⟨n' :: ns', iSeq', ?_, by omega, ?_, ?_, ?_⟩
      · simp [syncReqAddLoop, hf, heq, heqs]
      · exact forall_mem_cons.mpr ⟨hn', honce'⟩
      · refine nodup_syncSeqs_cons.mpr ⟨?_, hnodup', ?_⟩
        · rw [hseqs]
          refine List.Nodup.append (hnn.sublist hsub) (nodup_singleton _) ?_
          intro q hq hq'
          have := hltn q (hsub.subset hq)
          rw [mem_singleton] at hq'
          simp only at hq'
          omega
        · intro q hq hq'
          rcases hn'seqs q hq with hq | rfl
          · rcases hnew q hq' with hq' | hq'
            · exact hdisj q hq hq'
            · have := hltn q hq
              omega
          · rcases hnew q hq' with hq' | hq'
            · have := hltns q hq'
              omega
            · omega
      · intro q hq
        rcases (hcons _ _ _).mp hq with hq | hq
        · rcases hn'seqs q hq with hq | rfl
          · exact .inl ((hcons _ _ _).mpr (.inl hq))
          · exact .inr ⟨le_refl _, by omega⟩
        · rcases hnew q hq with hq | hq
          · exact .inl ((hcons _ _ _).mpr (.inr hq))
          · exact .inr ⟨by omega, hq.2⟩
    · obtain ⟨ns', iSeq', heqs, hle, honce', hnodup', hnew⟩ :=
        ih iSeq hbase hns hnns hltns hsns
      refine ⟨n :: ns', iSeq', ?_, hle, ?_, ?_, ?_⟩
      · simp [syncReqAddLoop, hf, heqs]
      · exact forall_mem_cons.mpr ⟨hn, honce'⟩
      · refine nodup_syncSeqs_cons.mpr ⟨hnn, hnodup', ?_⟩
        intro q hq hq'
        rcases hnew q hq' with hq' | hq'
        · exact hdisj q hq hq'
        · have := hltn q hq
          omega
      · intro q hq
        rcases (hcons _ _ _).mp hq with hq | hq
        · exact .inl ((hcons _ _ _).mpr (.inl hq))
        · rcases hnew q hq with hq | hq
          · exact .inl ((hcons _ _ _).mpr (.inr hq))
          · exact .inr hq

variable {x : SyncList} {log : List SyncDispatch}

theorem SyncInv.iSeq_notMem (h : SyncInv x log) : x.iSeq ∉ log.map SyncDispatch.iSeq :=
  fun hq => lt_irrefl _ (h.log_lt _ hq)

theorem SyncInv.eq_of_mem (h : SyncInv x log) {n m : SyncNode} (hn : n ∈ x.nodes)
    (hm : m ∈ x.nodes) {q : Nat} (hqn : q ∈ n.seqs) (hqm : q ∈ m.seqs) : n = m := by
  by_contra hne
  have : Std.Symm (Function.onFun List.Disjoint seqs) := ⟨fun _ _ hd => hd.symm⟩
  exact (nodup_flatMap.mp h.nodup).2.forall hn hm hne hqn hqm

theorem SyncInv.reqAdd (h : SyncInv x log) {now : Int} {d k v : CText}
    (hsafe : (SyncCall.reqAdd now d k v).Safe x) :
    ∃ x', sceneSyncEventReqAdd x now d k v = some x' ∧ SyncInv x' log := by
  rw [sceneSyncEventReqAdd]
  split
  · obtain ⟨ns, iSeq, heq, hle, honce, hnodup, hnew⟩ := syncReqAddLoop_once (v := v) h.log_lt
      x.nodes x.iSeq (le_refl _) h.once h.nodup h.lt hsafe
    refine ⟨⟨ns, iSeq⟩, by simp [heq], honce, hnodup, ?_, h.log_nodup, ?_⟩
    · intro q hq
      rcases hnew q hq with hq | hq
      · exact lt_of_lt_of_le (h.lt q hq) hle
      · exact hq.2
    · exact fun q hq => lt_of_lt_of_le (h.log_lt q hq) hle
  · refine ⟨_, rfl, ?_, ?_, ?_, h.log_nodup, ?_⟩
    · intro n hn
      rcases mem_append.mp hn with hn | hn
      · exact h.once n hn
      · rw [mem_singleton.mp hn]
        refine ⟨by simp [eventMaxNum], .inr ⟨fun i _ => by simp [sent_eq], ?_⟩⟩
        intro q hq
        rw [show q = x.iSeq by simpa [seqs] using hq]
        exact h.iSeq_notMem
    · simp only [syncSeqs, flatMap_append, flatMap_singleton]
      refine List.Nodup.append h.nodup (by simp [seqs]) ?_
      intro q hq hq'
      rw [show q = x.iSeq by simpa [seqs] using hq'] at hq
      exact lt_irrefl _ (h.lt _ hq)
    · intro q hq
      simp only [syncSeqs, flatMap_append, flatMap_singleton, mem_append] at hq
      rcases hq with hq | hq
      · exact Nat.lt_succ_of_lt (h.lt q hq)
      · rw [show q = x.iSeq by simpa [seqs] using hq]
        exact Nat.lt_succ_self _
    · exact fun q hq => Nat.lt_succ_of_lt (h.log_lt q hq)

theorem SyncInv.reqExec (h : SyncInv x log) (now : Int) :
    SyncInv (sceneSyncEventReqExec x now).1 (log ++ (sceneSyncEventReqExec x now).2) := by
  -- what an execution leaves of one queue, and what it sends
  have hleft : ∀ n ∈ x.nodes, ∀ n' ∈ (n.reqExec now).map Prod.fst, n'.seqs = n.seqs := by
    intro n hn n' hn'
    obtain ⟨⟨m, ds⟩, heq, rfl⟩ := map_eq_some_iff.mp hn'
    rcases (h.once n hn).reqExec now with hnone | ⟨m', ds', heq', hvalue, -⟩
    · rw [hnone] at heq
      cases heq
    · rw [heq', some.injEq, Prod.mk.injEq] at heq
      rw [← heq.1, seqs, hvalue, seqs]
  have hsent : ∀ n ∈ x.nodes,
      ((((n.reqExec now).map Prod.snd).getD []).map SyncDispatch.iSeq).Sublist n.seqs := by
    intro n hn
    rcases (h.once n hn).reqExec now with hnone | ⟨m', ds', heq', -, hsub, -⟩
    · simp [hnone]
    · simpa [heq'] using hsub
  have hseqs : (syncSeqs (sceneSyncEventReqExec x now).1.nodes).Sublist (syncSeqs x.nodes) := by
    simp only [sceneSyncEventReqExec, syncSeqs, filterMap_eq_flatMap_toList,
      flatMap_assoc]
    refine List.Sublist.flatMap_right _ fun n hn => ?_
    cases hr : (n.reqExec now).map Prod.fst with
    | none => simp
    | some n' => simp [hleft n hn n' hr]
  have hlog : ((sceneSyncEventReqExec x now).2.map SyncDispatch.iSeq).Sublist
      (syncSeqs x.nodes) := by
    simp only [sceneSyncEventReqExec, map_flatMap]
    exact List.Sublist.flatMap_right _ hsent
  refine ⟨?_, h.nodup.sublist hseqs, fun q hq => h.lt q (hseqs.subset hq), ?_, ?_⟩
  · intro n' hn'
    obtain ⟨n, hn, hn'⟩ := mem_filterMap.mp hn'
    obtain ⟨⟨m, ds⟩, heq, rfl⟩ := map_eq_some_iff.mp hn'
    rcases (h.once n hn).reqExec now with hnone | ⟨m', ds', heq', hvalue, -, -, hcase⟩
    · rw [hnone] at heq
      cases heq
    · rw [heq', some.injEq, Prod.mk.injEq] at heq
      obtain ⟨rfl, rfl⟩ := heq
      refine ⟨hvalue ▸ (h.once n hn).length_le, hcase.imp id ?_⟩
      rintro ⟨rfl, hnone, hold⟩
      refine ⟨hnone, fun q hq => ?_⟩
      have hqn : q ∈ n.seqs := by rwa [seqs, ← hvalue]
      rw [map_append, mem_append]
      rintro (hq' | hq')
      · exact hold q hqn hq'
      · -- a number that was sent is one of its own queue, which sent nothing
        obtain ⟨e, he, rfl⟩ := mem_map.mp hq'
        obtain ⟨n₂, hn₂, he⟩ := mem_flatMap.mp he
        have hmem := (hsent n₂ hn₂).subset (mem_map_of_mem he)
        rw [← h.eq_of_mem hn hn₂ hqn hmem, heq'] at he
        simp at he
  · rw [map_append]
    refine List.Nodup.append h.log_nodup (h.nodup.sublist hlog) ?_
    intro q hq hq'
    obtain ⟨e, he, rfl⟩ := mem_map.mp hq'
    obtain ⟨n, hn, he⟩ := mem_flatMap.mp he
    rcases (h.once n hn).reqExec now with hnone | ⟨m', ds', heq', -, -, hold, -⟩
    · simp [hnone] at he
    · rw [heq'] at he
      exact hold e he hq
  · intro q hq
    rw [map_append, mem_append] at hq
    rcases hq with hq | hq
    · exact h.log_lt q hq
    · exact h.lt q (hlog.subset hq)

theorem syncEventLoop_once {log : List Nat} (now : Int) (d k v : CText) (ns : List SyncNode)
    (b : Bool) (honce : ∀ n ∈ ns, n.Once log) :
    (∀ n ∈ (syncEventLoop now d k v ns b).1, n.Once log) ∧
      (syncSeqs (syncEventLoop now d k v ns b).1).Sublist (syncSeqs ns) := by
  induction ns generalizing b with
  | nil => exact ⟨by simp [syncEventLoop], by simp [syncEventLoop]⟩
  | cons n ns ih =>
    obtain ⟨hn, hns⟩ := forall_mem_cons.mp honce
    simp only [syncEventLoop, syncSeqs, flatMap_cons]
    obtain ⟨ih₁, ih₂⟩ := ih (if n.isFor d k then n.event now (atoi v) b else (n, b)).2 hns
    refine ⟨forall_mem_cons.mpr ⟨?_, ih₁⟩, List.Sublist.append ?_ ih₂⟩
    · split
      · exact (hn.event now (atoi v) b).1
      · exact hn
    · split
      · exact (hn.event now (atoi v) b).2
      · exact List.Sublist.refl _

theorem SyncInv.event (h : SyncInv x log) (now : Int) (d k v : CText) :
    SyncInv (sceneSyncEvent x now d k v).1 log := by
  obtain ⟨honce, hsub⟩ := syncEventLoop_once now d k v x.nodes false h.once
  exact ⟨honce, h.nodup.sublist hsub, fun q hq => h.lt q (hsub.subset hq), h.log_nodup, h.log_lt⟩

theorem SyncInv.call (h : SyncInv x log) {a : SyncCall} (hsafe : a.Safe x) :
    ∃ x' ds, x.call a = some (x', ds) ∧ SyncInv x' (log ++ ds) := by
  cases a with
  | reqAdd now d k v =>
    obtain ⟨x', heq, hx'⟩ := h.reqAdd hsafe
    exact ⟨x', [], by simp [SyncList.call, heq], by simpa using hx'⟩
  | reqExec now => exact ⟨_, _, rfl, h.reqExec now⟩
  | event now d k v => exact ⟨_, [], rfl, by simpa using h.event now d k v⟩

namespace Sample

/-- Two requests for the attribute `k` of the device `d`, each executed at once;
between them the device answers the first, if `answered`. -/
def syncCalls (answered : Bool) : List SyncCall :=
  [.reqAdd 0 ['d'] ['k'] ['1'], .reqExec 0] ++
    (if answered then [.event 0 ['d'] ['k'] ['1']] else []) ++
    [.reqAdd 1 ['d'] ['k'] ['0'], .reqExec 1]

end Sample

/-- A run no request of which finds an entry that was sent in its queue, or a
full queue, sends every entry at most once. -/
theorem sync_run_dispatches_once (as : List SyncCall)
    (hsafe : Run.Along SyncList.call (fun x a => a.Safe x) .init as) :
    ∃ x ds, Run.run SyncList.call .init as = some (x, ds) ∧
      (ds.map SyncDispatch.iSeq).Nodup := by
  obtain ⟨x, ds, hrun, hinv⟩ := Run.run_progress (I := SyncInv)
    (fun _ _ _ hi ha => hi.call ha) SyncInv.init hsafe
  exact ⟨x, ds, hrun, by simpa using hinv.log_nodup⟩

theorem sync_run_dispatches_once_answered :
    ∃ x ds, Run.run SyncList.call .init (Sample.syncCalls true) = some (x, ds) ∧
      (ds.map SyncDispatch.iSeq).Nodup :=
  sync_run_dispatches_once (Sample.syncCalls true) (by decide)

/-- Without the answer, the second request cleans the flag of the first entry,
and it is sent a second time. -/
theorem sync_run_dispatches_twice :
    ∃ x ds, Run.run SyncList.call .init (Sample.syncCalls false) = some (x, ds) ∧
      ¬ (ds.map SyncDispatch.iSeq).Nodup := by
  refine ⟨_, _, rfl, ?_⟩
  decide

end Honyar.LocalScene
