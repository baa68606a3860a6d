import Honyar.LocalScene.SyncQueue

/-!
# Outstanding requests

A request is outstanding from when it is sent until a report answers it.  What
the queues keep of this are the marks of the entries, and a write to a queue may
take marks away: not every request that is outstanding has a mark, and some are
in no queue any more.

What does hold along every run is `Tracked`: each attribute has one queue, the
entries of a queue have their marks all or none, and an entry with a mark is
outstanding.
-/

namespace Honyar.LocalScene

open CText Option List SyncNode

/-! ## What is to be seen -/

/-- A call of `scene_sync_event_req_add` for a scene. -/
structure SyncReq where
  pstScene : Nat
  acDevId : CText
  acKey : CText
  acValue : CText
deriving DecidableEq, Repr

/-- What happens to requests: one is sent, answered, or made. -/
inductive SyncNote where
  | sent (d : SyncDispatch)
  | answer (iSeq : Nat)
  | request (r : SyncReq)
deriving DecidableEq, Repr

namespace SyncNote

/-- What is sent. -/
def sent? : SyncNote → Option SyncDispatch
  | .sent d => some d
  | _ => none

/-- The entry that is answered. -/
def answer? : SyncNote → Option Nat
  | .answer q => some q
  | _ => none

/-- The request that is made. -/
def request? : SyncNote → Option SyncReq
  | .request r => some r
  | _ => none

end SyncNote

/-- All that was sent. -/
def sents (os : List SyncNote) : List SyncDispatch := os.filterMap SyncNote.sent?

/-- The entries that were answered. -/
def answers (os : List SyncNote) : List Nat := os.filterMap SyncNote.answer?

/-- The requests that were made. -/
def requests (os : List SyncNote) : List SyncReq := os.filterMap SyncNote.request?

/-- The command asks for what the event reports. -/
def SyncDispatch.carries (e : Event) (d : SyncDispatch) : Bool :=
  strncmpEq devIdMaxLen d.acDevId e.acDevId && strncmpEq keyMaxLen d.acKey e.acKey &&
    d.acValue == (toString (atoi e.acValue)).toList

/-- The requests for what the event reports that were sent and not answered. -/
def outstanding (log : List SyncNote) (e : Event) : List Nat :=
  (((sents log).filter (SyncDispatch.carries e)).map SyncDispatch.iSeq).filter
    fun q => q ∉ answers log

theorem mem_sents {os : List SyncNote} {d : SyncDispatch} : d ∈ sents os ↔ .sent d ∈ os := by
  rw [sents, mem_filterMap]
  constructor
  · rintro ⟨o, ho, hd⟩
    cases o <;> cases hd
    exact ho
  · exact fun h => ⟨_, h, rfl⟩

@[simp] theorem answers_append (os os' : List SyncNote) :
    answers (os ++ os') = answers os ++ answers os' := filterMap_append

@[simp] theorem requests_append (os os' : List SyncNote) :
    requests (os ++ os') = requests os ++ requests os' := filterMap_append

@[simp] theorem answers_map_answer (qs : List Nat) : answers (qs.map .answer) = qs := by
  rw [answers, filterMap_map]
  exact filterMap_some

@[simp] theorem answers_map_sent (ds : List SyncDispatch) : answers (ds.map .sent) = [] := by
  rw [answers, filterMap_map, filterMap_eq_nil_iff]
  exact fun _ _ => rfl

@[simp] theorem requests_map_answer (qs : List Nat) : requests (qs.map .answer) = [] := by
  rw [requests, filterMap_map, filterMap_eq_nil_iff]
  exact fun _ _ => rfl

/-! ## The queue of an attribute -/

/-- What `strncmp` compares of a device and an attribute. -/
def attrOf (acDevId acKey : CText) : CText × CText :=
  (acDevId.take devIdMaxLen, acKey.take keyMaxLen)

namespace SyncNode

variable {n n' : SyncNode} {now v : Int}

/-- The attribute of a queue. -/
def attr (n : SyncNode) : CText × CText := attrOf n.acDevId n.acKey

theorem isFor_iff {d k : CText} : n.isFor d k = true ↔ n.attr = attrOf d k := by
  rw [isFor, Bool.and_eq_true, strncmpEq_iff, strncmpEq_iff, attr, attrOf, attrOf, Prod.mk.injEq]

theorem isFor_eq_false_iff {d k : CText} : n.isFor d k = false ↔ n.attr ≠ attrOf d k := by
  rw [← Bool.not_eq_true, isFor_iff]

/-- The entries with a mark that a report of this value may answer. -/
def pending (n : SyncNode) (v : Int) : List Nat :=
  (n.marked.filter (answers v)).map fun m => m.1.iSeq

/-- What is sent of an entry. -/
def dispatch (n : SyncNode) (e : SyncEntry) : SyncDispatch where
  acDevId := n.acDevId
  acKey := n.acKey
  acValue := (toString e.iValue).toList
  iSeq := e.iSeq

/-- The queue is one of a run with this log: all its entries have a mark, and were sent, or none
has one. -/
structure Logged (n : SyncNode) (log : List SyncNote) : Prop where
  length_le : n.aiValue.length ≤ eventMaxNum
  marks : (∀ m ∈ n.marked, m.2 = true ∧ .sent (n.dispatch m.1) ∈ log) ∨
    ∀ m ∈ n.marked, m.2 = false

theorem map_fst_marked (n : SyncNode) : n.marked.map Prod.fst = n.aiValue := by
  rw [marked, List.map_map]
  exact zipIdx_map_fst ..

theorem seqs_eq (n : SyncNode) : n.seqs = n.marked.map fun m => m.1.iSeq := by
  rw [seqs, ← map_fst_marked, List.map_map]
  rfl

theorem allSent_iff : n.AllSent ↔ ∀ m ∈ n.marked, m.2 = true := by
  constructor
  · intro h m hm
    obtain ⟨d, hd, rfl⟩ := mem_map.mp hm
    exact h.of_mem hd
  · intro h i hi
    refine h (n.aiValue[i], n.sent i) (mem_map.mpr ⟨(n.aiValue[i], i), ?_, rfl⟩)
    exact mk_mem_zipIdx_iff_getElem?.mpr (getElem?_eq_getElem hi)

theorem Logged.mono {log log' : List SyncNote} (h : n.Logged log)
    (hlog : ∀ d, .sent d ∈ log → .sent d ∈ log') : n.Logged log' :=
  ⟨h.length_le, h.marks.imp_left fun hall m hm => ⟨(hall m hm).1, hlog _ (hall m hm).2⟩⟩

/-! ### Reports -/

theorem Logged.event_marked {log : List SyncNote} (h : n.Logged log) (now v : Int) :
    (n.event now v false).1.marked = n.marked.eraseP (answers v) ∧
      (n.event now v false).2 = n.marked.any (answers v) := by
  obtain ⟨hmarks, hfound⟩ := SyncNode.event_marked h.length_le now v false
  rw [if_neg Bool.false_ne_true] at hmarks
  refine ⟨?_, by rw [hfound, Bool.false_or]⟩
  rw [hmarks, foldl_appendMarked_eq]
  refine List.Pairwise.eraseP _ (pairwise_of_forall_mem_list fun m hm m' hm' hsent => ?_)
  rcases h.marks with hall | hnone
  · exact (hall m' hm').1
  · rw [hnone m hm] at hsent
    cases hsent

theorem pending_eq_nil_iff : n.pending v = [] ↔ n.marked.any (answers v) = false := by
  rw [pending, map_eq_nil_iff, filter_eq_nil_iff, List.any_eq_false]

theorem Logged.of_event {log : List SyncNote} (h : n.Logged log) (now v : Int) :
    (n.event now v false).1.Logged log := by
  refine ⟨(length_event_le h.length_le ..).trans h.length_le, ?_⟩
  rw [(h.event_marked now v).1]
  exact h.marks.imp (fun hall m hm => hall m (mem_of_mem_eraseP hm))
    fun hnone m hm => hnone m (mem_of_mem_eraseP hm)

theorem Logged.seqs_event {log : List SyncNote} (h : n.Logged log) (now v : Int) :
    (n.event now v false).1.seqs.Sublist n.seqs := by
  rw [seqs_eq, (h.event_marked now v).1, seqs_eq]
  exact eraseP_sublist.map _

theorem Logged.event {log : List SyncNote} (h : n.Logged log) (now v : Int) :
    (n.pending v = [] → (n.event now v false).1.marked = n.marked ∧
      (n.event now v false).2 = false) ∧
    ∀ q qs, n.pending v = q :: qs → (n.event now v false).2 = true ∧
      (n.event now v false).1.pending v = qs ∧
      ∃ as bs, n.seqs = as ++ q :: bs ∧ (n.event now v false).1.seqs = as ++ bs := by
  obtain ⟨hmarked, hfound⟩ := h.event_marked now v
  constructor
  · intro hnil
    have hnone := pending_eq_nil_iff.mp hnil
    refine ⟨?_, by rw [hfound, hnone]⟩
    rw [hmarked, eraseP_eq_self_iff]
    simpa using hnone
  · intro q qs hpending
    have hany : n.marked.any (answers v) = true := by
      by_contra hnone
      rw [pending_eq_nil_iff.mpr (by simpa using hnone)] at hpending
      cases hpending
    obtain ⟨m, hm, hansw⟩ := any_eq_true.mp hany
    obtain ⟨m', ms, ms', hms, hansw', hsplit, herase⟩ := exists_of_eraseP hm hansw
    have hbefore : ms.filter (answers v) = [] := by
      rw [filter_eq_nil_iff]
      exact hms
    rw [pending, hsplit, filter_append, hbefore, filter_cons_of_pos hansw',
      nil_append, map_cons, cons.injEq] at hpending
    refine ⟨by rw [hfound, hany], ?_, ms.map fun m => m.1.iSeq, ms'.map fun m => m.1.iSeq, ?_, ?_⟩
    · rw [pending, hmarked, herase, filter_append, hbefore, nil_append]
      exact hpending.2
    · rw [seqs_eq, hsplit, map_append, map_cons, hpending.1]
    · rw [seqs_eq, hmarked, herase, map_append]

/-! ### Requests -/

theorem attr_of_push {e : SyncEntry} (h : n.push e = some n') : n'.attr = n.attr := by
  rw [push] at h
  split at h
  · cases h
    rfl
  · cases h

theorem attr_reqAdd {e : SyncEntry} (h : n.reqAdd now e = some n') : n'.attr = n.attr := by
  simp only [reqAdd, bind_eq_bind, Option.pure_def, bind_eq_some_iff,
    some.injEq] at h
  obtain ⟨m, hm, rfl⟩ := h
  refine (attr_of_push hm).trans ?_
  split <;> rfl

theorem staying_sublist (n : SyncNode) (now : Int) : (n.staying now).Sublist n.marked := by
  rw [staying]
  split
  · exact filter_sublist
  · exact List.Sublist.refl _

theorem Logged.reqAdd {log : List SyncNote} (h : n.Logged log) {e : SyncEntry}
    (hreq : n.reqAdd now e = some n') (log' : List SyncNote) :
    n'.Logged log' ∧ ∃ qs, qs.Sublist n.seqs ∧ n'.seqs = qs ++ [e.iSeq] := by
  obtain ⟨hmarked, hroom⟩ := reqAdd_marked h.length_le now e
  have hmarked := hmarked n' hreq
  have hnone : ∀ m ∈ n'.marked, m.2 = false := by
    intro m hm
    rw [hmarked, mem_append, mem_singleton] at hm
    rcases hm with hm | rfl
    · obtain ⟨m', -, rfl⟩ := List.mem_map.mp hm
      rfl
    · rfl
  refine ⟨⟨?_, .inr hnone⟩, (n.staying now).map fun m => m.1.iSeq, ?_, ?_⟩
  · have hlt := hroom.mp ⟨n', hreq⟩
    rw [← length_marked, hmarked, length_append, length_map, length_singleton]
    exact hlt
  · rw [seqs_eq]
    exact (n.staying_sublist now).map _
  · rw [seqs_eq, hmarked, map_append, List.map_map]
    rfl

/-! ### Executions -/

/-- What sending the rest `es` of a queue sends: every entry whose flag is clear. -/
theorem mem_sendAll_loop {es : List (SyncEntry × Nat)} (hes : ∀ e ∈ es, e.2 < 32)
    (hnodup : (es.map Prod.snd).Nodup) (r : BitVec 32 × List SyncDispatch) :
    (∀ d ∈ r.2, d ∈ (es.foldl n.sendOne r).2) ∧
      ∀ e ∈ es, r.1.getLsbD e.2 = false → n.dispatch e.1 ∈ (es.foldl n.sendOne r).2 := by
  induction es generalizing r with
  | nil => exact ⟨fun _ hd => hd, fun _ he => absurd he not_mem_nil⟩
  | cons e es ih =>
    obtain ⟨he, hes⟩ := forall_mem_cons.mp hes
    rw [map_cons, nodup_cons] at hnodup
    obtain ⟨hkept, hsent⟩ := ih hes hnodup.2 (n.sendOne r e)
    rw [foldl_cons, forall_mem_cons]
    by_cases hf : r.1.getLsbD e.2 = true
    · have hstep : n.sendOne r e = r := by rw [sendOne, syncFlagGet_eq, if_pos hf]
      rw [hstep] at hkept hsent ⊢
      exact ⟨hkept, fun hclear => absurd hf (by simp [hclear]), hsent⟩
    · have hstep : n.sendOne r e = (syncFlagSet r.1 e.2, r.2 ++ [n.dispatch e.1]) := by
        rw [sendOne, syncFlagGet_eq, if_neg hf]
        rfl
      rw [hstep] at hkept hsent ⊢
      refine ⟨fun d hd => hkept d (mem_append_left _ hd),
        fun _ => hkept _ (mem_append_right _ mem_cons_self), fun d hd hclear => ?_⟩
      refine hsent d hd ?_
      have hne : d.2 ≠ e.2 := fun heq => hnodup.1 (heq ▸ mem_map_of_mem hd)
      rw [getLsbD_syncFlagSet _ he, if_neg hne]
      exact hclear

theorem Logged.sendAll {log log' : List SyncNote} (h : n.Logged log)
    (hlog : ∀ d, .sent d ∈ log → .sent d ∈ log') (hds : ∀ d ∈ n.sendAll.2, .sent d ∈ log') :
    n.sendAll.1.Logged log' := by
  refine ⟨h.length_le, .inl fun m hm => ⟨allSent_iff.mp (sendAll_allSent h.length_le) m hm, ?_⟩⟩
  -- the entries are those from before, where they had their marks all or none
  obtain ⟨e, he, rfl⟩ := mem_map.mp hm
  have hentry : (e.1, n.sent e.2) ∈ n.marked := mem_map_of_mem he
  rcases h.marks with hall | hnone
  · exact hlog _ (hall _ hentry).2
  · refine hds _ (((n.mem_sendAll_loop (fun d hd => ?_) ?_ (n.uiSendFlag, [])).2) e he ?_)
    · exact lt_of_lt_of_le (mem_zipIdx' hd).1 h.length_le
    · rw [zipIdx_map_snd]
      exact nodup_range'
    · rw [← sent_eq]
      exact hnone _ hentry

theorem Logged.reqExec {log log' : List SyncNote} (h : n.Logged log) {ds : List SyncDispatch}
    (hexec : n.reqExec now = some (n', ds)) (hlog : ∀ d, .sent d ∈ log → .sent d ∈ log')
    (hds : ∀ d ∈ ds, .sent d ∈ log') : n'.Logged log' ∧ n'.attr = n.attr := by
  have hlast : ∀ m : SyncNode, m.Logged log → m.attr = n.attr → some m.sendAll = some (n', ds) →
      n'.Logged log' ∧ n'.attr = n.attr := by
    intro m hm hattr hsend
    obtain ⟨rfl, rfl⟩ := Prod.mk.inj (some.inj hsend)
    exact ⟨hm.sendAll hlog hds, hattr⟩
  rw [SyncNode.reqExec] at hexec
  split at hexec
  · cases hexec
  split at hexec
  · cases hexec
  split at hexec
  · -- under protection: the queue waits, or is sent with the protection lifted or not
    obtain ⟨m, hm, hattr, hexec⟩ : ∃ m : SyncNode, m.Logged log ∧ m.attr = n.attr ∧
        (if now - m.stActiveTime < syncEventDelayTime then some (m, []) else some m.sendAll) =
          some (n', ds) := by
      refine ⟨_, ?_, ?_, hexec⟩
      · split
        · exact ⟨h.length_le, h.marks⟩
        · exact h
      · split <;> rfl
    split at hexec
    · cases hexec
      exact ⟨hm.mono hlog, hattr⟩
    · exact hlast m hm hattr hexec
  · exact hlast n h rfl hexec

end SyncNode

/-! ## All queues -/

/-- The entries with a mark that a report of the event may answer. -/
def SyncList.pending (y : SyncList) (e : Event) : List Nat :=
  (y.nodes.filter fun n => n.isFor e.acDevId e.acKey).flatMap fun n => n.pending (atoi e.acValue)

/-- The entries of `y` that `y'` has not. -/
def SyncList.taken (y y' : SyncList) : List Nat :=
  (syncSeqs y.nodes).filter fun q => q ∉ syncSeqs y'.nodes

/-- What holds of the queues along a run with this log. -/
structure Tracked (y : SyncList) (log : List SyncNote) : Prop where
  queues : ∀ n ∈ y.nodes, n.Logged log
  attrs : (y.nodes.map SyncNode.attr).Nodup
  seqs : (syncSeqs y.nodes).Nodup
  lt : ∀ q ∈ syncSeqs y.nodes, q < y.iSeq
  answered : ∀ q ∈ answers log, q < y.iSeq ∧ q ∉ syncSeqs y.nodes

theorem tracked_init : Tracked .init [] where
  queues := by simp [SyncList.init]
  attrs := by simp [SyncList.init]
  seqs := by simp [SyncList.init, syncSeqs]
  lt := by simp [SyncList.init, syncSeqs]
  answered := by simp [answers]

section

variable {y y' : SyncList} {log log' : List SyncNote} {ns ms os : List SyncNode} {n n' : SyncNode}
  {now : Int} {d k v : CText} {e : Event}

theorem syncSeqs_append (ns ms : List SyncNode) :
    syncSeqs (ns ++ ms) = syncSeqs ns ++ syncSeqs ms := flatMap_append

theorem syncSeqs_cons (n : SyncNode) (ns : List SyncNode) :
    syncSeqs (n :: ns) = n.seqs ++ syncSeqs ns := flatMap_cons

theorem Tracked.queue_cases (h : Tracked y log) (d k : CText) :
    (∀ n ∈ y.nodes, n.isFor d k = false) ∨ ∃ ns n ms, y.nodes = ns ++ n :: ms ∧
      n.isFor d k = true ∧ ∀ m ∈ ns ++ ms, m.isFor d k = false := by
  by_cases hnone : ∀ n ∈ y.nodes, n.isFor d k = false
  · exact .inl hnone
  · right
    simp only [not_forall, Bool.not_eq_false] at hnone
    obtain ⟨n, hn, hfor⟩ := hnone
    obtain ⟨ns, ms, hy⟩ := append_of_mem hn
    refine ⟨ns, n, ms, hy, hfor, fun m hm => ?_⟩
    have hattrs := h.attrs
    rw [hy, map_append, map_cons, nodup_middle, nodup_cons,
      ← map_append] at hattrs
    rw [isFor_eq_false_iff, ← isFor_iff.mp hfor]
    exact fun heq => hattrs.1 (heq ▸ mem_map_of_mem hm)

theorem Tracked.mem_outstanding (h : Tracked y log) {q : Nat} (hq : q ∈ y.pending e) :
    q ∈ outstanding log e := by
  obtain ⟨n, hn, hq⟩ := mem_flatMap.mp hq
  obtain ⟨hn, hfor⟩ := mem_filter.mp hn
  obtain ⟨m, hm, rfl⟩ := List.mem_map.mp hq
  obtain ⟨hm, hansw⟩ := mem_filter.mp hm
  rw [SyncNode.answers, Bool.and_eq_true, beq_iff_eq] at hansw
  have hsent : SyncNote.sent (n.dispatch m.1) ∈ log := by
    rcases (h.queues n hn).marks with hall | hnone
    · exact (hall m hm).2
    · rw [hnone m hm] at hansw
      exact absurd hansw.1 Bool.false_ne_true
  have hcarries : (n.dispatch m.1).carries e = true := by
    rw [SyncNode.isFor, Bool.and_eq_true] at hfor
    simp [SyncDispatch.carries, SyncNode.dispatch, hfor, hansw.2]
  refine mem_filter.mpr ⟨List.mem_map.mpr ⟨_, mem_filter.mpr
    ⟨mem_sents.mpr hsent, hcarries⟩, rfl⟩, decide_eq_true fun hanswer => ?_⟩
  refine (h.answered _ hanswer).2 (mem_syncSeqs.mpr ⟨n, hn, ?_⟩)
  rw [SyncNode.seqs_eq]
  exact List.mem_map_of_mem hm

/-- One queue is written or added: it keeps some of its entries and gets `j` new ones, and what
is answered is not kept. -/
theorem Tracked.write (h : Tracked y log) (ns os ms : List SyncNode) (n' : SyncNode) {j : Nat}
    (hy : y.nodes = ns ++ os ++ ms)
    (hy' : y'.nodes = ns ++ n' :: ms) (hj : y'.iSeq = y.iSeq + j)
    (hattr : ∀ m ∈ ns ++ ms, m.attr ≠ n'.attr) (hn' : n'.Logged log')
    (hsent : ∀ d, .sent d ∈ log → .sent d ∈ log')
    (hseqs : ∃ qs, qs.Sublist (syncSeqs os) ∧ n'.seqs = qs ++ List.range' y.iSeq j)
    (hanswers : ∀ q ∈ answers log', q ∈ answers log ∨ q ∈ syncSeqs os ∧ q ∉ n'.seqs) :
    Tracked y' log' := by
  obtain ⟨qs, hsub, hqs⟩ := hseqs
  have hold : (syncSeqs y.nodes).Perm (syncSeqs os ++ syncSeqs (ns ++ ms)) := by
    rw [hy, syncSeqs_append, syncSeqs_append, syncSeqs_append, append_assoc]
    exact perm_append_comm_assoc ..
  have hnew : (syncSeqs y'.nodes).Perm (n'.seqs ++ syncSeqs (ns ++ ms)) := by
    rw [hy', syncSeqs_append, syncSeqs_cons, syncSeqs_append]
    exact perm_append_comm_assoc ..
  obtain ⟨hos, hrest, hdisj⟩ := nodup_append'.mp (hold.nodup_iff.mp h.seqs)
  have hlt : ∀ q, q ∈ syncSeqs os ∨ q ∈ syncSeqs (ns ++ ms) → q < y.iSeq := fun q hq =>
    h.lt q (hold.mem_iff.mpr (mem_append.mpr hq))
  have hmem : ∀ q ∈ n'.seqs, q ∈ syncSeqs os ∨ y.iSeq ≤ q ∧ q < y'.iSeq := by
    intro q hq
    rw [hqs, mem_append, mem_range'_1] at hq
    exact hq.imp (fun hq => hsub.subset hq) fun hq => ⟨hq.1, hj ▸ hq.2⟩
  refine ⟨fun m hm => ?_, ?_, ?_, fun q hq => ?_, fun q hq => ?_⟩
  · rw [hy'] at hm
    rcases mem_append.mp hm with hm | hm
    · exact (h.queues m (by rw [hy]; simp [hm])).mono hsent
    · rcases mem_cons.mp hm with rfl | hm
      · exact hn'
      · exact (h.queues m (by rw [hy]; simp [hm])).mono hsent
  · have hattrs := h.attrs
    rw [hy, map_append, map_append] at hattrs
    rw [hy', map_append, map_cons, nodup_middle, nodup_cons,
      ← map_append]
    refine ⟨fun hmem => ?_, ?_⟩
    · obtain ⟨m, hm, heq⟩ := mem_map.mp hmem
      exact hattr m hm heq
    · rw [map_append]
      exact hattrs.sublist (List.Sublist.append (sublist_append_left ..)
        (List.Sublist.refl _))
  · rw [hnew.nodup_iff, nodup_append']
    refine ⟨?_, hrest, fun q hq hq' => ?_⟩
    · rw [hqs, nodup_append']
      refine ⟨hsub.nodup hos, nodup_range', fun q hq hq' => ?_⟩
      exact absurd (hlt q (.inl (hsub.subset hq)))
        (Nat.not_lt.mpr (mem_range'_1.mp hq').1)
    · rcases hmem q hq with hq | hq
      · exact hdisj hq hq'
      · exact absurd (hlt q (.inr hq')) (Nat.not_lt.mpr hq.1)
  · rcases mem_append.mp (hnew.mem_iff.mp hq) with hq | hq
    · rcases hmem q hq with hq | hq
      · exact lt_of_lt_of_le (hlt q (.inl hq)) (hj ▸ Nat.le_add_right ..)
      · exact hq.2
    · exact lt_of_lt_of_le (hlt q (.inr hq)) (hj ▸ Nat.le_add_right ..)
  · rw [hnew.mem_iff, mem_append, not_or]
    rcases hanswers q hq with hq | ⟨hq, hgone⟩
    · obtain ⟨hltq, hnot⟩ := h.answered q hq
      rw [hold.mem_iff, mem_append, not_or] at hnot
      refine ⟨lt_of_lt_of_le hltq (hj ▸ Nat.le_add_right ..), fun hq' => ?_, hnot.2⟩
      rcases hmem q hq' with hq' | hq'
      · exact hnot.1 hq'
      · exact absurd hltq (Nat.not_lt.mpr hq'.1)
    · exact ⟨lt_of_lt_of_le (hlt q (.inl hq)) (hj ▸ Nat.le_add_right ..), hgone,
        fun hq' => hdisj hq hq'⟩

/-! ### Reports -/

theorem filter_isFor_eq_nil (h : ∀ n ∈ ns, n.isFor d k = false) :
    ns.filter (fun n => n.isFor d k) = [] := by
  rw [filter_eq_nil_iff]
  intro n hn
  simp [h n hn]

theorem pending_of_none (h : ∀ n ∈ y.nodes, n.isFor e.acDevId e.acKey = false) :
    y.pending e = [] := by
  rw [SyncList.pending, filter_isFor_eq_nil h, flatMap_nil]

theorem pending_eq (hy : y.nodes = ns ++ n :: ms) (hn : n.isFor e.acDevId e.acKey = true)
    (h : ∀ m ∈ ns ++ ms, m.isFor e.acDevId e.acKey = false) :
    y.pending e = n.pending (atoi e.acValue) := by
  obtain ⟨hns, hms⟩ := forall_mem_append.mp h
  rw [SyncList.pending, hy, filter_append, filter_isFor_eq_nil hns, nil_append,
    filter_cons, if_pos hn, filter_isFor_eq_nil hms, flatMap_singleton]

theorem pending_congr (ns os ms : List SyncNode) (n' : SyncNode) (hy : y.nodes = ns ++ os ++ ms)
    (hy' : y'.nodes = ns ++ n' :: ms)
    (hos : ∀ m ∈ os, m.isFor e.acDevId e.acKey = false)
    (hn' : n'.isFor e.acDevId e.acKey = false) : y'.pending e = y.pending e := by
  rw [SyncList.pending, SyncList.pending, hy, hy', filter_append, filter_append,
    filter_append, filter_isFor_eq_nil hos, append_nil, filter_cons,
    if_neg (by simp [hn'])]

theorem taken_self (h : syncSeqs y'.nodes = syncSeqs y.nodes) : y.taken y' = [] := by
  rw [SyncList.taken, h, filter_eq_nil_iff]
  intro q hq
  simpa using hq

theorem taken_eq {as bs : List Nat} {q : Nat} (hy : syncSeqs y.nodes = as ++ q :: bs)
    (hy' : syncSeqs y'.nodes = as ++ bs) (hnodup : (syncSeqs y.nodes).Nodup) :
    y.taken y' = [q] := by
  rw [hy, nodup_middle, nodup_cons] at hnodup
  have hkept : ∀ cs : List Nat, (∀ r ∈ cs, r ∈ as ++ bs) →
      cs.filter (fun r => r ∉ as ++ bs) = [] := by
    intro cs hcs
    rw [filter_eq_nil_iff]
    intro r hr hnot
    exact of_decide_eq_true hnot (hcs r hr)
  rw [SyncList.taken, hy, hy', filter_append, filter_cons_of_pos (by simpa using hnodup.1),
    hkept as fun r hr => mem_append_left _ hr, hkept bs fun r hr => mem_append_right _ hr,
    nil_append]

theorem Tracked.answer (h : Tracked y log) (hy : y.nodes = ns ++ n :: ms)
    (hn : n.isFor d k = true) (hothers : ∀ m ∈ ns ++ ms, m.isFor d k = false) (now v : Int)
    (qs : List Nat) (hqs : ∀ q ∈ qs, q ∈ n.seqs ∧ q ∉ (n.event now v false).1.seqs) :
    Tracked { y with nodes := ns ++ (n.event now v false).1 :: ms }
      (log ++ qs.map .answer) := by
  have hsent : ∀ d, SyncNote.sent d ∈ log → SyncNote.sent d ∈ log ++ qs.map .answer :=
    fun d hd => mem_append_left _ hd
  have hlogged := h.queues n (by rw [hy]; simp)
  have hseqs : syncSeqs [n] = n.seqs := flatMap_singleton ..
  refine h.write ns [n] ms _ (j := 0) (by rw [hy]; simp) rfl rfl (fun m hm => ?_)
    ((hlogged.of_event now v).mono hsent) hsent ⟨_, ?_, (append_nil _).symm⟩ fun q hq => ?_
  · have hattr := isFor_eq_false_iff.mp (hothers m hm)
    rw [← isFor_iff.mp hn] at hattr
    exact hattr
  · rw [hseqs]
    exact hlogged.seqs_event now v
  · rw [answers_append, answers_map_answer, mem_append] at hq
    rw [hseqs]
    exact hq.imp_right (hqs q)

/-- A report answers the first entry with a mark that it may answer, and no other. -/
theorem Tracked.event (h : Tracked y log) (now : Int) (e : Event) :
    let r := sceneSyncEvent y now e.acDevId e.acKey e.acValue
    (r.2 = true ↔ y.pending e ≠ []) ∧ r.1.pending e = (y.pending e).tail ∧
      y.taken r.1 = (y.pending e).take 1 ∧
      Tracked r.1 (log ++ ((y.pending e).take 1).map .answer) := by
  intro r
  rcases h.queue_cases e.acDevId e.acKey with hnone | ⟨ns, n, ms, hy, hn, hothers⟩
  · -- the attribute has no queue
    have hr : r = (y, false) := by
      have hloop := @syncEventLoop_others now _ _ e.acValue y.nodes [] hnone false
      rw [append_nil] at hloop
      simp only [r, sceneSyncEvent, hloop, syncEventLoop, append_nil]
    rw [hr, pending_of_none hnone]
    refine ⟨by simp, rfl, taken_self rfl, ?_⟩
    rw [take_nil, map_nil, append_nil]
    exact h
  have hr : r = _ := sceneSyncEvent_eq hy hn hothers now e.acValue
  obtain ⟨hnil, hcons⟩ := (h.queues n (by rw [hy]; simp)).event now (atoi e.acValue)
  have hanswer := h.answer hy hn hothers now (atoi e.acValue)
  have hpending : r.1.pending e = (n.event now (atoi e.acValue) false).1.pending _ :=
    pending_eq (by rw [hr]) hn hothers
  have hseqs : syncSeqs y.nodes = syncSeqs ns ++ (n.seqs ++ syncSeqs ms) := by
    rw [hy, syncSeqs_append, syncSeqs_cons]
  have hseqs' : syncSeqs r.1.nodes =
      syncSeqs ns ++ ((n.event now (atoi e.acValue) false).1.seqs ++ syncSeqs ms) := by
    rw [hr, syncSeqs_append, syncSeqs_cons]
  rw [pending_eq hy hn hothers]
  cases hq : n.pending (atoi e.acValue) with
  | nil =>
    obtain ⟨hsame, hfound⟩ := hnil hq
    have hsame' : (n.event now (atoi e.acValue) false).1.seqs = n.seqs := by
      rw [seqs_eq, hsame, seqs_eq]
    refine ⟨by rw [hr, hfound]; simp, ?_, ?_, ?_⟩
    · rw [hpending, pending, hsame, ← pending, hq, tail_nil]
    · rw [taken_self (by rw [hseqs', hseqs, hsame']), take_nil]
    · rw [hr]
      exact hanswer [] fun q hq => absurd hq not_mem_nil
  | cons q qs =>
    obtain ⟨hfound, hrest, as, bs, hsplit, hsplit'⟩ := hcons q qs hq
    have hbefore : syncSeqs y.nodes = (syncSeqs ns ++ as) ++ q :: (bs ++ syncSeqs ms) := by
      rw [hseqs, hsplit]
      simp
    have hafter : syncSeqs r.1.nodes = (syncSeqs ns ++ as) ++ (bs ++ syncSeqs ms) := by
      rw [hseqs', hsplit']
      simp
    refine ⟨by rw [hr, hfound]; simp, by rw [hpending, hrest, tail_cons], ?_, ?_⟩
    · rw [taken_eq hbefore hafter h.seqs]
      rfl
    · rw [hr]
      refine hanswer [q] fun q' hq' => ?_
      obtain rfl := mem_singleton.mp hq'
      have hnodup := h.seqs
      rw [hbefore, nodup_middle, nodup_cons] at hnodup
      rw [hsplit, hsplit']
      refine ⟨by simp, fun hmem => hnodup.1 ?_⟩
      rcases mem_append.mp hmem with hmem | hmem <;> simp [hmem]

/-! ### Requests -/

theorem Tracked.reqAdd (h : Tracked y log) (hreq : sceneSyncEventReqAdd y now d k v = some y')
    (r : SyncReq) : Tracked y' (log ++ [.request r]) ∧
      (attrOf d k ≠ attrOf e.acDevId e.acKey → y'.pending e = y.pending e) := by
  have hsent : ∀ d, SyncNote.sent d ∈ log → SyncNote.sent d ∈ log ++ [.request r] :=
    fun d hd => mem_append_left _ hd
  have hanswers : ∀ q ∈ answers (log ++ [.request r]), q ∈ answers log := by
    intro q hq
    rw [answers_append] at hq
    simpa [answers, SyncNote.answer?] using hq
  rcases h.queue_cases d k with hnone | ⟨ns, n, ms, hy, hn, hothers⟩
  · -- a queue is added
    have hany : ¬ (y.nodes.any fun n => n.isFor d k) = true := by simpa using hnone
    rw [sceneSyncEventReqAdd, if_neg hany] at hreq
    obtain rfl := (some.inj hreq).symm
    set n' : SyncNode := ⟨strncpy devIdMaxLen d, strncpy keyMaxLen k, [⟨atoi v, y.iSeq⟩], 0#32,
      false, 1, now⟩ with hn'
    have hattr : n'.attr = attrOf d k := by simp [hn', attr, attrOf, strncpy]
    refine ⟨h.write y.nodes [] [] n' (j := 1) (by simp) rfl rfl
      ?_ ⟨Nat.le_of_ble_eq_true rfl, .inr ?_⟩ hsent ⟨[], List.Sublist.refl _, rfl⟩
      fun q hq => .inl (hanswers q hq),
      fun hne => ?_⟩
    · intro m hm
      rw [append_nil] at hm
      rw [hattr]
      exact isFor_eq_false_iff.mp (hnone m hm)
    · rw [← noneSent_iff]
      exact fun i _ => by simp [sent_eq, hn']
    · refine pending_congr y.nodes [] [] n' (by simp) rfl
        (fun m hm => absurd hm not_mem_nil) ?_
      rw [isFor_eq_false_iff, hattr]
      exact hne
  · rw [sceneSyncEventReqAdd_eq hy hn hothers] at hreq
    obtain ⟨n', hn', rfl⟩ := map_eq_some_iff.mp hreq
    obtain ⟨hlogged, qs, hsub, hseqs⟩ :=
      (h.queues n (by rw [hy]; simp)).reqAdd hn' (log ++ [.request r])
    have hattr := (attr_reqAdd hn').trans (isFor_iff.mp hn)
    refine ⟨h.write ns [n] ms n' (j := 1) (by rw [hy]; simp) rfl rfl ?_ hlogged hsent
      ⟨qs, ?_, hseqs⟩ fun q hq => .inl (hanswers q hq), fun hne => ?_⟩
    · intro m hm
      rw [hattr]
      exact isFor_eq_false_iff.mp (hothers m hm)
    · rw [syncSeqs, flatMap_singleton]
      exact hsub
    · refine pending_congr ns [n] ms n' (by rw [hy]; simp) rfl (fun m hm => ?_) ?_
      · rw [mem_singleton.mp hm, isFor_eq_false_iff, isFor_iff.mp hn]
        exact hne
      · rw [isFor_eq_false_iff, hattr]
        exact hne

/-! ### Executions -/

theorem Tracked.reqExec (h : Tracked y log) (now : Int) :
    Tracked (sceneSyncEventReqExec y now).1
      (log ++ (sceneSyncEventReqExec y now).2.map .sent) := by
  have hleft : ∀ n' ∈ (sceneSyncEventReqExec y now).1.nodes, ∃ n ∈ y.nodes, ∃ ds,
      n.reqExec now = some (n', ds) := by
    intro n' hn'
    obtain ⟨n, hn, hmap⟩ := mem_filterMap.mp hn'
    obtain ⟨⟨m, ds⟩, hexec, rfl⟩ := map_eq_some_iff.mp hmap
    exact ⟨n, hn, ds, hexec⟩
  have hexec : ∀ n ∈ y.nodes, ∀ n' ds, n.reqExec now = some (n', ds) →
      n'.Logged (log ++ (sceneSyncEventReqExec y now).2.map .sent) ∧ n'.attr = n.attr := by
    intro n hn n' ds hexec
    refine (h.queues n hn).reqExec hexec (fun d hd => mem_append_left _ hd) fun d hd => ?_
    refine mem_append_right _ (List.mem_map_of_mem (mem_flatMap.mpr ⟨n, hn, ?_⟩))
    rw [hexec]
    exact hd
  -- every queue that is left has the attribute and the entries it had
  have hsub : ∀ {α : Type} (f : SyncNode → List α), (∀ n ∈ y.nodes, ∀ n' ds,
      n.reqExec now = some (n', ds) → f n' = f n) →
      ((sceneSyncEventReqExec y now).1.nodes.flatMap f).Sublist (y.nodes.flatMap f) := by
    intro α f hf
    simp only [sceneSyncEventReqExec, filterMap_eq_flatMap_toList, flatMap_assoc]
    refine List.Sublist.flatMap_right _ fun n hn => ?_
    cases hr : n.reqExec now with
    | none => simp
    | some r => simp [hf n hn r.1 r.2 hr]
  have hseqs : (syncSeqs (sceneSyncEventReqExec y now).1.nodes).Sublist (syncSeqs y.nodes) :=
    hsub _ fun n hn n' ds hr => by rw [SyncNode.seqs, SyncNode.reqExec_aiValue hr, SyncNode.seqs]
  refine ⟨fun n' hn' => ?_, ?_, h.seqs.sublist hseqs, fun q hq => h.lt q (hseqs.subset hq), ?_⟩
  · obtain ⟨n, hn, ds, hr⟩ := hleft n' hn'
    exact (hexec n hn n' ds hr).1
  · refine h.attrs.sublist ?_
    have hattrs := hsub (fun n => [n.attr]) fun n hn n' ds hr => by rw [(hexec n hn n' ds hr).2]
    rw [map_eq_flatMap, map_eq_flatMap]
    exact hattrs
  · rw [answers_append, answers_map_sent, append_nil]
    exact fun q hq => ⟨(h.answered q hq).1, fun hmem => (h.answered q hq).2 (hseqs.subset hmem)⟩

end

end Honyar.LocalScene
