import Honyar.MsgQueue.Sequence

/-!
# A queue that was cleared

`msg_queue_clear` gives back every message and every entry of a type.  The ends of both lists still
point at them afterwards and the semaphores stay posted, so that the next look for a type begins
with an entry that was given back.
-/

namespace Honyar.MsgQueue

open Option

/-! ## The calls besides pushing and popping -/

/-- The loop of `msg_link_list_clear`. -/
def msgLinkListClearFrom : Nat → Option Nat → MsgQueue → Option MsgQueue
  | _, none, q => some q
  | 0, some _, _ => none
  | n + 1, some p, q => do
    let c ← q.msgs.heap p
    let msgs ← q.msgs.free p
    msgLinkListClearFrom n c.next { q with msgs := msgs, iMsgCount := q.iMsgCount - 1 }

/-- The loop of `msg_type_link_list_clear`. -/
def msgTypeLinkListClearFrom : Nat → Option Nat → MsgQueue → Option MsgQueue
  | _, none, q => some q
  | 0, some _, _ => none
  | n + 1, some p, q => do
    let c ← q.types.heap p
    let types ← q.types.free p
    msgTypeLinkListClearFrom n c.next
      { q with types := types, iMsgTypeCount := q.iMsgTypeCount - 1 }

/-- `msg_queue_clear`. -/
def msgQueueClear (q : MsgQueue) : Option (MsgQueue × Ret) := do
  let q ← msgLinkListClearFrom q.msgs.fresh q.msgs.head q
  let q ← msgTypeLinkListClearFrom q.types.fresh q.types.head q
  return (q, .noErr)

/-- `msg_queue_len`: all messages, or those its entry counts for a type. -/
def msgQueueLen (e : Env) (iMsgType : Int) (q : MsgQueue) : Option (MsgQueue × Int) :=
  if iMsgType < 0 then some (q, q.iMsgCount)
  else do
    let (q, info) ← msgTypeFind e iMsgType q
    match info with
    | none => return (q, -1)
    | some p =>
      let i ← q.types.data p
      return (q, i.iCount)

/-- The loop of `msg_queue_print`. -/
def msgQueuePrintFrom (q : MsgQueue) : Nat → Option Nat → Option (List Msg)
  | _, none => some []
  | 0, some _ => none
  | n + 1, some p => do
    let c ← q.msgs.heap p
    let ms ← msgQueuePrintFrom q n c.next
    return c.data :: ms

/-- `msg_queue_print`: the count and the messages. -/
def msgQueuePrint (q : MsgQueue) : Option (Int × List Msg) :=
  (msgQueuePrintFrom q q.msgs.fresh q.msgs.head).map fun ms => (q.iMsgCount, ms)

/-- A call of any kind. -/
inductive Call where
  | op (op : Op)
  | len (e : Env) (iMsgType : Int)
  | clear
  | print

/-- What a call gives back. -/
inductive Result where
  | out (out : Out)
  | len (iLen : Int)
  | ret (iRet : Ret)
  | printed (r : Int × List Msg)

def callStep (q : MsgQueue) : Call → Option (MsgQueue × List Result)
  | .op op => (step q op).map fun r => (r.1, r.2.map fun x => .out x.2)
  | .len e t => (msgQueueLen e t q).map fun r => (r.1, [.len r.2])
  | .clear => (msgQueueClear q).map fun r => (r.1, [.ret r.2])
  | .print => (msgQueuePrint q).map fun r => (q, [.printed r])

/-- A queue that was just made, in the memory of another one. -/
def madeBeside (q : MsgQueue) : MsgQueue where
  msgs := { q.msgs with head := none, tail := none }
  types := { q.types with head := none, tail := none }
  sem := 0
  iMsgCount := 0
  iMsgTypeCount := 0

variable {q q' : MsgQueue} {ms : List Msg} {p : Nat}

/-! ## Entries that were given back -/

/-- The first entry was given back. -/
def Dangling (q : MsgQueue) : Prop := ∃ p, q.types.head = some p ∧ q.types.heap p = none

theorem Dangling.find (h : Dangling q) (e : Env) (t : Int) : msgTypeFind e t q = none := by
  obtain ⟨p, hhead, hnone⟩ := h
  have hfrom : msgTypeFindFrom e.now t q.types.fresh (some p) q = none := by
    cases q.types.fresh with
    | zero => rfl
    | succ n =>
      rw [msgTypeFindFrom, hnone]
      rfl
  rw [msgTypeFind, hhead, hfrom]
  rfl

theorem Dangling.of_types (h : Dangling q) (htypes : q'.types = q.types) : Dangling q' := by
  rw [Dangling, htypes]
  exact h

theorem msgLinkListClearFrom_types {n : Nat} {r : Option Nat}
    (h : msgLinkListClearFrom n r q = some q') : q'.types = q.types := by
  induction n generalizing r q with
  | zero =>
    cases r with
    | none => rw [← some.inj h]
    | some p => cases h
  | succ n ih =>
    cases r with
    | none => rw [← some.inj h]
    | some p =>
      obtain ⟨c, -, h⟩ := bind_eq_some_iff.mp h
      obtain ⟨msgs, -, h⟩ := bind_eq_some_iff.mp h
      have htypes := ih h
      exact htypes

/-- Clearing the entries leaves the first one where it was, and gives none back to the list. -/
theorem msgTypeLinkListClearFrom_types {n : Nat} {r : Option Nat}
    (h : msgTypeLinkListClearFrom n r q = some q') :
    q'.types.head = q.types.head ∧ ∀ b, q.types.heap b = none → q'.types.heap b = none := by
  induction n generalizing r q with
  | zero =>
    cases r with
    | none =>
      obtain rfl := some.inj h
      exact ⟨rfl, fun _ hb => hb⟩
    | some p => cases h
  | succ n ih =>
    cases r with
    | none =>
      obtain rfl := some.inj h
      exact ⟨rfl, fun _ hb => hb⟩
    | some p =>
      obtain ⟨c, -, h⟩ := bind_eq_some_iff.mp h
      obtain ⟨types, hfree, h⟩ := bind_eq_some_iff.mp h
      obtain ⟨d, -, rfl⟩ := map_eq_some_iff.mp hfree
      obtain ⟨hhead, hheap⟩ := ih h
      refine ⟨hhead, fun b hb => hheap b ?_⟩
      show Function.update q.types.heap p none b = none
      rw [Function.update_apply, hb, ite_self]

theorem dangling_of_clear {iRet : Ret} (hp : q.types.head = some p)
    (h : msgQueueClear q = some (q', iRet)) : Dangling q' := by
  obtain ⟨q₁, hmsgs, h⟩ := bind_eq_some_iff.mp h
  obtain ⟨q₂, htypes, h⟩ := bind_eq_some_iff.mp h
  obtain ⟨rfl, -⟩ := Prod.mk.inj (some.inj h)
  rw [← msgLinkListClearFrom_types hmsgs] at hp
  have hends := msgTypeLinkListClearFrom_types htypes
  refine ⟨p, hends.1.trans hp, ?_⟩
  rw [hp] at htypes
  cases hn : q₁.types.fresh with
  | zero =>
    rw [hn] at htypes
    cases htypes
  | succ n =>
    rw [hn] at htypes
    obtain ⟨c, -, htypes⟩ := bind_eq_some_iff.mp htypes
    obtain ⟨types, hfree, htypes⟩ := bind_eq_some_iff.mp htypes
    obtain ⟨d, -, rfl⟩ := map_eq_some_iff.mp hfree
    exact (msgTypeLinkListClearFrom_types htypes).2 p (Function.update_self p none q₁.types.heap)

theorem Dangling.clear (h : Dangling q) : msgQueueClear q = none := by
  rw [msgQueueClear]
  cases hmsgs : msgLinkListClearFrom q.msgs.fresh q.msgs.head q with
  | none => rfl
  | some q₁ =>
    obtain ⟨p, hhead, hnone⟩ := h.of_types (msgLinkListClearFrom_types hmsgs)
    have htypes : msgTypeLinkListClearFrom q₁.types.fresh q₁.types.head q₁ = none := by
      rw [hhead]
      cases q₁.types.fresh with
      | zero => rfl
      | succ n =>
        rw [msgTypeLinkListClearFrom, hnone]
        rfl
    show (msgTypeLinkListClearFrom q₁.types.fresh q₁.types.head q₁).bind _ = none
    rw [htypes]
    rfl

theorem Dangling.step {c : Call} {o : List Result} (h : Dangling q)
    (hstep : callStep q c = some (q', o)) : Dangling q' := by
  cases c with
  | op op =>
    obtain ⟨⟨q₁, o₁⟩, hop, heq⟩ := map_eq_some_iff.mp hstep
    obtain ⟨rfl, -⟩ := Prod.mk.inj heq
    cases op with
    | push e t d =>
      obtain ⟨⟨q₂, r⟩, hpush, heq⟩ := map_eq_some_iff.mp hop
      obtain ⟨rfl, -⟩ := Prod.mk.inj heq
      rw [msgQueuePush] at hpush
      split at hpush
      · obtain ⟨rfl, -⟩ := Prod.mk.inj (some.inj hpush)
        exact h
      · rw [h.find] at hpush
        cases hpush
    | pop e t n =>
      obtain ⟨⟨q₂, r⟩, hpop, heq⟩ := map_eq_some_iff.mp hop
      obtain ⟨rfl, -⟩ := Prod.mk.inj heq
      rw [msgQueuePop] at hpop
      split at hpop
      · obtain ⟨rfl, -⟩ := Prod.mk.inj (some.inj hpop)
        exact h
      · split at hpop
        · -- any type: there may be no message, but one cannot be taken out
          split at hpop
          · obtain ⟨rfl, -⟩ := Prod.mk.inj (some.inj hpop)
            exact h
          · cases hhead : q.msgs.head with
            | none =>
              simp only [hhead] at hpop
              obtain ⟨rfl, -⟩ := Prod.mk.inj (some.inj hpop)
              exact h.of_types rfl
            | some p =>
              simp only [hhead] at hpop
              obtain ⟨m, -, hpop⟩ := bind_eq_some_iff.mp hpop
              obtain ⟨q₃, hdel, hpop⟩ := bind_eq_some_iff.mp hpop
              have htypes : q₃.types = q.types := by
                obtain ⟨msgs, -, hq₃⟩ := bind_eq_some_iff.mp hdel
                rw [← some.inj hq₃]
              obtain ⟨r, hfind, -⟩ := bind_eq_some_iff.mp hpop
              rw [(h.of_types htypes).find] at hfind
              cases hfind
        · rw [h.find] at hpop
          cases hpop
  | len e t =>
    obtain ⟨⟨q₁, n⟩, hlen, heq⟩ := map_eq_some_iff.mp hstep
    obtain ⟨rfl, -⟩ := Prod.mk.inj heq
    rw [msgQueueLen] at hlen
    split at hlen
    · obtain ⟨rfl, -⟩ := Prod.mk.inj (some.inj hlen)
      exact h
    · rw [h.find] at hlen
      cases hlen
  | clear =>
    rw [callStep, h.clear] at hstep
    cases hstep
  | print =>
    obtain ⟨r, -, heq⟩ := map_eq_some_iff.mp hstep
    obtain ⟨rfl, -⟩ := Prod.mk.inj heq
    exact h

/-! ## Queues that can be reached -/

theorem Stands.eq_madeBeside (h : Stands q ms) (hhead : q.types.head = none) :
    madeBeside q = q := by
  obtain ⟨is, htypes⟩ := h.types
  have his : is = [] := by
    cases is with
    | nil => rfl
    | cons i is =>
      rw [htypes.holds.head] at hhead
      cases hhead
  subst his
  -- no entry counts anything, so there is no message
  have hms : ms = [] := by
    cases ms with
    | nil => rfl
    | cons m ms =>
      obtain ⟨i, hi, -⟩ := htypes.counted.covered m.iMsgType (by
        rw [countOf, List.countP_cons, if_pos (by simp)]
        exact Nat.succ_ne_zero _)
      cases hi
  subst hms
  obtain ⟨xs, hxs, hnil⟩ := h.msgs
  obtain rfl := List.map_eq_nil_iff.mp hnil
  obtain ⟨⟨mheap, mhead, mtail, mfresh⟩, ⟨theap, thead, ttail, tfresh⟩, sem, count, types⟩ := q
  obtain rfl : mhead = none := hxs.head
  obtain rfl : mtail = none := hxs.tail
  obtain rfl : thead = none := htypes.holds.head
  obtain rfl : ttail = none := htypes.holds.tail
  obtain rfl : sem = 0 := h.sem
  obtain rfl : count = 0 := h.count
  obtain rfl : types = 0 := htypes.length
  rfl

theorem Stands.clear (h : Stands q ms) (hhead : q.types.head = none) :
    msgQueueClear q = some (q, .noErr) := by
  have hmade := h.eq_madeBeside hhead
  have hmsgs : q.msgs.head = none := by rw [← hmade]; rfl
  have hloop : msgLinkListClearFrom q.msgs.fresh q.msgs.head q = some q := by
    rw [hmsgs]
    cases q.msgs.fresh <;> rfl
  have hloop' : msgTypeLinkListClearFrom q.types.fresh q.types.head q = some q := by
    rw [hhead]
    cases q.types.fresh <;> rfl
  rw [msgQueueClear, hloop]
  show (msgTypeLinkListClearFrom q.types.fresh q.types.head q).bind _ = _
  rw [hloop']
  rfl

/-- The queue stands for a sequence, or points at an entry that was given back. -/
def Reached (q : MsgQueue) : Prop := (∃ ms, Stands q ms) ∨ Dangling q

theorem Reached.step {c : Call} {o : List Result} (h : Reached q)
    (hstep : callStep q c = some (q', o)) : Reached q' := by
  rcases h with ⟨ms, h⟩ | h
  · cases c with
    | op op =>
      obtain ⟨q₁, out, ms', hop, -, hstands⟩ := h.step op
      rw [callStep, hop] at hstep
      obtain ⟨rfl, -⟩ := Prod.mk.inj (some.inj hstep)
      exact .inl ⟨ms', hstands⟩
    | len e t =>
      obtain ⟨⟨q₁, n⟩, hlen, heq⟩ := map_eq_some_iff.mp hstep
      obtain ⟨rfl, -⟩ := Prod.mk.inj heq
      rw [msgQueueLen] at hlen
      split at hlen
      · obtain ⟨rfl, -⟩ := Prod.mk.inj (some.inj hlen)
        exact .inl ⟨ms, h⟩
      · obtain ⟨is, htypes⟩ := h.types
        obtain ⟨q₂, r, is', hfind, hsame, htypes', -, -⟩ := htypes.find e t
        have hstands : Stands q₂ ms :=
          ⟨by rw [hsame.msgs]; exact h.msgs, hsame.sem.trans h.sem, hsame.count.trans h.count,
            is', htypes'⟩
        rw [hfind, bind_eq_bind, bind_some] at hlen
        cases r with
        | none =>
          obtain ⟨rfl, -⟩ := Prod.mk.inj (some.inj hlen)
          exact .inl ⟨ms, hstands⟩
        | some p =>
          obtain ⟨i, -, hlen⟩ := bind_eq_some_iff.mp hlen
          obtain ⟨rfl, -⟩ := Prod.mk.inj (some.inj hlen)
          exact .inl ⟨ms, hstands⟩
    | clear =>
      obtain ⟨⟨q₁, r⟩, hclear, heq⟩ := map_eq_some_iff.mp hstep
      obtain ⟨rfl, -⟩ := Prod.mk.inj heq
      cases hhead : q.types.head with
      | none =>
        rw [h.clear hhead] at hclear
        obtain ⟨rfl, -⟩ := Prod.mk.inj (some.inj hclear)
        exact .inl ⟨ms, h⟩
      | some p => exact .inr (dangling_of_clear hhead hclear)
    | print =>
      obtain ⟨r, -, heq⟩ := map_eq_some_iff.mp hstep
      obtain ⟨rfl, -⟩ := Prod.mk.inj heq
      exact .inl ⟨ms, h⟩
  · exact .inr (h.step hstep)

/-- A cleared queue is like one just made exactly if it had no entry for any type. -/
theorem queue_cleared_iff {calls : List Call} {rs : List Result}
    (h : Run.run callStep newMsgQueue calls = some (q, rs)) :
    (∃ q', msgQueueClear q = some (q', .noErr) ∧ Run.Alike callStep q' (madeBeside q')) ↔
      q.types.head = none := by
  have hreached : Reached q :=
    Run.run_preserves (fun _ _ _ _ hr hstep => hr.step hstep) (.inl ⟨[], stands_new⟩) h
  constructor
  · rintro ⟨q', hclear, halike⟩
    by_contra hne
    obtain ⟨p, hp⟩ := ne_none_iff_exists'.mp hne
    -- looking for a type, with no memory for an entry
    have hemits := halike.emits (.len ⟨0, 0, false, false⟩ 0)
    have hdangling : callStep q' (.len ⟨0, 0, false, false⟩ 0) = none := by
      rw [callStep, msgQueueLen, if_neg (by decide), (dangling_of_clear hp hclear).find]
      rfl
    have hmade : callStep (madeBeside q') (.len ⟨0, 0, false, false⟩ 0) =
        some (madeBeside q', [.len (-1)]) := by
      have hfrom : msgTypeFindFrom 0 0 q'.types.fresh none (madeBeside q') =
          some (madeBeside q', none) := by
        cases q'.types.fresh <;> rfl
      have hfind : msgTypeFind ⟨0, 0, false, false⟩ 0 (madeBeside q') =
          some (madeBeside q', none) := by
        show (msgTypeFindFrom 0 0 q'.types.fresh none (madeBeside q')).bind _ = _
        rw [hfrom]
        rfl
      rw [callStep, msgQueueLen, if_neg (by decide), hfind]
      rfl
    rw [hdangling, hmade] at hemits
    cases hemits
  · intro hhead
    rcases hreached with ⟨ms, hstands⟩ | ⟨p, hp, -⟩
    · refine ⟨q, hstands.clear hhead, ?_⟩
      rw [hstands.eq_madeBeside hhead]
      exact Run.Alike.refl q
    · rw [hhead] at hp
      cases hp

end Honyar.MsgQueue
