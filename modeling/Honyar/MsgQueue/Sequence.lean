import Honyar.Lib.Lists
import Honyar.Lib.Run
import Honyar.MsgQueue.Queue
import Mathlib.Data.List.Induction

/-!
# The message queue as a sequence

What the queue is for: a sequence of messages, appended to by a push and taken from by a pop,
the oldest of all or the oldest of one type.  The queue of the code does the same in every
run, and its counters and semaphores count the messages of the sequence.
-/

namespace Honyar.MsgQueue

open Honyar (DoubleList)
open Option List DoubleList

variable {p : Nat} {is : List (Nat × TypeInfo)}

/-! ## Sequences of messages -/

/-- The message a pop takes, and what is left. -/
def takeOldest (iMsgType : Int) (ms : List Msg) : Option (Msg × List Msg) :=
  if iMsgType = -1 then
    match ms with
    | [] => none
    | m :: ms => some (m, ms)
  else (ms.find? (·.iMsgType = iMsgType)).map fun m =>
    (m, ms.eraseP (·.iMsgType = iMsgType))

/-- What a call may do to the sequence, with its result: a push appends, unless its arguments
are wrong or there is no memory, and a pop takes the oldest, unless its arguments are wrong or
there is none. -/
inductive SeqStep : List Msg → Op → Out → List Msg → Prop
  | pushed {ms e t d} (ht : 0 ≤ t) (hd : d ≠ []) :
      SeqStep ms (.push e t d) (.pushed .noErr) (ms ++ [⟨t, d⟩])
  | pushInvalid {ms e t d} (h : t < 0 ∨ d = []) :
      SeqStep ms (.push e t d) (.pushed .paraErr) ms
  | pushNoMemory {ms e t d r} (ht : 0 ≤ t) (hd : d ≠ [])
      (h : e.typeMem = false ∧ r = .generalErr ∨ e.msgMem = false ∧ r = .queuePushErr) :
      SeqStep ms (.push e t d) (.pushed r) ms
  | popped {ms ms' e t n m} (ht : -1 ≤ t) (hn : 0 < n) (h : takeOldest t ms = some (m, ms')) :
      SeqStep ms (.pop e t n) (.popped (.ok (copyOut n m))) ms'
  | popNone {ms e t n} (ht : -1 ≤ t) (hn : 0 < n) (h : takeOldest t ms = none) :
      SeqStep ms (.pop e t n) (.popped (.error .generalErr)) ms
  | popInvalid {ms e t n} (h : t < -1 ∨ n ≤ 0) :
      SeqStep ms (.pop e t n) (.popped (.error .paraErr)) ms

/-- A log of calls and results, followed through the sequence. -/
inductive SeqRun : List Msg → List (Op × Out) → List Msg → Prop
  | nil {ms} : SeqRun ms [] ms
  | snoc {ms ms' ms'' log op out} (h : SeqRun ms log ms') (hs : SeqStep ms' op out ms'') :
      SeqRun ms (log ++ [(op, out)]) ms''

/-! ## The counters -/

/-- How many messages there are of each type. -/
def countOf (ms : List Msg) (t : Int) : Nat :=
  ms.countP (·.iMsgType = t)

/-- The entries count what `c` says of their types, no two are for one type, and a type that
something is counted for has one. -/
structure Counted (c : Int → Nat) (is : List TypeInfo) : Prop where
  nodup : (is.map (·.iMsgType)).Nodup
  sem : ∀ i ∈ is, i.sem = c i.iMsgType
  count : ∀ i ∈ is, i.iCount = c i.iMsgType
  covered : ∀ t, c t ≠ 0 → ∃ i ∈ is, i.iMsgType = t

/-- The entries of the queue count what `c` says. -/
structure TypesCount (c : Int → Nat) (q : MsgQueue) (is : List (Nat × TypeInfo)) : Prop where
  holds : q.types.Holds is
  counted : Counted c (is.map Prod.snd)
  length : q.iMsgTypeCount = is.length

/-- The queue stands for the sequence `ms`: its list holds the messages in order, the global
semaphore and count are their number, and the entries count those of their types. -/
structure Stands (q : MsgQueue) (ms : List Msg) : Prop where
  msgs : ∃ xs, q.msgs.Holds xs ∧ xs.map Prod.snd = ms
  sem : q.sem = ms.length
  count : q.iMsgCount = ms.length
  types : ∃ is, TypesCount (countOf ms) q is

namespace Counted

variable {c : Int → Nat} {as bs : List TypeInfo} {i j : TypeInfo}

theorem remove (h : Counted c (as ++ i :: bs)) (hi : i.iCount = 0) : Counted c (as ++ bs) := by
  have hmem : ∀ j ∈ as ++ bs, j ∈ as ++ i :: bs := fun j hj => by
    rcases mem_append.mp hj with hj | hj
    · exact mem_append_left _ hj
    · exact mem_append_right _ (mem_cons_of_mem _ hj)
  refine ⟨?_, fun j hj => h.sem j (hmem j hj), fun j hj => h.count j (hmem j hj), ?_⟩
  · refine h.nodup.sublist (List.Sublist.map _ ?_)
    exact (List.Sublist.refl as).append (sublist_cons_self i bs)
  · intro t ht
    obtain ⟨j, hj, rfl⟩ := h.covered t ht
    refine ⟨j, ?_, rfl⟩
    have hne : j ≠ i := by
      rintro rfl
      have hcount := h.count j (by simp)
      rw [hi] at hcount
      exact ht (by exact_mod_cast hcount.symm)
    simp only [mem_append, mem_cons] at hj ⊢
    tauto

theorem replace (h : Counted c (as ++ i :: bs)) (ht : j.iMsgType = i.iMsgType)
    {c' : Int → Nat} (hsem : j.sem = c' j.iMsgType) (hcount : j.iCount = c' j.iMsgType)
    (hother : ∀ t, t ≠ i.iMsgType → c' t = c t) : Counted c' (as ++ j :: bs) := by
  have hkeys : (as ++ j :: bs).map (·.iMsgType) = (as ++ i :: bs).map (·.iMsgType) := by
    simp [ht]
  have hnd := h.nodup
  simp only [map_append, map_cons] at hnd
  obtain ⟨-, hndB, hdisj⟩ := nodup_append.mp hnd
  have hne : ∀ k ∈ as ++ bs, k.iMsgType ≠ i.iMsgType := by
    intro k hk heq
    rcases mem_append.mp hk with hk | hk
    · exact hdisj _ (List.mem_map_of_mem hk) _ mem_cons_self heq
    · exact (nodup_cons.mp hndB).1 (List.mem_map.mpr ⟨k, hk, heq⟩)
  have hcases : ∀ k ∈ as ++ j :: bs, k = j ∨ k ∈ as ++ bs := by
    intro k hk
    simp only [mem_append, mem_cons] at hk ⊢
    tauto
  have hold : ∀ k ∈ as ++ bs, k ∈ as ++ i :: bs := by
    intro k hk
    simp only [mem_append, mem_cons] at hk ⊢
    tauto
  refine ⟨hkeys ▸ h.nodup, ?_, ?_, ?_⟩
  · intro k hk
    rcases hcases k hk with rfl | hk
    · exact hsem
    · rw [h.sem k (hold k hk), hother _ (hne k hk)]
  · intro k hk
    rcases hcases k hk with rfl | hk
    · exact hcount
    · rw [h.count k (hold k hk), hother _ (hne k hk)]
  · intro t htt
    by_cases hti : t = i.iMsgType
    · exact ⟨j, by simp, by rw [ht, hti]⟩
    · rw [hother t hti] at htt
      obtain ⟨k, hk, rfl⟩ := h.covered t htt
      refine ⟨k, ?_, rfl⟩
      have hki : k ≠ i := fun heq => hti (by rw [heq])
      simp only [mem_append, mem_cons] at hk ⊢
      tauto

theorem append (h : Counted c as) (hi : ∀ k ∈ as, k.iMsgType ≠ i.iMsgType) (hsem : i.sem = 0)
    (hcount : i.iCount = 0) : Counted c (as ++ [i]) := by
  have hzero : c i.iMsgType = 0 := by
    by_contra hne
    obtain ⟨k, hk, heq⟩ := h.covered _ hne
    exact hi k hk heq
  refine ⟨?_, ?_, ?_, ?_⟩
  · rw [map_append, nodup_append]
    refine ⟨h.nodup, nodup_singleton _, ?_⟩
    rintro t ht u hu rfl
    obtain ⟨k, hk, rfl⟩ := List.mem_map.mp ht
    exact hi k hk (by simpa using hu)
  · intro k hk
    rcases mem_append.mp hk with hk | hk
    · exact h.sem k hk
    · rw [mem_singleton.mp hk, hsem, hzero]
  · intro k hk
    rcases mem_append.mp hk with hk | hk
    · exact h.count k hk
    · rw [mem_singleton.mp hk, hcount, hzero]
      rfl
  · intro t ht
    obtain ⟨k, hk, rfl⟩ := h.covered t ht
    exact ⟨k, mem_append_left _ hk, rfl⟩

end Counted

/-! ## Looking for a type -/

/-- Only the entries differ. -/
structure SameMsgs (q q' : MsgQueue) : Prop where
  msgs : q'.msgs = q.msgs
  sem : q'.sem = q.sem
  count : q'.iMsgCount = q.iMsgCount

theorem SameMsgs.refl (q : MsgQueue) : SameMsgs q q := ⟨rfl, rfl, rfl⟩

theorem SameMsgs.trans {q q' q'' : MsgQueue} (h : SameMsgs q q') (h' : SameMsgs q' q'') :
    SameMsgs q q'' :=
  ⟨h'.msgs.trans h.msgs, h'.sem.trans h.sem, h'.count.trans h.count⟩

/-- The block is that of the type's entry, or the type has none. -/
def Found (t : Int) (is : List (Nat × TypeInfo)) : Option Nat → Prop
  | some p => ∃ i, (p, i) ∈ is ∧ i.iMsgType = t
  | none => ∀ k ∈ is, k.2.iMsgType ≠ t

variable {c : Int → Nat} {q : MsgQueue} {t : Int}

theorem TypesCount.del {as bs : List (Nat × TypeInfo)} {i : TypeInfo}
    (h : TypesCount c q (as ++ (p, i) :: bs)) (hi : i.iCount = 0) :
    ∃ q', msgTypeLinkListDel p q = some q' ∧ SameMsgs q q' ∧ TypesCount c q' (as ++ bs) := by
  obtain ⟨types, hdel, -, hholds⟩ := h.holds.del
  refine ⟨{ q with types := types, iMsgTypeCount := q.iMsgTypeCount - 1 }, ?_, ⟨rfl, rfl, rfl⟩,
    hholds, ?_, ?_⟩
  · rw [msgTypeLinkListDel, hdel]
    rfl
  · have hcounted := h.counted
    rw [map_append, map_cons] at hcounted
    rw [map_append]
    exact hcounted.remove hi
  · have hlen := h.length
    simp only [length_append, length_cons] at hlen ⊢
    omega

theorem TypesCount.setType {i : TypeInfo} (h : TypesCount c q is) (f : TypeInfo → TypeInfo)
    (c' : Int → Nat) (hp : (p, i) ∈ is) (ht : (f i).iMsgType = i.iMsgType)
    (hsem : (f i).sem = c' (f i).iMsgType) (hcount : (f i).iCount = c' (f i).iMsgType)
    (hother : ∀ t, t ≠ i.iMsgType → c' t = c t) :
    ∃ q' is', setType p f q = some q' ∧ SameMsgs q q' ∧ TypesCount c' q' is' ∧
      (p, f i) ∈ is' := by
  obtain ⟨as, bs, rfl⟩ := append_of_mem hp
  obtain ⟨types, hmod, -, hholds⟩ := h.holds.modify f
  refine ⟨{ q with types := types }, as ++ (p, f i) :: bs, ?_, ⟨rfl, rfl, rfl⟩,
    ⟨hholds, ?_, ?_⟩, by simp⟩
  · rw [MsgQueue.setType, hmod]
    rfl
  · have hcounted := h.counted
    rw [map_append, map_cons] at hcounted
    rw [map_append, map_cons]
    exact hcounted.replace ht hsem hcount hother
  · simpa using h.length

/-- The loop keeps the counts, whatever it removes, and stops at the type's entry. -/
theorem TypesCount.findFrom {as bs : List (Nat × TypeInfo)} {n : Nat} (now : UInt32)
    (h : TypesCount c q (as ++ bs)) (has : ∀ k ∈ as, k.2.iMsgType ≠ t) (hn : bs.length ≤ n) :
    ∃ q' r is, msgTypeFindFrom now t n (DoubleList.firstOr none bs) q = some (q', r) ∧
      SameMsgs q q' ∧ TypesCount c q' is ∧ Found t is r := by
  induction bs generalizing as q n with
  | nil =>
    refine ⟨q, none, as, ?_, .refl q, by simpa using h, has⟩
    cases n <;> rfl
  | cons b bs ih =>
    obtain ⟨p, i⟩ := b
    obtain ⟨n, rfl⟩ : ∃ m, n = m + 1 := Nat.exists_eq_succ_of_ne_zero (by
      rintro rfl
      simp at hn)
    have hlen : bs.length ≤ n := by simpa using hn
    simp only [firstOr_cons, msgTypeFindFrom, h.holds.heap_eq, bind_eq_bind,
      bind_some]
    by_cases hexp : Expired now i
    · -- an expired entry counts nothing
      obtain ⟨q₁, hdel, hsame, h₁⟩ := h.del hexp.1
      obtain ⟨q', r, is, hfind, hsame', htypes, hfound⟩ := ih h₁ has hlen
      refine ⟨q', r, is, ?_, hsame.trans hsame', htypes, hfound⟩
      rw [if_pos hexp, hdel]
      exact hfind
    · rw [if_neg hexp]
      by_cases hti : t = i.iMsgType
      · have hi : (p, i) ∈ as ++ (p, i) :: bs := by simp
        have hmem : i ∈ (as ++ (p, i) :: bs).map Prod.snd := List.mem_map_of_mem hi
        obtain ⟨q', is, hset, hsame, htypes, hmem'⟩ :=
          h.setType (fun i => { i with uiSec := now }) c hi rfl (h.counted.sem i hmem)
            (h.counted.count i hmem) (fun _ _ => rfl)
        refine ⟨q', some p, is, ?_, hsame, htypes, _, hmem', hti.symm⟩
        rw [if_pos hti, hset]
        rfl
      · rw [if_neg hti]
        have hsplit : as ++ (p, i) :: bs = (as ++ [(p, i)]) ++ bs := by simp
        rw [hsplit] at h
        refine ih h (fun k hk => ?_) hlen
        rcases mem_append.mp hk with hk | hk
        · exact has k hk
        · rw [mem_singleton.mp hk]
          exact fun heq => hti heq.symm

/-- `msg_type_find` keeps the counts and gives the type's entry; it gives none only when there
was no memory for one and nothing is counted for the type. -/
theorem TypesCount.find (e : Env) (h : TypesCount c q is) (t : Int) :
    ∃ q' r is', msgTypeFind e t q = some (q', r) ∧ SameMsgs q q' ∧ TypesCount c q' is' ∧
      Found t is' r ∧ (r = none → e.typeMem = false) := by
  have hnil : TypesCount c q ([] ++ is) := h
  obtain ⟨q₁, r, is₁, hfind, hsame, h₁, hfound⟩ :=
    hnil.findFrom (t := t) e.now (by simp) h.holds.length_le
  rw [← h.holds.head] at hfind
  cases r with
  | some p =>
    refine ⟨q₁, some p, is₁, ?_, hsame, h₁, hfound, by simp⟩
    simp [msgTypeFind, hfind]
  | none =>
    by_cases hmem : e.typeMem = true
    · obtain ⟨types, hins, -, hholds⟩ := h₁.holds.tailInsert ⟨t, 0, 0, e.later⟩
      have hcounted := h₁.counted.append (i := ⟨t, 0, 0, e.later⟩) (by
        intro k hk
        obtain ⟨x, hx, rfl⟩ := List.mem_map.mp hk
        exact hfound x hx) rfl rfl
      refine ⟨{ q₁ with types := types, iMsgTypeCount := q₁.iMsgTypeCount + 1 }, types.tail, _,
        ?_, ⟨hsame.msgs, hsame.sem, hsame.count⟩, ⟨hholds, ?_, ?_⟩, ?_, ?_⟩
      · simp [msgTypeFind, hfind, hmem, msgTypeLinkListTailInsert, hins]
      · simpa using hcounted
      · simp [h₁.length]
      · rw [hholds.tail, lastOr_concat]
        exact ⟨⟨t, 0, 0, e.later⟩, by simp, rfl⟩
      · rw [hholds.tail, lastOr_concat]
        simp
    · refine ⟨q₁, none, is₁, ?_, hsame, h₁, hfound, fun _ => by simpa using hmem⟩
      simp [msgTypeFind, hfind, hmem]

/-! ## One call -/

variable {ms : List Msg}

theorem countOf_append (ms : List Msg) (t : Int) (d : List UInt8) (u : Int) :
    countOf (ms ++ [⟨t, d⟩]) u = countOf ms u + if u = t then 1 else 0 := by
  rw [countOf, countP_append, ← countOf, countP_singleton]
  congr 1
  simp [eq_comm]

theorem countOf_takeOldest {m : Msg} {ms' : List Msg} (h : takeOldest t ms = some (m, ms'))
    (u : Int) : countOf ms u = countOf ms' u + if u = m.iMsgType then 1 else 0 := by
  have hperm : ms.Perm (m :: ms') := by
    unfold takeOldest at h
    split at h
    · cases ms with
      | nil => simp at h
      | cons x xs =>
        simp only [some.injEq, Prod.mk.injEq] at h
        obtain ⟨rfl, rfl⟩ := h
        exact List.Perm.refl _
    · obtain ⟨x, hx, heq⟩ := map_eq_some_iff.mp h
      simp only [Prod.mk.injEq] at heq
      obtain ⟨rfl, rfl⟩ := heq
      exact perm_eraseP hx
  rw [countOf, hperm.countP_eq, countP_cons, ← countOf]
  simp [eq_comm]

theorem Stands.push {q : MsgQueue} (h : Stands q ms) (e : Env) (t : Int) (d : List UInt8) :
    ∃ q' r ms', msgQueuePush e t d q = some (q', r) ∧
      SeqStep ms (.push e t d) (.pushed r) ms' ∧ Stands q' ms' := by
  by_cases hbad : t < 0 ∨ d.length ≤ 0
  · refine ⟨q, .paraErr, ms, if_pos hbad, .pushInvalid ?_, h⟩
    simpa using hbad
  have ht : 0 ≤ t := by omega
  have hd : d ≠ [] := by
    rintro rfl
    simp at hbad
  obtain ⟨is, htypes⟩ := h.types
  obtain ⟨q₁, r, is₁, hfind, hsame, h₁, hfound, hmem⟩ := htypes.find e t
  have hstands₁ : Stands q₁ ms :=
    ⟨by rw [hsame.msgs]; exact h.msgs, by rw [hsame.sem, h.sem], by rw [hsame.count, h.count],
      is₁, h₁⟩
  cases r with
  | none =>
    refine ⟨q₁, .generalErr, ms, ?_, .pushNoMemory ht hd (.inl ⟨hmem rfl, rfl⟩), hstands₁⟩
    rw [msgQueuePush, if_neg hbad, hfind]
    rfl
  | some p =>
    by_cases hroom : e.msgMem = true
    case neg =>
      refine ⟨q₁, .queuePushErr, ms, ?_,
        .pushNoMemory ht hd (.inr ⟨by simpa using hroom, rfl⟩), hstands₁⟩
      rw [msgQueuePush, if_neg hbad, hfind]
      simp [hroom]
    case pos =>
      obtain ⟨xs, hxs, rfl⟩ := hstands₁.msgs
      obtain ⟨msgs, hins, -, hholds⟩ := hxs.tailInsert ⟨t, d⟩
      let q₂ : MsgQueue := { q₁ with msgs := msgs, iMsgCount := q₁.iMsgCount + 1 }
      have h₂ : TypesCount (countOf (xs.map Prod.snd)) q₂ is₁ :=
        ⟨h₁.holds, h₁.counted, h₁.length⟩
      obtain ⟨i, hi, rfl⟩ := hfound
      have hi' : i ∈ is₁.map Prod.snd := List.mem_map_of_mem hi
      have hcount := countOf_append (xs.map Prod.snd) i.iMsgType d
      obtain ⟨q₃, is₃, hset, hsame₃, h₃, -⟩ :=
        h₂.setType (fun i => { i with iCount := i.iCount + 1, sem := i.sem + 1 })
          (countOf (xs.map Prod.snd ++ [⟨i.iMsgType, d⟩])) hi rfl
          (by simp [hcount, h₁.counted.sem i hi']) (by simp [hcount, h₁.counted.count i hi'])
          (fun u hu => by simp [hcount, hu])
      refine ⟨{ q₃ with sem := q₃.sem + 1 }, .noErr, xs.map Prod.snd ++ [⟨i.iMsgType, d⟩], ?_,
        .pushed ht hd, ⟨⟨xs ++ [(q₁.msgs.fresh, ⟨i.iMsgType, d⟩)], ?_, ?_⟩, ?_, ?_,
          is₃, h₃.holds, h₃.counted, h₃.length⟩⟩
      · rw [msgQueuePush, if_neg hbad, hfind]
        have hset' : setType p (fun i => { i with iCount := i.iCount + 1, sem := i.sem + 1 })
          { q₁ with msgs := msgs, iMsgCount := q₁.iMsgCount + 1 } = some q₃ := hset
        simp [hroom, msgLinkListTailInsert, hins, hset']
      · rw [hsame₃.msgs]
        exact hholds
      · simp
      · simp [hsame₃.sem, q₂, hstands₁.sem]
      · simp [hsame₃.count, q₂, hstands₁.count]

theorem data_eq {α : Type} {l : DoubleList α} {xs : List (Nat × α)} {x : α} (h : l.Holds xs)
    (hp : (p, x) ∈ xs) : l.data p = some x := by
  obtain ⟨as, bs, rfl⟩ := append_of_mem hp
  simp [data, h.heap_eq]

theorem Counted.eq_zero (h : Counted c (is.map Prod.snd)) (hfound : Found t is none) : c t = 0 := by
  by_contra hne
  obtain ⟨i, hi, rfl⟩ := h.covered t hne
  obtain ⟨x, hx, rfl⟩ := List.mem_map.mp hi
  exact hfound x hx rfl

theorem takeOldest_eq_none (ht : t ≠ -1) : takeOldest t ms = none ↔ countOf ms t = 0 := by
  simp [takeOldest, ht, countOf, countP_eq_zero]

theorem Stands.popAny {q : MsgQueue} (h : Stands q ms) (e : Env) {n : Int} (hn : 0 < n) :
    ∃ q' r ms', msgQueuePop e (-1) n q = some (q', r) ∧
      SeqStep ms (.pop e (-1) n) (.popped r) ms' ∧ Stands q' ms' := by
  have hargs : ¬ n ≤ 0 := by omega
  obtain ⟨xs, hxs, rfl⟩ := h.msgs
  cases xs with
  | nil =>
    refine ⟨q, .error .generalErr, [], ?_, .popNone (by omega) hn rfl, h⟩
    have hsem : q.sem = 0 := h.sem
    simp [msgQueuePop, hargs, hsem]
  | cons x xs =>
    obtain ⟨p, m⟩ := x
    have hsem : q.sem = xs.length + 1 := by simpa using h.sem
    have hhead : q.msgs.head = some p := hxs.head
    have hdata : q.msgs.data p = some m := data_eq hxs (by simp)
    have hxs' : q.msgs.Holds ([] ++ (p, m) :: xs) := hxs
    obtain ⟨msgs, hdel, -, hholds⟩ := hxs'.del
    obtain ⟨is, htypes⟩ := h.types
    have htake : takeOldest (-1) (m :: xs.map Prod.snd) = some (m, xs.map Prod.snd) := rfl
    have hcount := countOf_takeOldest htake
    have h₁ : TypesCount (countOf (m :: xs.map Prod.snd))
        { q with sem := q.sem - 1, msgs := msgs, iMsgCount := q.iMsgCount - 1 } is :=
      ⟨htypes.holds, htypes.counted, htypes.length⟩
    obtain ⟨q₂, r, is₂, hfind, hsame₂, h₂, hfound, -⟩ := h₁.find e m.iMsgType
    cases r with
    | none =>
      have hzero := h₂.counted.eq_zero hfound
      simp [hcount] at hzero
    | some i =>
      obtain ⟨j, hj, hjt⟩ := hfound
      have hj' : j ∈ is₂.map Prod.snd := List.mem_map_of_mem hj
      obtain ⟨q₃, is₃, hset, hsame₃, h₃, -⟩ :=
        h₂.setType (fun i => { i with sem := i.sem - 1, iCount := i.iCount - 1 })
          (countOf (xs.map Prod.snd)) hj rfl
          (by simp [h₂.counted.sem j hj', hcount, hjt])
          (by simp [h₂.counted.count j hj', hcount, hjt])
          (fun u hu => by simp [hcount, ← hjt, hu])
      refine ⟨q₃, .ok (copyOut n m), xs.map Prod.snd, ?_, .popped (by omega) hn htake,
        ⟨xs, ?_, rfl⟩, ?_, ?_, is₃, h₃⟩
      · have hne : q.sem ≠ 0 := by omega
        simp [msgQueuePop, hargs, hne, hhead, hdata, msgLinkListDel, hdel, hfind, hset]
      · rw [hsame₃.msgs, hsame₂.msgs]
        exact hholds
      · simp [hsame₃.sem, hsame₂.sem, hsem]
      · simp [hsame₃.count, hsame₂.count, h.count]

theorem Stands.popType {q : MsgQueue} (h : Stands q ms) (e : Env) {n : Int} (ht : 0 ≤ t)
    (hn : 0 < n) :
    ∃ q' r ms', msgQueuePop e t n q = some (q', r) ∧
      SeqStep ms (.pop e t n) (.popped r) ms' ∧ Stands q' ms' := by
  have hargs : ¬ (t < -1 ∨ n ≤ 0) := by omega
  have hany : t ≠ -1 := by omega
  have hge : -1 ≤ t := by omega
  obtain ⟨is, htypes⟩ := h.types
  obtain ⟨q₁, r, is₁, hfind, hsame, h₁, hfound, -⟩ := htypes.find e t
  have hstands₁ : Stands q₁ ms :=
    ⟨by rw [hsame.msgs]; exact h.msgs, by rw [hsame.sem, h.sem], by rw [hsame.count, h.count],
      is₁, h₁⟩
  cases r with
  | none =>
    have hnone := (takeOldest_eq_none hany).mpr (h₁.counted.eq_zero hfound)
    refine ⟨q₁, .error .generalErr, ms, ?_, .popNone hge hn hnone, hstands₁⟩
    simp [msgQueuePop, hargs, hany, hfind]
  | some p =>
    obtain ⟨i, hi, hit⟩ := hfound
    have hi' : i ∈ is₁.map Prod.snd := List.mem_map_of_mem hi
    have hdata : q₁.types.data p = some i := data_eq h₁.holds hi
    have hsem : i.sem = countOf ms t := by rw [h₁.counted.sem i hi', hit]
    by_cases hzero : i.sem = 0
    case pos =>
      have hnone := (takeOldest_eq_none hany).mpr (hsem ▸ hzero)
      refine ⟨q₁, .error .generalErr, ms, ?_, .popNone hge hn hnone, hstands₁⟩
      simp [msgQueuePop, hargs, hany, hfind, hdata, hzero]
    case neg =>
      obtain ⟨xs, hxs, rfl⟩ := hstands₁.msgs
      -- there is a message of the type, and the walk stops at the first
      obtain ⟨⟨k, m⟩, hk⟩ : ∃ x, xs.find? (fun x => decide (x.2.iMsgType = t)) = some x := by
        rw [← isSome_iff_exists, find?_isSome]
        by_contra hno
        have hcount : countOf (xs.map Prod.snd) t = 0 := by
          rw [countOf, countP_eq_zero]
          rintro m hm
          obtain ⟨x, hx, rfl⟩ := List.mem_map.mp hm
          exact fun heq => hno ⟨x, hx, heq⟩
        exact hzero (hsem.trans hcount)
      obtain ⟨hmt, as, bs, rfl, has⟩ := find?_eq_some_iff_append.mp hk
      have hmt : m.iMsgType = t := by simpa using hmt
      obtain ⟨msgs, hdel, -, hholds⟩ := hxs.del
      have hfindMsg : q₁.msgs.find (fun m => decide (m.iMsgType = t)) = some (some k) := by
        rw [hxs.find, hk]
        rfl
      have hdataMsg : q₁.msgs.data k = some m := data_eq hxs (by simp)
      have htake : takeOldest t ((as ++ (k, m) :: bs).map Prod.snd) =
          some (m, (as ++ bs).map Prod.snd) := by
        have hnot : ∀ x ∈ as, ¬ (decide (x.2.iMsgType = t)) = true := by
          intro x hx
          simpa using has x hx
        unfold takeOldest
        rw [if_neg hany, find?_map, eraseP_map]
        have hcomp : ((fun m : Msg => decide (m.iMsgType = t)) ∘ Prod.snd) =
            fun x : Nat × Msg => decide (x.2.iMsgType = t) := rfl
        rw [hcomp, hk, eraseP_append_right _ hnot, eraseP_cons_of_pos (by simp [hmt])]
        rfl
      have hcount := countOf_takeOldest htake
      -- the entry is written to twice, its semaphore before the walk and its count after
      obtain ⟨A, B, rfl⟩ := append_of_mem hi
      obtain ⟨types₂, hmod₂, -, hholds₂⟩ :=
        h₁.holds.modify fun i => { i with sem := i.sem - 1 }
      obtain ⟨types₃, hmod₃, -, hholds₃⟩ :=
        hholds₂.modify fun i => { i with iCount := i.iCount - 1 }
      have hcounted : Counted (countOf ((as ++ bs).map Prod.snd))
          ((A ++ (p, { i with sem := i.sem - 1, iCount := i.iCount - 1 }) :: B).map
            Prod.snd) := by
        have hmap (j : TypeInfo) : (A ++ (p, j) :: B).map Prod.snd =
            A.map Prod.snd ++ j :: B.map Prod.snd := map_append
        have hold := h₁.counted
        rw [hmap] at hold ⊢
        refine hold.replace (j := { i with sem := i.sem - 1, iCount := i.iCount - 1 }) rfl ?_ ?_
          fun u hu => ?_
        · have hc := hcount t
          rw [if_pos hmt.symm] at hc
          change i.sem - 1 = countOf _ i.iMsgType
          rw [hit]
          omega
        · have hc := hcount t
          have hi := h₁.counted.count i hi'
          rw [if_pos hmt.symm] at hc
          change i.iCount - 1 = countOf _ i.iMsgType
          rw [hit] at hi ⊢
          omega
        · have hc := hcount u
          rw [hmt, if_neg (hit ▸ hu)] at hc
          exact hc.symm
      refine ⟨{ q₁ with msgs := msgs, types := types₃, iMsgCount := q₁.iMsgCount - 1,
                        sem := q₁.sem - 1 }, .ok (copyOut n m), (as ++ bs).map Prod.snd, ?_,
        .popped hge hn htake, ⟨as ++ bs, hholds, rfl⟩, ?_, ?_,
        ⟨_, hholds₃, hcounted, by simpa using h₁.length⟩⟩
      · simp [msgQueuePop, hargs, hany, hfind, hdata, hzero, setType, hmod₂, hfindMsg, hdataMsg,
          msgLinkListDel, hdel, hmod₃]
      · simp [hstands₁.sem]
      · have hc := hstands₁.count
        simp only [length_map, length_append, length_cons] at hc ⊢
        omega

/-! ## Every run -/

theorem stands_new : Stands newMsgQueue [] where
  msgs := ⟨[], holds_empty, rfl⟩
  sem := rfl
  count := rfl
  types := ⟨[], holds_empty, ⟨nodup_nil, by simp, by simp, by simp [countOf]⟩, rfl⟩

theorem Stands.step {q : MsgQueue} (h : Stands q ms) (op : Op) :
    ∃ q' out ms', step q op = some (q', [(op, out)]) ∧ SeqStep ms op out ms' ∧ Stands q' ms' := by
  cases op with
  | push e t d =>
    obtain ⟨q', r, ms', hpush, hseq, hstands⟩ := h.push e t d
    exact ⟨q', .pushed r, ms', by simp [MsgQueue.step, hpush], hseq, hstands⟩
  | pop e t n =>
    obtain ⟨q', r, ms', hpop, hseq, hstands⟩ :
        ∃ q' r ms', msgQueuePop e t n q = some (q', r) ∧
          SeqStep ms (.pop e t n) (.popped r) ms' ∧ Stands q' ms' := by
      by_cases hbad : t < -1 ∨ n ≤ 0
      · exact ⟨q, .error .paraErr, ms, if_pos hbad, .popInvalid hbad, h⟩
      · have hn : 0 < n := by omega
        by_cases hany : t = -1
        · subst hany
          exact h.popAny e hn
        · exact h.popType e (by omega) hn
    exact ⟨q', .popped r, ms', by simp [MsgQueue.step, hpop], hseq, hstands⟩

/-- Every run of calls returns.  Its log can be followed through a sequence of messages that
pushes append to and pops take the oldest from, and the queue it ends in stands for that
sequence: the counts and semaphores are the numbers of its messages. -/
theorem msgQueue_refines (ops : List Op) :
    ∃ q log ms, Run.run step newMsgQueue ops = some (q, log) ∧ log.map Prod.fst = ops ∧
      SeqRun [] log ms ∧ Stands q ms := by
  induction ops using List.reverseRecOn with
  | nil => exact ⟨newMsgQueue, [], [], rfl, rfl, .nil, stands_new⟩
  | append_singleton ops op ih =>
    obtain ⟨q, log, ms, hrun, hlog, hseq, hstands⟩ := ih
    obtain ⟨q', out, ms', hstep, hs, hstands'⟩ := hstands.step op
    exact ⟨q', log ++ [(op, out)], ms', Run.run_snoc.mpr ⟨q, log, _, hrun, hstep, rfl⟩,
      by simp [hlog], hseq.snoc hs, hstands'⟩

end Honyar.MsgQueue
