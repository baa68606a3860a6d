import Honyar.Lib.DoubleList

/-!
# Singly linked lists in memory

A list as blocks that point at the next one, with a head and a tail pointer.  A block that was
given back is gone, so touching it is no step.  `Holds` says which items such a structure stands
for; an item goes in behind the others, and the first one of a kind is looked for and taken out.
-/

namespace Honyar

open Option List Function

/-- The block of an item. -/
structure SingleNode (α : Type) where
  next : Option Nat
  data : α

/-- The blocks of one list, its two ends and the first address not given out yet. -/
structure SingleList (α : Type) where
  heap : Nat → Option (SingleNode α)
  head : Option Nat
  tail : Option Nat
  fresh : Nat

namespace SingleList

variable {α : Type}

/-! ## The operations -/

def empty : SingleList α := ⟨fun _ => none, none, none, 0⟩

/-- Writing to a block. -/
def write (l : SingleList α) (p : Nat) (f : SingleNode α → SingleNode α) :
    Option (SingleList α) :=
  (l.heap p).map fun n => { l with heap := Function.update l.heap p (some (f n)) }

/-- Giving a block back. -/
def free (l : SingleList α) (p : Nat) : Option (SingleList α) :=
  (l.heap p).map fun _ => { l with heap := Function.update l.heap p none }

/-- A new block for an item. -/
def alloc (l : SingleList α) (x : α) : SingleList α :=
  { l with heap := Function.update l.heap l.fresh (some ⟨none, x⟩), fresh := l.fresh + 1 }

/-- Putting an item behind the others. -/
def tailInsert (l : SingleList α) (x : α) : Option (SingleList α) :=
  let p := l.fresh
  let l' := l.alloc x
  match l.tail with
  | none => some { l' with head := some p, tail := some p }
  | some t => do
    let l' ← l'.write t fun n => { n with next := some p }
    return { l' with tail := some p }

/-- Looking behind a block for the first item of a kind and taking it out, in at most `n`
blocks. -/
def delBehind (f : α → Bool) : Nat → Nat → SingleList α → Option (SingleList α × Option α)
  | 0, _, _ => none
  | n + 1, p, l => do
    let c ← l.heap p
    match c.next with
    | none => return (l, none)
    | some q =>
      let d ← l.heap q
      if f d.data then
        let l' := if l.tail = some q then { l with tail := some p } else l
        let l' ← l'.write p fun m => { m with next := d.next }
        let l' ← l'.free q
        return (l', some d.data)
      else delBehind f n q l

/-- Taking out the first item of a kind. -/
def delFirst (f : α → Bool) (l : SingleList α) : Option (SingleList α × Option α) :=
  match l.head with
  | none => some (l, none)
  | some p => do
    let c ← l.heap p
    if f c.data then
      let l' := { l with head := c.next }
      let l' := if l.tail = some p then { l' with tail := none } else l'
      let l' ← l'.free p
      return (l', some c.data)
    else delBehind f l.fresh p l

/-- The items from a block on, in at most `n` blocks. -/
def itemsFrom : Nat → Option Nat → SingleList α → List α
  | _, none, _ => []
  | 0, some _, _ => []
  | n + 1, some p, l =>
    match l.heap p with
    | none => []
    | some c => c.data :: itemsFrom n c.next l

/-- The items in order. -/
def items (l : SingleList α) : List α := itemsFrom l.fresh l.head l

/-! ## The list that a structure stands for -/

open DoubleList (firstOr lastOr firstOr_append lastOr_append_cons lastOr_concat mem_of_lastOr)

/-- The blocks of `xs` are linked in their order, before `e`. -/
def Linked (heap : Nat → Option (SingleNode α)) : List (Nat × α) → Option Nat → Prop
  | [], _ => True
  | (p, x) :: xs, e => heap p = some ⟨firstOr e xs, x⟩ ∧ Linked heap xs e

/-- The structure is well formed and stands for `xs`, given with the addresses. -/
structure Holds (l : SingleList α) (xs : List (Nat × α)) : Prop where
  nodup : (xs.map Prod.fst).Nodup
  head : l.head = firstOr none xs
  tail : l.tail = lastOr none xs
  linked : Linked l.heap xs none
  lt : ∀ q ∈ xs, q.1 < l.fresh

variable {heap heap' : Nat → Option (SingleNode α)} {xs ys as bs : List (Nat × α)}
  {l : SingleList α} {e : Option Nat} {p q : Nat} {x y : α}

theorem linked_append :
    Linked heap (xs ++ ys) e ↔ Linked heap xs (firstOr e ys) ∧ Linked heap ys e := by
  induction xs with
  | nil => simp [Linked]
  | cons n xs ih => simp [Linked, ih, and_assoc]

/-- Only the blocks of the list matter. -/
theorem Linked.congr (h : Linked heap xs e) (heq : ∀ p ∈ xs.map Prod.fst, heap' p = heap p) :
    Linked heap' xs e := by
  induction xs with
  | nil => trivial
  | cons n xs ih =>
    obtain ⟨hn, hxs⟩ := h
    rw [map_cons, forall_mem_cons] at heq
    exact ⟨heq.1.trans hn, ih hxs heq.2⟩

/-- Where a block is in a list without repetitions, it is nowhere else. -/
theorem notMem_of_nodup (h : ((as ++ (p, x) :: bs).map Prod.fst).Nodup) :
    p ∉ as.map Prod.fst ∧ p ∉ bs.map Prod.fst := by
  rw [map_append, map_cons] at h
  obtain ⟨-, hbs, hdisj⟩ := nodup_append.mp h
  exact ⟨fun hp => hdisj p hp p mem_cons_self rfl, (nodup_cons.mp hbs).1⟩

/-- A pointer to the last block, put right where that block is given up. -/
theorem lastOr_ite (z : Option Nat) (h : p ∉ bs.map Prod.fst) :
    (if lastOr none (as ++ (p, x) :: bs) = some p then z
      else lastOr none (as ++ (p, x) :: bs)) = lastOr z bs := by
  rw [lastOr_append_cons]
  cases bs with
  | nil => exact if_pos rfl
  | cons b bs =>
    refine if_neg fun heq => h ?_
    rw [DoubleList.lastOr_cons] at heq
    rcases mem_of_lastOr heq with heq | hmem
    · rw [map_cons, some.inj heq]
      exact mem_cons_self
    · exact mem_cons_of_mem _ hmem

namespace Holds

theorem empty : Holds (SingleList.empty : SingleList α) [] :=
  ⟨nodup_nil, rfl, rfl, trivial, by simp⟩

theorem heap_eq (h : l.Holds (as ++ (p, x) :: bs)) : l.heap p = some ⟨firstOr none bs, x⟩ :=
  (linked_append.mp h.linked).2.1

theorem fresh_notMem (h : l.Holds xs) : l.fresh ∉ xs.map Prod.fst := by
  intro hm
  obtain ⟨n, hn, heq⟩ := List.mem_map.mp hm
  exact absurd heq (Nat.ne_of_lt (h.lt n hn))

/-- A stretch of a list gives way to one item or to none, and the block before it points on. -/
theorem splice {l' : SingleList α} {ms : List (Nat × α)} {u : Option (Nat × α)}
    (h : l.Holds (as ++ (ms ++ bs))) (hfresh : l.fresh ≤ l'.fresh)
    (hu : ∀ r ∈ u, r.1 < l'.fresh ∧ r.1 ∉ (as ++ bs).map Prod.fst ∧
      l'.heap r.1 = some ⟨firstOr none bs, r.2⟩)
    (hhead : l'.head = firstOr none (as ++ (u.toList ++ bs)))
    (htail : l'.tail = lastOr none (as ++ (u.toList ++ bs)))
    (hheap : ∀ q ∈ (as ++ bs).map Prod.fst, l'.heap q = (l.heap q).map fun c =>
      if lastOr none as = some q then { c with next := firstOr none (u.toList ++ bs) } else c) :
    l'.Holds (as ++ (u.toList ++ bs)) := by
  have hsub : (as ++ bs).Sublist (as ++ (ms ++ bs)) :=
    (List.Sublist.refl as).append (sublist_append_right ms bs)
  have hnd : ((as ++ bs).map Prod.fst).Nodup := h.nodup.sublist (hsub.map _)
  have hsame : ∀ q ∈ (as ++ bs).map Prod.fst, lastOr none as ≠ some q →
      l'.heap q = l.heap q := by
    intro q hq hne
    rw [hheap q hq]
    simp [hne]
  obtain ⟨hleft, hright⟩ := linked_append.mp h.linked
  obtain ⟨-, hright⟩ := linked_append.mp hright
  have hdisj := hnd
  rw [map_append, nodup_append] at hdisj
  refine ⟨?_, hhead, htail, linked_append.mpr ⟨?_, linked_append.mpr ⟨?_, ?_⟩⟩, ?_⟩
  · cases u with
    | none => exact hnd
    | some r =>
      rw [toList_some, singleton_append, map_append, map_cons,
        nodup_middle, ← map_append]
      exact nodup_cons.mpr ⟨(hu r rfl).2.1, hnd⟩
  · rcases as.eq_nil_or_concat with rfl | ⟨ys, ⟨t, y⟩, rfl⟩
    · trivial
    · rw [concat_eq_append] at *
      obtain ⟨hys, ht, -⟩ := linked_append.mp hleft
      refine linked_append.mpr ⟨hys.congr fun q hq => hsame q (by simp [hq]) ?_, ?_, trivial⟩
      · rw [lastOr_concat]
        rintro ⟨⟩
        have hys : ((ys ++ (t, y) :: []).map Prod.fst).Nodup := hdisj.1
        exact (notMem_of_nodup hys).1 hq
      · rw [hheap t (by simp), ht, lastOr_concat, map_some, if_pos rfl]
        rfl
  · cases u with
    | none => trivial
    | some r => exact ⟨(hu r rfl).2.2, trivial⟩
  · refine hright.congr fun q hq => hsame q (by simp [hq]) fun heq => ?_
    exact hdisj.2.2 q ((mem_of_lastOr heq).resolve_left nofun) q hq rfl
  · intro n hn
    rw [mem_append, mem_append, or_left_comm, ← mem_append] at hn
    rcases hn with hn | hn
    · exact (hu n (by simpa using hn)).1
    · exact Nat.lt_of_lt_of_le (h.lt n (hsub.subset hn)) hfresh

/-- An item put behind the others stands behind them. -/
theorem tailInsert (h : l.Holds xs) (x : α) :
    ∃ l', l.tailInsert x = some l' ∧ l'.Holds (xs ++ [(l.fresh, x)]) := by
  have hfresh := h.fresh_notMem
  have h₀ : l.Holds (xs ++ ([] ++ [])) := by simpa using h
  have hself : (l.alloc x).heap l.fresh = some ⟨none, x⟩ := update_self ..
  have hother : ∀ q, q ≠ l.fresh → (l.alloc x).heap q = l.heap q := fun q hq =>
    update_of_ne hq ..
  rcases xs.eq_nil_or_concat with rfl | ⟨ys, ⟨t, y⟩, rfl⟩
  · refine ⟨{ l.alloc x with head := some l.fresh, tail := some l.fresh }, ?_,
      h₀.splice (u := some (l.fresh, x)) (Nat.le_succ _) ?_ rfl rfl nofun⟩
    · rw [SingleList.tailInsert, h.tail]
      rfl
    · rintro _ ⟨⟩
      exact ⟨Nat.lt_succ_self _, not_mem_nil, hself⟩
  · -- the last block points at the new one
    rw [concat_eq_append] at *
    have hne : t ≠ l.fresh := fun heq => hfresh (by simp [heq])
    have ht : l.heap t = some ⟨none, y⟩ := h.heap_eq
    refine ⟨{ l.alloc x with
      heap := update (l.alloc x).heap t (some ⟨some l.fresh, y⟩),
      tail := some l.fresh }, ?_,
      h₀.splice (u := some (l.fresh, x)) (Nat.le_succ _) ?_ ?_ (lastOr_concat ..).symm ?_⟩
    · rw [SingleList.tailInsert, h.tail, lastOr_concat]
      simp only [write, hother t hne, ht, map_some]
      rfl
    · rintro _ ⟨⟩
      refine ⟨Nat.lt_succ_self _, by simpa using hfresh, ?_⟩
      exact (update_of_ne hne.symm ..).trans hself
    · show l.head = _
      rw [h.head, firstOr_append, firstOr_append, firstOr_append]
      rfl
    · intro q hq
      rw [lastOr_concat]
      by_cases hqt : q = t
      · subst hqt
        simp [ht]
      · have hqf : q ≠ l.fresh := fun heq => hfresh (by simpa [heq] using hq)
        refine ((update_of_ne hqt ..).trans (hother q hqf)).trans ?_
        simp [Ne.symm hqt]

/-- Taking a block out from behind another one, which may become the last. -/
theorem cut (h : l.Holds (as ++ (p, x) :: (q, y) :: bs)) :
    ∃ l₁ l', (if l.tail = some q then { l with tail := some p } else l).write p
        (fun m => { m with next := firstOr none bs }) = some l₁ ∧
      l₁.free q = some l' ∧ l'.Holds (as ++ (p, x) :: bs) := by
  have hsplit : as ++ (p, x) :: (q, y) :: bs = (as ++ [(p, x)]) ++ ([(q, y)] ++ bs) := by simp
  have h' := hsplit ▸ h
  have hp : l.heap p = some ⟨some q, x⟩ := h.heap_eq
  have hq : l.heap q = some ⟨firstOr none bs, y⟩ := h'.heap_eq
  obtain ⟨hqas, hqbs⟩ := notMem_of_nodup h'.nodup
  have hpq : p ≠ q := fun heq => hqas (by simp [heq])
  have htail : (if l.tail = some q then some p else l.tail) = lastOr (some p) bs := by
    rw [h'.tail]
    exact lastOr_ite _ hqbs
  refine ⟨⟨Function.update l.heap p (some ⟨firstOr none bs, x⟩), l.head,
      if l.tail = some q then some p else l.tail, l.fresh⟩,
    ⟨Function.update (Function.update l.heap p (some ⟨firstOr none bs, x⟩)) q none, l.head,
      if l.tail = some q then some p else l.tail, l.fresh⟩, ?_, ?_, ?_⟩
  · split <;> simp [write, hp]
  · simp [free, Function.update_of_ne hpq.symm, hq]
  · have hcut : as ++ (p, x) :: bs = (as ++ [(p, x)]) ++ (none.toList ++ bs) := by simp
    rw [hcut]
    refine h'.splice (Nat.le_refl _) nofun (h.head.trans ?_) (htail.trans ?_) ?_
    · simp
    · simp
    · intro r hr
      have hrq : r ≠ q := by
        rintro rfl
        rw [map_append, mem_append] at hr
        exact hr.elim hqas hqbs
      rw [lastOr_concat]
      by_cases hrp : r = p
      · subst hrp
        simp [hp, hrq]
      · simp [hrp, hrq, Ne.symm hrp]

/-- The first of a kind behind a block is taken out, if there is one. -/
theorem delBehind {f : α → Bool} {n : Nat} (h : l.Holds (as ++ (p, x) :: bs))
    (hn : bs.length < n) :
    (∀ z ∈ bs, f z.2 = false) ∧ l.delBehind f n p = some (l, none) ∨
      ∃ cs q y ds l', bs = cs ++ (q, y) :: ds ∧ (∀ z ∈ cs, f z.2 = false) ∧ f y = true ∧
        l.delBehind f n p = some (l', some y) ∧ l'.Holds (as ++ (p, x) :: (cs ++ ds)) := by
  induction bs generalizing as p x n with
  | nil =>
    obtain ⟨n, rfl⟩ := Nat.exists_eq_succ_of_ne_zero (Nat.ne_zero_of_lt hn)
    refine .inl ⟨by simp, ?_⟩
    rw [SingleList.delBehind, h.heap_eq]
    rfl
  | cons b bs ih =>
    obtain ⟨q, y⟩ := b
    obtain ⟨n, rfl⟩ := Nat.exists_eq_succ_of_ne_zero (Nat.ne_zero_of_lt hn)
    have hsplit : as ++ (p, x) :: (q, y) :: bs = (as ++ [(p, x)]) ++ (q, y) :: bs := by simp
    have h' := hsplit ▸ h
    have hp : l.heap p = some ⟨some q, x⟩ := h.heap_eq
    have hq : l.heap q = some ⟨firstOr none bs, y⟩ := h'.heap_eq
    simp only [SingleList.delBehind, hp, hq, bind_eq_bind, bind_some]
    by_cases hf : f y = true
    · obtain ⟨l₁, l', hwrite, hfree, hholds⟩ := h.cut
      refine .inr ⟨[], q, y, bs, l', rfl, by simp, hf, ?_, hholds⟩
      rw [if_pos hf, hwrite, bind_some, hfree]
      rfl
    · have hf' : f y = false := Bool.eq_false_iff.mpr hf
      rw [if_neg hf]
      rcases ih h' (Nat.lt_of_succ_lt_succ hn) with ⟨hall, hdel⟩ | hfound
      · exact .inl ⟨forall_mem_cons.mpr ⟨hf', hall⟩, hdel⟩
      · obtain ⟨cs, r, z, ds, l', rfl, hcs, hz, hdel, hholds⟩ := hfound
        refine .inr ⟨(q, y) :: cs, r, z, ds, l', rfl, forall_mem_cons.mpr ⟨hf', hcs⟩, hz,
          hdel, ?_⟩
        rw [append_assoc] at hholds
        exact hholds

/-- A list has no more blocks than were ever given out. -/
theorem length_le (h : l.Holds xs) : xs.length ≤ l.fresh := by
  have hsub : xs.map Prod.fst ⊆ List.range l.fresh := by
    intro p hp
    obtain ⟨n, hn, rfl⟩ := List.mem_map.mp hp
    exact mem_range.mpr (h.lt n hn)
  have hle := (h.nodup.subperm hsub).length_le
  rwa [length_map, length_range] at hle

/-- The first of a kind is taken out, if there is one. -/
theorem delFirst (f : α → Bool) (h : l.Holds xs) :
    (∀ z ∈ xs, f z.2 = false) ∧ l.delFirst f = some (l, none) ∨
      ∃ as q y bs l', xs = as ++ (q, y) :: bs ∧ (∀ z ∈ as, f z.2 = false) ∧ f y = true ∧
        l.delFirst f = some (l', some y) ∧ l'.Holds (as ++ bs) := by
  cases xs with
  | nil =>
    refine .inl ⟨by simp, ?_⟩
    rw [SingleList.delFirst, h.head]
    rfl
  | cons n xs =>
    obtain ⟨p, x⟩ := n
    have h₀ : l.Holds ([] ++ (p, x) :: xs) := h
    have hp : l.heap p = some ⟨firstOr none xs, x⟩ := h₀.heap_eq
    simp only [SingleList.delFirst, h.head, DoubleList.firstOr_cons, hp, bind_eq_bind,
      bind_some]
    by_cases hf : f x = true
    · obtain ⟨-, hpxs⟩ := notMem_of_nodup h₀.nodup
      have htail : (if l.tail = some p then none else l.tail) = lastOr none xs := by
        rw [h₀.tail]
        exact lastOr_ite none hpxs
      have h₁ : l.Holds ([] ++ ([(p, x)] ++ xs)) := h
      refine .inr ⟨[], p, x, xs, ⟨Function.update l.heap p none, firstOr none xs,
        if l.tail = some p then none else l.tail, l.fresh⟩, rfl, by simp, hf, ?_,
        h₁.splice (u := none) (Nat.le_refl _) nofun rfl htail fun r hr => ?_⟩
      · rw [if_pos hf]
        split <;> simp [free, hp]
      · have hrp : r ≠ p := fun heq => hpxs (heq ▸ hr)
        simp [hrp]
    · have hf' : f x = false := Bool.eq_false_iff.mpr hf
      rw [if_neg hf]
      rcases h₀.delBehind (f := f) (n := l.fresh) h.length_le with ⟨hall, hdel⟩ | hfound
      · exact .inl ⟨forall_mem_cons.mpr ⟨hf', hall⟩, hdel⟩
      · obtain ⟨cs, r, z, ds, l', rfl, hcs, hz, hdel, hholds⟩ := hfound
        exact .inr ⟨(p, x) :: cs, r, z, ds, l', rfl, forall_mem_cons.mpr ⟨hf', hcs⟩, hz,
          hdel, hholds⟩

theorem itemsFrom_eq {n : Nat} (h : Linked l.heap xs none) (hn : xs.length ≤ n) :
    itemsFrom n (firstOr none xs) l = xs.map Prod.snd := by
  induction xs generalizing n with
  | nil => cases n <;> rfl
  | cons m xs ih =>
    obtain ⟨p, x⟩ := m
    obtain ⟨n, rfl⟩ := Nat.exists_eq_succ_of_ne_zero (Nat.ne_zero_of_lt hn)
    rw [DoubleList.firstOr_cons, itemsFrom, h.1, map_cons]
    exact congrArg (x :: ·) (ih h.2 (Nat.le_of_succ_le_succ hn))

theorem items_eq (h : l.Holds xs) : l.items = xs.map Prod.snd := by
  rw [items, h.head, itemsFrom_eq h.linked h.length_le]

end Holds

/-- The structure is well formed. -/
def Wf (l : SingleList α) : Prop := ∃ xs, l.Holds xs

namespace Wf

theorem empty : Wf (SingleList.empty : SingleList α) := ⟨[], Holds.empty⟩

/-- An item goes in behind the others. -/
theorem tailInsert (h : l.Wf) (x : α) :
    ∃ l', l.tailInsert x = some l' ∧ l'.Wf ∧ l'.items = l.items ++ [x] := by
  obtain ⟨xs, hxs⟩ := h
  obtain ⟨l', hins, hl'⟩ := hxs.tailInsert x
  exact ⟨l', hins, ⟨_, hl'⟩, by rw [hl'.items_eq, hxs.items_eq, map_append]; rfl⟩

/-- The first item of a kind goes, or there is none. -/
theorem delFirst (h : l.Wf) (f : α → Bool) :
    (∀ z ∈ l.items, f z = false) ∧ l.delFirst f = some (l, none) ∨
      ∃ as y bs l', l.items = as ++ y :: bs ∧ (∀ z ∈ as, f z = false) ∧ f y = true ∧
        l.delFirst f = some (l', some y) ∧ l'.Wf ∧ l'.items = as ++ bs := by
  obtain ⟨xs, hxs⟩ := h
  rw [hxs.items_eq]
  rcases hxs.delFirst f with ⟨hall, hdel⟩ | ⟨as, q, y, bs, l', rfl, has, hy, hdel, hl'⟩
  · exact .inl ⟨List.forall_mem_map.mpr hall, hdel⟩
  · refine .inr ⟨as.map Prod.snd, y, bs.map Prod.snd, l', by rw [map_append]; rfl,
      List.forall_mem_map.mpr has, hy, hdel, ⟨_, hl'⟩, ?_⟩
    rw [hl'.items_eq, map_append]

end Wf

end SingleList

end Honyar
