import Honyar.Lib.DoubleList

/-!
# Chains in a memory with other chains

A doubly linked chain without a record of its own: blocks that point at each other, in a memory
where other chains have theirs, and a pointer to the first one.  The last one is found by
walking.  A block that was given back is gone, so touching it is no step.  `IsChain` says which
items a chain has, and there is one rule for each operation; what an operation leaves of the
memory besides the blocks of its chain is said with it.
-/

namespace Honyar.Chain

open DoubleList (Linked firstOr lastOr)
open Option List Function DoubleList

variable {α β : Type}

/-! ## The operations -/

/-- The last block from one on, among at most as many as given. -/
def lastFrom (heap : Heap α) : Nat → Nat → Option Nat
  | 0, _ => none
  | n + 1, p => do
    let c ← heap p
    match c.next with
    | none => return p
    | some q => lastFrom heap n q

/-- Putting a new block behind the others: the memory, and the pointer to the first. -/
def link (heap : Heap α) (n : Nat) (head : Option Nat) (p : Nat) :
    Option (Heap α × Option Nat) :=
  match head with
  | none => some (heap, some p)
  | some q => do
    let t ← lastFrom heap n q
    let c ← heap t
    let heap ← write heap p fun m => { m with next := c.next, prev := some t }
    let heap ← write heap t fun m => { m with next := some p }
    return (heap, head)

/-- Taking a block out: the first one, the last one, or one in between. -/
def unlink (heap : Heap α) (head : Option Nat) (p : Nat) : Option (Heap α × Option Nat) := do
  let c ← heap p
  match c.prev, c.next with
  | none, none => return (← free heap p, none)
  | none, some q => do
    let heap ← write heap q fun m => { m with prev := none }
    return (← free heap p, some q)
  | some q, none => do
    let heap ← write heap q fun m => { m with next := none }
    return (← free heap p, head)
  | some q, some r => do
    let heap ← write heap r fun m => { m with prev := some q }
    let heap ← write heap q fun m => { m with next := some r }
    return (← free heap p, head)

/-- Passing over the blocks from one on, with a result that is built from their items. -/
def foldFrom (heap : Heap α) (f : β → α → β) : Nat → Option Nat → β → Option β
  | _, none, b => some b
  | 0, some _, _ => none
  | n + 1, some p, b => do
    let c ← heap p
    foldFrom heap f n c.next (f b c.data)

/-- Giving back the blocks from one on, with a result that is built from their items. -/
def freeFrom (f : β → α → β) : Nat → Option Nat → Heap α → β → Option (Heap α × β)
  | _, none, heap, b => some (heap, b)
  | 0, some _, _, _ => none
  | n + 1, some p, heap, b => do
    let c ← heap p
    let heap ← free heap p
    freeFrom f n c.next heap (f b c.data)

/-- Writing to the items from one on. -/
def mapFrom (f : α → α) : Nat → Option Nat → Heap α → Option (Heap α)
  | _, none, heap => some heap
  | 0, some _, _ => none
  | n + 1, some p, heap => do
    let c ← heap p
    let heap ← write heap p fun m => { m with data := f m.data }
    mapFrom f n c.next heap

/-! ## The items of a chain -/

/-- The chain from `head` has the items `xs`, given with the addresses. -/
structure IsChain (heap : Heap α) (head : Option Nat) (xs : List (Nat × α)) : Prop where
  nodup : (xs.map Prod.fst).Nodup
  head : head = firstOr none xs
  linked : Linked heap none xs none

variable {heap heap' : Heap α} {head head' : Option Nat} {xs as bs : List (Nat × α)}
variable {p q : Nat} {x y : α} {n : Nat}

theorem isChain_nil : IsChain heap none [] := ⟨nodup_nil, rfl, trivial⟩

/-- A block is taken out by writing to its neighbours. -/
theorem unlink_eq {c : DoubleNode α} (h : heap p = some c) :
    unlink heap head p = (writeTo heap c.next fun m => { m with prev := c.prev }).bind fun heap =>
      (writeTo heap c.prev fun m => { m with next := c.next }).bind fun heap =>
        (free heap p).map fun heap => (heap, if c.prev = none then c.next else head) := by
  obtain ⟨next, prev, data⟩ := c
  cases prev <;> cases next <;>
    simp [unlink, h, writeTo, map_eq_bind, comp_def]

namespace IsChain

/-- Other blocks may be written. -/
theorem congr (h : IsChain heap head xs) (heq : ∀ p ∈ xs.map Prod.fst, heap' p = heap p) :
    IsChain heap' head xs :=
  ⟨h.nodup, h.head, h.linked.congr heq⟩

/-- The block of an item, with its neighbours. -/
theorem heap_eq (h : IsChain heap head (as ++ (p, x) :: bs)) :
    heap p = some ⟨firstOr none bs, lastOr none as, x⟩ :=
  (linked_append.mp h.linked).2.1

/-- What is in a chain has a block. -/
theorem exists_eq (h : IsChain heap head xs) (hx : (p, x) ∈ xs) :
    ∃ c, heap p = some c ∧ c.data = x := by
  obtain ⟨as, bs, rfl⟩ := append_of_mem hx
  exact ⟨_, h.heap_eq, rfl⟩

/-- The addresses before and behind a block. -/
theorem ne_of_split (h : IsChain heap head (as ++ (p, x) :: bs)) :
    (∀ q ∈ as.map Prod.fst, q ≠ p) ∧ (∀ q ∈ bs.map Prod.fst, q ≠ p) ∧
      ∀ q ∈ as.map Prod.fst, q ∉ bs.map Prod.fst := by
  have hnd := h.nodup
  rw [map_append, map_cons, nodup_append] at hnd
  obtain ⟨-, hndB, hdisj⟩ := hnd
  refine ⟨fun q hq => hdisj q hq p mem_cons_self, fun q hq heq => ?_, fun q hq hqb => ?_⟩
  · exact (nodup_cons.mp hndB).1 (heq ▸ hq)
  · exact hdisj q hq q (mem_cons_of_mem _ hqb) rfl

/-- Walking finds the last block. -/
theorem lastFrom (h : IsChain heap head (as ++ [(p, x)])) (hn : as.length < n) :
    ∃ q, head = some q ∧ lastFrom heap n q = some p := by
  have hwalk : ∀ (n : Nat) (as : List (Nat × α)) (e : Option Nat), as.length < n →
      Linked heap e (as ++ [(p, x)]) none →
        ∃ q, firstOr none (as ++ [(p, x)]) = some q ∧ Chain.lastFrom heap n q = some p := by
    intro n as
    induction as generalizing n with
    | nil =>
      intro e hn hlinked
      obtain ⟨n, rfl⟩ := Nat.exists_eq_succ_of_ne_zero (Nat.ne_of_gt hn)
      refine ⟨p, rfl, ?_⟩
      have hp : heap p = some ⟨none, e, x⟩ := hlinked.1
      rw [Chain.lastFrom, hp]
      rfl
    | cons a as ih =>
      obtain ⟨a, y⟩ := a
      intro e hn hlinked
      obtain ⟨n, rfl⟩ := Nat.exists_eq_succ_of_ne_zero (Nat.ne_of_gt (Nat.zero_lt_of_lt hn))
      obtain ⟨ha, hrest⟩ : heap a = some ⟨firstOr none (as ++ [(p, x)]), e, y⟩ ∧
        Linked heap (some a) (as ++ [(p, x)]) none := hlinked
      obtain ⟨q, hq, hlast⟩ := ih n (some a) (Nat.lt_of_succ_lt_succ hn) hrest
      refine ⟨a, rfl, ?_⟩
      rw [Chain.lastFrom, ha, bind_eq_bind, bind_some, hq]
      exact hlast
  rw [h.head]
  exact hwalk n as none hn h.linked

/-- A new block behind the others. -/
theorem link {c : DoubleNode α} (h : IsChain heap head xs) (hn : xs.length ≤ n)
    (hp : heap p = some c) (hc : c.next = none ∧ c.prev = none ∧ c.data = x)
    (hnew : p ∉ xs.map Prod.fst) :
    ∃ heap' head', link heap n head p = some (heap', head') ∧
      IsChain heap' head' (xs ++ [(p, x)]) ∧
        ∀ q, q ≠ p → q ∉ xs.map Prod.fst → heap' q = heap q := by
  obtain ⟨next, prev, data⟩ := c
  obtain ⟨rfl, rfl, rfl⟩ : next = none ∧ prev = none ∧ data = x := hc
  have hnodup : ((xs ++ [(p, data)]).map Prod.fst).Nodup := by
    rw [map_append, nodup_append]
    refine ⟨h.nodup, nodup_singleton _, ?_⟩
    rintro q hq r hr rfl
    obtain rfl : q = p := by simpa using hr
    exact hnew hq
  rcases xs.eq_nil_or_concat with rfl | ⟨ys, ⟨t, y⟩, rfl⟩
  · have hhead : head = none := h.head
    subst hhead
    exact ⟨heap, some p, rfl, ⟨hnodup, rfl, hp, trivial⟩, fun _ _ _ => rfl⟩
  · rw [concat_eq_append] at *
    have hne : t ≠ p := fun heq => hnew (by simp [heq])
    obtain ⟨q, hq, hlast⟩ := h.lastFrom (n := n) (by simpa [Nat.succ_le_iff] using hn)
    have ht : heap t = some ⟨none, lastOr none ys, y⟩ := h.heap_eq
    have hlink : Chain.link heap n head p = some (update (update heap p
        (some ⟨none, some t, data⟩)) t (some ⟨some p, lastOr none ys, y⟩), head) := by
      have ht' : update heap p (some ⟨none, some t, data⟩) t =
          some ⟨none, lastOr none ys, y⟩ := by
        rw [update_of_ne hne, ht]
      subst hq
      simp only [Chain.link, hlast, ht, bind_eq_bind, bind_some, write_of_eq hp,
        write_of_eq ht', Option.pure_def]
    have h₀ : Linked heap none (ys ++ [(t, y)] ++ ([] ++ [])) none := by simpa using h.linked
    refine ⟨_, _, hlink, ⟨hnodup, ?_, h₀.splice (u := [(p, data)]) ?_ (fun _ _ => ⟨nofun, nofun⟩)
      (fun r hr => ?_) ⟨?_, trivial⟩⟩, fun r hrp hr => ?_⟩
    · simp [h.head]
    · simpa using h.nodup
    · -- the last block points on
      have hrp : r ≠ p := by
        rintro rfl
        exact hnew (by simpa using hr)
      rw [lastOr_concat]
      by_cases hrt : r = t
      · subst hrt
        simp [ht, relinked]
      · have hrt' : some t ≠ some r := fun heq => hrt (some.inj heq).symm
        refine Eq.trans ?_ (relinked_of_ne hrt' (some_ne_none r).symm _).symm
        simp [hrp, hrt]
    · rw [update_of_ne hne.symm, update_self, lastOr_concat]
      rfl
    · rw [update_of_ne (fun heq => hr (by simp [heq])), update_of_ne hrp]

/-- A block is taken out, wherever it is. -/
theorem unlink (h : IsChain heap head (as ++ (p, x) :: bs)) :
    ∃ heap' head', unlink heap head p = some (heap', head') ∧ IsChain heap' head' (as ++ bs) ∧
      ∀ q, q ∉ (as ++ (p, x) :: bs).map Prod.fst → heap' q = heap q := by
  have hp := h.heap_eq
  obtain ⟨hA, hB, -⟩ := h.ne_of_split
  have hlastMem : ∀ q, lastOr none as = some q → q ∈ as.map Prod.fst := fun q heq =>
    (mem_of_lastOr heq).resolve_left nofun
  have hfirstMem : ∀ q, firstOr none bs = some q → q ∈ bs.map Prod.fst := fun q heq =>
    (mem_of_firstOr heq).resolve_left nofun
  obtain ⟨heap', -, hrelink, hheap⟩ := @relink α heap (lastOr none as)
    (firstOr none bs) (firstOr none bs) (lastOr none as)
    (fun q hq => h.linked.exists_of_mem (by simpa using Or.inl (hlastMem q hq)))
    fun q hq => h.linked.exists_of_mem (by simpa using Or.inr (Or.inr (hfirstMem q hq)))
  have hp' : heap' p = heap p := (hheap p).trans (relinked_of_ne
    (fun heq => hA p (hlastMem p heq) rfl) (fun heq => hB p (hfirstMem p heq) rfl) _)
  have hunlink : Chain.unlink heap head p = some (update heap' p none,
      if lastOr none as = none then firstOr none bs else head) := by
    rw [unlink_eq hp, ← bind_assoc, hrelink, bind_some, free_of_eq (hp'.trans hp),
      map_some]
  have h₀ : Linked heap none (as ++ ([(p, x)] ++ bs)) none := h.linked
  have hnodup : ((as ++ bs).map Prod.fst).Nodup :=
    ((sublist_cons_self _ _).append_left as |>.map Prod.fst).nodup h.nodup
  refine ⟨_, _, hunlink, ⟨hnodup, ?_, h₀.splice (u := []) hnodup (fun _ _ => ⟨nofun, nofun⟩)
    (fun q hq => ?_) trivial⟩, fun q hq => ?_⟩
  · rw [h.head]
    cases as with
    | nil => rfl
    | cons a as => exact if_neg fun heq => cons_ne_nil _ _ (lastOr_eq_none.mp heq)
  · have hqp : q ≠ p := by
      rw [map_append, mem_append] at hq
      exact hq.elim (hA q) (hB q)
    exact (update_of_ne hqp _ _).trans (hheap q)
  · rw [map_append, map_cons, mem_append, mem_cons, not_or, not_or] at hq
    rw [update_of_ne hq.2.1, hheap, relinked_of_ne (fun heq => hq.1 (hlastMem q heq))
      fun heq => hq.2.2 (hfirstMem q heq)]

/-- Writing to an item changes it where it stands. -/
theorem modify (h : IsChain heap head (as ++ (p, x) :: bs)) (f : α → α) :
    ∃ heap', write heap p (fun c => { c with data := f c.data }) = some heap' ∧
      IsChain heap' head (as ++ (p, f x) :: bs) ∧ ∀ q, q ≠ p → heap' q = heap q := by
  refine ⟨_, write_of_eq h.heap_eq _, ⟨?_, ?_, ?_⟩, fun q hq => update_of_ne hq _ _⟩
  · have hkeys : (as ++ (p, f x) :: bs).map Prod.fst = (as ++ (p, x) :: bs).map Prod.fst := by
      simp
    rw [hkeys]
    exact h.nodup
  · rw [h.head, firstOr_append, firstOr_append]
    rfl
  · exact h.linked.modify h.nodup (update_self ..) fun q hq =>
      update_of_ne hq _ _

/-- Every item is met, in the order of the chain. -/
theorem foldFrom (h : IsChain heap head xs) (hn : xs.length ≤ n) (f : β → α → β) (b : β) :
    foldFrom heap f n head b = some (xs.foldl (fun b q => f b q.2) b) := by
  have hwalk : ∀ (n : Nat) (xs : List (Nat × α)) (e : Option Nat) (b : β), xs.length ≤ n →
      Linked heap e xs none →
        Chain.foldFrom heap f n (firstOr none xs) b = some (xs.foldl (fun b q => f b q.2) b) := by
    intro n xs
    induction xs generalizing n with
    | nil =>
      intro e b _ _
      cases n <;> rfl
    | cons x xs ih =>
      obtain ⟨p, x⟩ := x
      intro e b hn hlinked
      obtain ⟨n, rfl⟩ := Nat.exists_eq_succ_of_ne_zero (Nat.ne_of_gt (Nat.zero_lt_of_lt hn))
      rw [firstOr_cons, Chain.foldFrom, hlinked.1, bind_eq_bind,
        bind_some]
      exact ih n (some p) _ (Nat.le_of_succ_le_succ hn) hlinked.2
  rw [h.head]
  exact hwalk n xs none b hn h.linked

/-- The items from one on are changed where they stand. -/
theorem mapFrom (h : IsChain heap head (as ++ bs)) (hn : bs.length ≤ n) (f : α → α) :
    ∃ heap', mapFrom f n (firstOr none bs) heap = some heap' ∧
      IsChain heap' head (as ++ bs.map fun q => (q.1, f q.2)) ∧
        ∀ q, q ∉ bs.map Prod.fst → heap' q = heap q := by
  induction bs generalizing heap as n with
  | nil => exact ⟨heap, by cases n <;> rfl, h, fun _ _ => rfl⟩
  | cons b bs ih =>
    obtain ⟨p, x⟩ := b
    obtain ⟨n, rfl⟩ := Nat.exists_eq_succ_of_ne_zero (Nat.ne_of_gt (Nat.zero_lt_of_lt hn))
    obtain ⟨heap₁, hwrite, h₁, hframe₁⟩ := h.modify f
    rw [← singleton_append, ← append_assoc] at h₁
    obtain ⟨heap', hmap, h', hframe⟩ := ih h₁ (Nat.le_of_succ_le_succ hn)
    refine ⟨heap', ?_, ?_, fun q hq => ?_⟩
    · rw [firstOr_cons, Chain.mapFrom, h.heap_eq, bind_eq_bind,
        bind_some, hwrite]
      exact hmap
    · rwa [append_assoc, singleton_append] at h'
    · rw [map_cons, mem_cons, not_or] at hq
      rw [hframe q hq.2, hframe₁ q hq.1]

/-- Every block of the chain is given back. -/
theorem freeFrom (h : IsChain heap head xs) (hn : xs.length ≤ n) (f : β → α → β) (b : β) :
    ∃ heap', freeFrom f n head heap b = some (heap', xs.foldl (fun b q => f b q.2) b) ∧
      ∀ q, q ∉ xs.map Prod.fst → heap' q = heap q := by
  have hwalk : ∀ (n : Nat) (xs : List (Nat × α)) (e : Option Nat) (heap : Heap α) (b : β),
      xs.length ≤ n → (xs.map Prod.fst).Nodup → Linked heap e xs none →
        ∃ heap', Chain.freeFrom f n (firstOr none xs) heap b =
            some (heap', xs.foldl (fun b q => f b q.2) b) ∧
          ∀ q, q ∉ xs.map Prod.fst → heap' q = heap q := by
    intro n xs
    induction xs generalizing n with
    | nil =>
      intro e heap b _ _ _
      exact ⟨heap, by cases n <;> rfl, fun _ _ => rfl⟩
    | cons x xs ih =>
      obtain ⟨p, x⟩ := x
      intro e heap b hn hnodup hlinked
      obtain ⟨n, rfl⟩ := Nat.exists_eq_succ_of_ne_zero (Nat.ne_of_gt (Nat.zero_lt_of_lt hn))
      obtain ⟨hp, hrest⟩ := hlinked
      rw [map_cons, nodup_cons] at hnodup
      have hother : ∀ q, q ≠ p → update heap p none q = heap q := fun q hq =>
        update_of_ne hq _ _
      obtain ⟨heap', hfree, hframe⟩ := ih n (some p) _ (f b x) (Nat.le_of_succ_le_succ hn)
        hnodup.2 (hrest.congr fun q hq => hother q fun heq => hnodup.1 (heq ▸ hq))
      refine ⟨heap', ?_, fun q hq => ?_⟩
      · rw [firstOr_cons, Chain.freeFrom, hp, bind_eq_bind, bind_some,
          free_of_eq hp]
        exact hfree
      · rw [map_cons, mem_cons, not_or] at hq
        rw [hframe q hq.2, hother q hq.1]
  rw [h.head]
  exact hwalk n xs none heap b hn h.nodup h.linked

end IsChain

theorem freeFrom_none (f : β → α → β) (b : β) : freeFrom f n none heap b = some (heap, b) := by
  cases n <;> rfl

/-! ## Blocks that are gone -/

/-- A block that is gone is not passed over. -/
theorem foldFrom_of_gone (hp : heap p = none) (f : β → α → β) (b : β) :
    foldFrom heap f n (some p) b = none := by
  cases n with
  | zero => rfl
  | succ n =>
    rw [foldFrom, hp]
    rfl

/-- What is gone stays so. -/
theorem freeFrom_of_gone {f : β → α → β} {b b' : β} (hp : heap p = none)
    (h : freeFrom f n head heap b = some (heap', b')) : heap' p = none := by
  induction n generalizing head heap b with
  | zero =>
    cases head with
    | none =>
      rw [freeFrom_none] at h
      obtain ⟨rfl, -⟩ := Prod.mk.inj (some.inj h)
      exact hp
    | some q => cases h
  | succ n ih =>
    cases head with
    | none =>
      obtain ⟨rfl, -⟩ := Prod.mk.inj (some.inj h)
      exact hp
    | some q =>
      obtain ⟨c, hc, h⟩ := bind_eq_some_iff.mp h
      obtain ⟨heap₁, hfree, h⟩ := bind_eq_some_iff.mp h
      rw [free_of_eq hc] at hfree
      obtain rfl := some.inj hfree
      refine ih ?_ h
      by_cases heq : p = q
      · rw [heq, update_self]
      · rw [update_of_ne heq, hp]

/-- The first block is gone once all were given back. -/
theorem freeFrom_head {f : β → α → β} {b b' : β}
    (h : freeFrom f n (some p) heap b = some (heap', b')) : heap' p = none := by
  cases n with
  | zero => cases h
  | succ n =>
    obtain ⟨c, hc, h⟩ := bind_eq_some_iff.mp h
    obtain ⟨heap₁, hfree, h⟩ := bind_eq_some_iff.mp h
    rw [free_of_eq hc] at hfree
    obtain rfl := some.inj hfree
    exact freeFrom_of_gone (update_self ..) h

end Honyar.Chain
