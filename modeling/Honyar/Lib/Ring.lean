import Mathlib.Data.List.Nodup
import Mathlib.Data.List.Perm.Subperm
import Mathlib.Logic.Function.Basic
import Mathlib.Tactic.Common

/-!
# Rings

A circular list of blocks that point at each other, closed by a block without an
item.  The memory is split by fields; a block with an item may be touched, and so
may the one that closes the ring.  A block that was given back has no item, and
its address is not given out again.  `Holds` says which items, at which addresses,
a ring stands for, and one rule for each operation says what it does to them.
-/

namespace Honyar

open List Function

/-- A ring: its pointers and items by address, the block that closes it, its last
block, the number of its items and the first address not given out yet. -/
structure Ring (α : Type) where
  next : Nat → Nat
  prev : Nat → Nat
  data : Nat → Option α
  head : Nat
  tail : Nat
  num : Nat
  fresh : Nat

namespace Ring

variable {α : Type}

/-! ## The operations -/

def empty : Ring α where
  next _ := 0
  prev _ := 0
  data _ := none
  head := 0
  tail := 0
  num := 0
  fresh := 1

/-- The block may be touched. -/
def Live (l : Ring α) (p : Nat) : Prop := p = l.head ∨ (l.data p).isSome

instance (l : Ring α) (p : Nat) : Decidable (l.Live p) := inferInstanceAs (Decidable (_ ∨ _))

/-- A new block for an item, behind another. -/
def inst (l : Ring α) (p : Nat) (x : α) : Option (Ring α) :=
  if l.Live p ∧ l.Live (l.next p) then
    some {
      next := Function.update (Function.update l.next l.fresh (l.next p)) p l.fresh
      prev := Function.update (Function.update l.prev l.fresh p) (l.next p) l.fresh
      data := Function.update l.data l.fresh (some x)
      head := l.head
      tail := if l.tail = p then l.fresh else l.tail
      num := l.num + 1
      fresh := l.fresh + 1 }
  else none

/-- A block is taken out and given back; the one that closes the ring stays. -/
def del (l : Ring α) (p : Nat) : Option (Ring α) :=
  if p = l.head then some l
  else if l.Live p ∧ l.Live (l.prev p) ∧ l.Live (l.next p) then
    let next := Function.update l.next (l.prev p) (l.next p)
    let prev := Function.update l.prev (next p) (l.prev p)
    some { l with
      next := next
      prev := prev
      data := Function.update l.data p none
      tail := if p = l.tail then prev p else l.tail
      num := l.num - 1 }
  else none

/-! ## The items of a ring -/

/-- The blocks between two others are linked in their order. -/
def Linked (next prev : Nat → Nat) : Nat → List Nat → Nat → Prop
  | u, [], v => next u = v ∧ prev v = u
  | u, p :: ps, v => (next u = p ∧ prev p = u) ∧ Linked next prev p ps v

/-- The ring is well formed and stands for the items, given with their
addresses. -/
structure Holds (l : Ring α) (xs : List (Nat × α)) : Prop where
  nodup : (l.head :: xs.map Prod.fst).Nodup
  linked : Linked l.next l.prev l.head (xs.map Prod.fst) l.head
  tail : l.tail = l.prev l.head
  data : ∀ q ∈ xs, l.data q.1 = some q.2
  only : ∀ p, p ∉ xs.map Prod.fst → l.data p = none
  num : l.num = xs.length
  lt : ∀ p ∈ l.head :: xs.map Prod.fst, p < l.fresh

section Linked

variable {next prev next' prev' : Nat → Nat} {u v p : Nat} {as bs : List Nat}

theorem linked_append :
    Linked next prev u (as ++ p :: bs) v ↔
      Linked next prev u as p ∧ Linked next prev p bs v := by
  induction as generalizing u with
  | nil => exact Iff.rfl
  | cons a as ih =>
    rw [cons_append, Linked, Linked, ih]
    exact and_assoc.symm

/-- The block before the end is one of the blocks, and it leads there. -/
theorem Linked.prev_mem (h : Linked next prev u as v) : prev v ∈ u :: as := by
  induction as generalizing u with
  | nil => exact mem_singleton.mpr h.2
  | cons a as ih => exact mem_cons_of_mem _ (ih h.2)

theorem Linked.next_prev (h : Linked next prev u as v) : next (prev v) = v := by
  induction as generalizing u with
  | nil => rw [h.2, h.1]
  | cons a as ih => exact ih h.2

theorem Linked.next_eq (h : Linked next prev u as v) : next u = as.headD v := by
  cases as with
  | nil => exact h.1
  | cons a as => exact h.1.1

/-- Only the blocks of the list matter. -/
theorem Linked.congr (h : Linked next prev u as v) (hnext : ∀ a ∈ u :: as, next' a = next a)
    (hprev : ∀ a ∈ as, prev' a = prev a) (hend : prev' v = prev v) :
    Linked next' prev' u as v := by
  induction as generalizing u with
  | nil => exact ⟨(hnext u mem_cons_self).trans h.1, hend.trans h.2⟩
  | cons a as ih =>
    obtain ⟨hu, hnext⟩ := forall_mem_cons.mp hnext
    obtain ⟨ha, hprev⟩ := forall_mem_cons.mp hprev
    exact ⟨⟨hu.trans h.1.1, ha.trans h.1.2⟩, ih h.2 hnext hprev⟩

/-- The last block is led to another end. -/
theorem Linked.redirect (h : Linked next prev u as v) (hnodup : (u :: as).Nodup)
    (hnext : next' (prev v) = p) (hprev : prev' p = prev v)
    (hsame : ∀ a ∈ u :: as, a ≠ prev v → next' a = next a)
    (hsame' : ∀ a ∈ as, prev' a = prev a) : Linked next' prev' u as p := by
  induction as generalizing u with
  | nil =>
    rw [h.2] at hnext hprev
    exact ⟨hnext, hprev⟩
  | cons a as ih =>
    obtain ⟨hu, hnodup⟩ := nodup_cons.mp hnodup
    obtain ⟨hsameu, hsame⟩ := forall_mem_cons.mp hsame
    obtain ⟨hsamea, hsame'⟩ := forall_mem_cons.mp hsame'
    have hne : u ≠ prev v := fun heq => hu (heq ▸ h.2.prev_mem)
    exact ⟨⟨(hsameu hne).trans h.1.1, hsamea.trans h.1.2⟩, ih h.2 hnodup hsame hsame'⟩

/-- The blocks on either side of a place point at each other. -/
theorem Linked.around (h : Linked next prev u (as ++ bs) v) :
    next (as.getLastD u) = bs.headD v ∧ prev (bs.headD v) = as.getLastD u := by
  induction as generalizing u with
  | nil =>
    cases bs with
    | nil => exact h
    | cons b bs => exact h.1
  | cons a as ih =>
    rw [getLastD_cons]
    exact ih h.2

/-- A block linked in before the end. -/
theorem Linked.insert_end (h : Linked next prev u as v) (hnodup : (u :: as).Nodup)
    (hv : v ∉ as) (hp : p ∉ u :: as) (hpv : p ≠ v) :
    Linked (Function.update (Function.update next p v) (prev v) p)
      (Function.update (Function.update prev p (prev v)) v p) u (as ++ [p]) v := by
  have hlast : prev v ≠ p := fun heq => hp (heq ▸ h.prev_mem)
  refine linked_append.mpr ⟨h.redirect hnodup ?_ ?_ ?_ ?_, ?_, ?_⟩
  · exact update_self ..
  · rw [update_of_ne hpv, update_self]
  · intro a ha hne
    rw [update_of_ne hne, update_of_ne (ne_of_mem_of_not_mem ha hp)]
  · intro a ha
    rw [update_of_ne (ne_of_mem_of_not_mem ha hv),
      update_of_ne (ne_of_mem_of_not_mem (mem_cons_of_mem _ ha) hp)]
  · rw [update_of_ne hlast.symm, update_self]
  · exact update_self ..

/-- A block linked in between two others. -/
theorem Linked.insert (h : Linked next prev u (as ++ bs) v) (hnodup : (u :: (as ++ bs)).Nodup)
    (hv : v ∉ as ++ bs) (hp : p ∉ u :: (as ++ bs)) (hpv : p ≠ v) :
    Linked (Function.update (Function.update next p (bs.headD v)) (as.getLastD u) p)
      (Function.update (Function.update prev p (as.getLastD u)) (bs.headD v) p) u
      (as ++ p :: bs) v := by
  rw [← h.around.2]
  rw [mem_append, not_or] at hv
  rw [← cons_append, mem_append, not_or] at hp
  obtain ⟨hbefore, hbehind, hapart⟩ := nodup_append.mp (cons_append ▸ hnodup)
  cases bs with
  | nil => exact (append_nil as ▸ h).insert_end hbefore hv.1 hp.1 hpv
  | cons r bs =>
    obtain ⟨hleft, hright⟩ := linked_append.mp h
    obtain ⟨hpr, hpbs⟩ := ne_and_not_mem_of_not_mem_cons hp.2
    have hr : r ∉ as := fun hm => hapart r (mem_cons_of_mem _ hm) r mem_cons_self rfl
    rw [append_cons, headD_cons]
    refine linked_append.mpr ⟨hleft.insert_end hbefore hr hp.1 hpr,
      hright.congr (fun a ha => ?_) (fun a ha => ?_) ?_⟩
    · rw [update_of_ne (hapart _ hleft.prev_mem a ha).symm,
        update_of_ne (ne_of_mem_of_not_mem ha hp.2)]
    · rw [update_of_ne (ne_of_mem_of_not_mem ha (nodup_cons.mp hbehind).1),
        update_of_ne (ne_of_mem_of_not_mem ha hpbs)]
    · rw [update_of_ne (ne_of_mem_of_not_mem mem_cons_self hv.2).symm,
        update_of_ne hpv.symm]

/-- A block linked out. -/
theorem Linked.remove (h : Linked next prev u (as ++ p :: bs) v)
    (hnodup : (u :: (as ++ p :: bs)).Nodup) (hv : v ∉ as ++ p :: bs) :
    Linked (Function.update next (prev p) (next p)) (Function.update prev (next p) (prev p)) u
      (as ++ bs) v := by
  obtain ⟨hleft, hright⟩ := linked_append.mp h
  obtain ⟨hbefore, hbehind, hapart⟩ := nodup_append.mp (cons_append ▸ hnodup)
  rw [mem_append, not_or, mem_cons, not_or] at hv
  -- what stands before the block leads to what stands behind it
  have hredirect : next p ∉ as →
      Linked (update next (prev p) (next p)) (update prev (next p) (prev p)) u
        as (next p) := by
    intro hnot
    refine hleft.redirect hbefore (update_self ..) (update_self ..) ?_ ?_
    · exact fun a _ hne => update_of_ne hne _ _
    · exact fun a ha => update_of_ne (ne_of_mem_of_not_mem ha hnot) _ _
  cases bs with
  | nil =>
    rw [append_nil]
    have hend : next p = v := hright.1
    rw [hend] at hredirect ⊢
    exact hredirect hv.1
  | cons r bs =>
    obtain ⟨⟨hnext, -⟩, hrest⟩ := hright
    rw [hnext] at hredirect ⊢
    have hr : ∀ a ∈ u :: as, a ≠ r := fun a ha =>
      hapart a ha r (mem_cons_of_mem _ mem_cons_self)
    have hrbs : r ∉ bs := (nodup_cons.mp (nodup_cons.mp hbehind).2).1
    refine linked_append.mpr
      ⟨hredirect fun hmem => hr r (mem_cons_of_mem _ hmem) rfl, hrest.congr ?_ ?_ ?_⟩
    · intro a ha
      refine update_of_ne (fun heq => ?_) _ _
      exact hapart _ hleft.prev_mem a (mem_cons_of_mem _ ha) heq.symm
    · exact fun a ha => update_of_ne (ne_of_mem_of_not_mem ha hrbs) _ _
    · exact update_of_ne (ne_of_mem_of_not_mem mem_cons_self hv.2.2).symm _ _

end Linked

theorem holds_empty : Holds (empty : Ring α) [] where
  nodup := nodup_singleton 0
  linked := ⟨rfl, rfl⟩
  tail := rfl
  data _ h := nomatch h
  only _ _ := rfl
  num := rfl
  lt p hp := by
    rw [mem_singleton.mp hp]
    exact Nat.one_pos

namespace Holds

variable {l : Ring α} {xs as bs : List (Nat × α)} {p : Nat} {x : α}

/-- The blocks of the ring may be touched. -/
theorem live (h : Holds l xs) (hp : p ∈ l.head :: xs.map Prod.fst) : l.Live p := by
  rcases mem_cons.mp hp with rfl | hp
  · exact Or.inl rfl
  · obtain ⟨q, hq, rfl⟩ := mem_map.mp hp
    exact Or.inr (by rw [h.data q hq]; rfl)

/-- The first block, or the one that closes the ring. -/
theorem next_head (h : Holds l xs) : l.next l.head = (xs.map Prod.fst).headD l.head :=
  h.linked.next_eq

theorem next_eq (h : Holds l (as ++ (p, x) :: bs)) :
    l.next p = (bs.map Prod.fst).headD l.head := by
  have hlinked := h.linked
  rw [map_append, map_cons] at hlinked
  exact (linked_append.mp hlinked).2.next_eq

theorem data_eq (h : Holds l (as ++ (p, x) :: bs)) : l.data p = some x :=
  h.data (p, x) (mem_append_right _ mem_cons_self)

theorem ne_head (h : Holds l (as ++ (p, x) :: bs)) : p ≠ l.head := by
  rintro rfl
  exact (nodup_cons.mp h.nodup).1
    (mem_map.mpr ⟨(l.head, x), mem_append_right _ mem_cons_self, rfl⟩)

theorem headD_mem {u : Nat} {ps : List Nat} : ps.headD u ∈ u :: ps := by
  cases ps with
  | nil => exact mem_cons_self
  | cons p ps => exact mem_cons_of_mem _ mem_cons_self

theorem fresh_notMem (h : Holds l xs) : l.fresh ∉ l.head :: xs.map Prod.fst := fun hmem =>
  Nat.lt_irrefl _ (h.lt _ hmem)

theorem head_notMem (h : Holds l xs) : l.head ∉ xs.map Prod.fst := (nodup_cons.mp h.nodup).1

/-- An item put between two others. -/
theorem inst (h : Holds l (as ++ bs)) (x : α) :
    ∃ l', l.inst ((as.map Prod.fst).getLastD l.head) x = some l' ∧ l'.head = l.head ∧
      l'.fresh = l.fresh + 1 ∧ Holds l' (as ++ (l.fresh, x) :: bs) := by
  have hne : ∀ q ∈ l.head :: (as ++ bs).map Prod.fst, q ≠ l.fresh := fun q hq =>
    ne_of_mem_of_not_mem hq h.fresh_notMem
  have hlinked := h.linked
  have hnodup := h.nodup
  have hhead := h.head_notMem
  have hfresh := h.fresh_notMem
  rw [map_append] at hlinked hnodup hhead hfresh
  obtain ⟨hnext, hprev⟩ := hlinked.around
  have hinsert := hlinked.insert hnodup hhead hfresh (hne _ mem_cons_self).symm
  have hmem : ∀ a, a ∈ l.head :: as.map Prod.fst ∨ a ∈ l.head :: bs.map Prod.fst →
      l.Live a := fun a ha => h.live (by
    rw [map_append, ← cons_append, mem_append]
    simp only [mem_cons] at ha ⊢
    tauto)
  have hlive : l.Live ((as.map Prod.fst).getLastD l.head) ∧
      l.Live (l.next ((as.map Prod.fst).getLastD l.head)) :=
    ⟨hmem _ (.inl getLastD_mem_cons), hmem _ (.inr (hnext ▸ headD_mem))⟩
  have hperm : ((as ++ (l.fresh, x) :: bs).map Prod.fst).Perm
      (l.fresh :: (as ++ bs).map Prod.fst) := by
    rw [map_append, map_cons, map_append]
    exact perm_middle
  refine ⟨_, if_pos hlive, rfl, rfl, ?_, ?_, ?_, ?_, ?_, ?_, ?_⟩
  · rw [((hperm.cons l.head).trans (List.Perm.swap ..)).nodup_iff]
    exact nodup_cons.mpr ⟨h.fresh_notMem, h.nodup⟩
  · rw [map_append]
    exact hnext.symm ▸ hinsert
  · show (if l.tail = (as.map Prod.fst).getLastD l.head then l.fresh else l.tail) =
      update (update l.prev l.fresh _) (l.next _) l.fresh l.head
    rw [hnext, h.tail, ← hprev]
    -- the place is behind the last block exactly when the ring closes there
    by_cases hend : (bs.map Prod.fst).headD l.head = l.head
    · rw [hend, if_pos rfl, update_self]
    · have hlast : l.prev l.head ≠ l.prev ((bs.map Prod.fst).headD l.head) := by
        intro heq
        have hback := h.linked.next_prev
        rw [heq, hprev, hnext] at hback
        exact hend hback
      rw [if_neg hlast, update_of_ne (Ne.symm hend),
        update_of_ne (hne _ mem_cons_self)]
  · intro q hq
    rw [mem_append, mem_cons, or_left_comm, ← mem_append] at hq
    rcases hq with rfl | hq
    · exact update_self ..
    · have hqne := hne q.1 (mem_cons_of_mem _ (mem_map_of_mem hq))
      exact (update_of_ne hqne _ _).trans (h.data q hq)
  · intro q hq
    rw [hperm.mem_iff, mem_cons, not_or] at hq
    exact (update_of_ne hq.1 _ _).trans (h.only q hq.2)
  · rw [← length_map Prod.fst, hperm.length_eq, length_cons, length_map, ← h.num]
  · intro q hq
    rw [mem_cons, hperm.mem_iff, mem_cons, or_left_comm, ← mem_cons] at hq
    rcases hq with rfl | hq
    · exact Nat.lt_succ_self _
    · exact Nat.lt_succ_of_lt (h.lt q hq)

theorem tail_eq (h : Holds l xs) : l.tail = (xs.map Prod.fst).getLastD l.head := by
  have hlinked : Linked l.next l.prev l.head (xs.map Prod.fst ++ []) l.head := by
    rw [append_nil]
    exact h.linked
  exact h.tail.trans hlinked.around.2

/-- An item put at the end. -/
theorem inst_tail (h : Holds l xs) (x : α) :
    ∃ l', l.inst l.tail x = some l' ∧ l'.head = l.head ∧ l'.fresh = l.fresh + 1 ∧
      Holds l' (xs ++ [(l.fresh, x)]) := by
  rw [h.tail_eq]
  exact inst ((append_nil xs).symm ▸ h) x

/-- An item is taken out. -/
theorem del (h : Holds l (as ++ (p, x) :: bs)) :
    ∃ l', l.del p = some l' ∧ l'.head = l.head ∧ l'.fresh = l.fresh ∧ Holds l' (as ++ bs) := by
  have hmap : (as ++ (p, x) :: bs).map Prod.fst = as.map Prod.fst ++ p :: bs.map Prod.fst := by
    rw [map_append]
    rfl
  have hnodup := h.nodup
  have hlinked := h.linked
  have hhead := h.head_notMem
  rw [hmap] at hnodup hlinked hhead
  obtain ⟨hleft, hright⟩ := linked_append.mp hlinked
  obtain ⟨hbefore, hbehind, hapart⟩ := nodup_append.mp (cons_append ▸ hnodup)
  obtain ⟨hp, hbs⟩ := nodup_cons.mp hbehind
  have hsub : ∀ a, a ∈ l.head :: as.map Prod.fst ∨ a ∈ bs.map Prod.fst →
      a ∈ l.head :: (as ++ (p, x) :: bs).map Prod.fst := by
    intro a ha
    rw [hmap, ← cons_append, mem_append]
    exact ha.imp_right (mem_cons_of_mem _)
  have hpne : ∀ a, a ∈ l.head :: as.map Prod.fst ∨ a ∈ bs.map Prod.fst → a ≠ p := by
    rintro a (ha | ha) rfl
    · exact hapart a ha a mem_cons_self rfl
    · exact hp ha
  have hprev : l.prev p ∈ l.head :: as.map Prod.fst := hleft.prev_mem
  have hnext : l.next p ∈ l.head :: bs.map Prod.fst := h.next_eq ▸ headD_mem
  have hlive : l.Live p ∧ l.Live (l.prev p) ∧ l.Live (l.next p) := by
    refine ⟨Or.inr (by rw [h.data_eq]; rfl), h.live (hsub _ (Or.inl hprev)), h.live ?_⟩
    rcases mem_cons.mp hnext with heq | hmem
    · rw [heq]
      exact mem_cons_self
    · exact hsub _ (Or.inr hmem)
  have hnextp : update l.next (l.prev p) (l.next p) p = l.next p :=
    update_of_ne (hpne _ (Or.inl hprev)).symm _ _
  refine ⟨_, (if_neg h.ne_head).trans (if_pos hlive), rfl, rfl, ?_, ?_, ?_, ?_, ?_, ?_, ?_⟩
  · rw [map_append, ← cons_append, nodup_append]
    exact ⟨hbefore, hbs, fun a ha b hb => hapart a ha b (mem_cons_of_mem _ hb)⟩
  · rw [map_append]
    simp only [hnextp]
    exact hlinked.remove hnodup hhead
  · simp only [hnextp, h.tail]
    -- the last block has a new one before the end exactly when it is taken out
    by_cases hlast : p = l.prev l.head
    · have hend : l.next p = l.head := hlast ▸ hlinked.next_prev
      rw [if_pos hlast, hend, update_self, update_of_ne h.ne_head]
    · have hne : l.head ≠ l.next p := by
        intro heq
        rw [h.next_eq] at heq
        cases bs with
        | nil => exact hlast hright.2.symm
        | cons b bs =>
          exact hhead (heq ▸ mem_append_right _ (mem_cons_of_mem _ mem_cons_self))
      rw [if_neg hlast, update_of_ne hne]
  · intro q hq
    have hqp : q.1 ≠ p := by
      refine hpne _ ?_
      rcases mem_append.mp hq with hq | hq
      · exact Or.inl (mem_cons_of_mem _ (mem_map_of_mem hq))
      · exact Or.inr (mem_map_of_mem hq)
    refine (update_of_ne hqp _ _).trans (h.data q ?_)
    rw [mem_append] at hq ⊢
    exact hq.imp_right (mem_cons_of_mem _)
  · intro q hq
    show update l.data p none q = none
    by_cases hqp : q = p
    · rw [hqp, update_self]
    · rw [update_of_ne hqp]
      refine h.only q ?_
      rw [map_append, mem_append, not_or] at hq
      rw [hmap, mem_append, mem_cons]
      exact not_or.mpr ⟨hq.1, not_or.mpr ⟨hqp, hq.2⟩⟩
  · show l.num - 1 = _
    rw [h.num, length_append, length_append, length_cons]
    omega
  · intro q hq
    rw [map_append, ← cons_append, mem_append] at hq
    exact h.lt q (hsub q hq)

/-- No more blocks than addresses. -/
theorem length_le (h : Holds l xs) : xs.length ≤ l.fresh := by
  have hrange : xs.map Prod.fst ⊆ List.range l.fresh := fun p hp =>
    mem_range.mpr (h.lt p (mem_cons_of_mem _ hp))
  have hle := ((nodup_cons.mp h.nodup).2.subperm hrange).length_le
  rwa [length_map, length_range] at hle

end Holds

/-- The items of a ring, in order. -/
def Items (l : Ring α) (qs : List α) : Prop := ∃ xs, l.Holds xs ∧ xs.map Prod.snd = qs

theorem items_empty : (empty : Ring α).Items [] := ⟨[], holds_empty, rfl⟩

theorem Items.inst_tail {l : Ring α} {qs : List α} (h : l.Items qs) (x : α) :
    ∃ l', l.inst l.tail x = some l' ∧ l'.Items (qs ++ [x]) := by
  obtain ⟨xs, hxs, rfl⟩ := h
  obtain ⟨l', hl', -, -, hxs'⟩ := hxs.inst_tail x
  exact ⟨l', hl', _, hxs', map_append⟩

end Ring

end Honyar
