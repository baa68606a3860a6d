import Honyar.Lib.Ring
import Honyar.Lib.Run

/-!
# The lists of the scene engine

`scene_link_list.c`: a ring that its head closes, with a pointer to the last block and a counter.
On blocks of the list every call does what it does to the sequence of the items.
-/

namespace Honyar.LocalScene

open List

variable {α : Type}

section Calls

variable (l : Ring α)

/-- `link_list_get_first`. -/
def linkListFirst : Option Nat := if l.num = 0 then none else some (l.next l.head)

/-- `link_list_del`, and whether it returns `NoErr`: the head is refused, and so is `NULL`. -/
def linkListDel : Option Nat → Option (Ring α × Bool)
  | none => some (l, false)
  | some p => (l.del p).map fun l' => (l', decide (p ≠ l.head))

/-- `link_list_del_head`. -/
def linkListDelHead : Option (Ring α × Bool) := linkListDel l (linkListFirst l)

/-- `link_list_del_tail`. -/
def linkListDelTail : Option (Ring α × Bool) := linkListDel l (some l.tail)

/-- `link_list_set`: the new block goes behind the one before. -/
def linkListSet (pstCurrent : Nat) (x : α) : Option (Ring α) := do
  let pstPrev := l.prev pstCurrent
  let (l', _) ← linkListDel l (some pstCurrent)
  l'.inst pstPrev x

/-- The loop of `link_list_clear`, over at most `n` rounds. -/
def linkListClear : Nat → Ring α → Option (Ring α)
  | 0, _ => none
  | n + 1, l => do
    let (l', ok) ← linkListDelHead l
    if ok then linkListClear n l' else return l'

end Calls

/-- The calls that change a list; a block is given by its address. -/
inductive LinkOp (α : Type) where
  | instHead (x : α)
  | instTail (x : α)
  | inst (p : Nat) (x : α)
  | del (p : Nat)
  | delHead
  | delTail
  | set (p : Nat) (x : α)
  | clear

/-- A call, and whether it returns `NoErr`.  More rounds than addresses are not needed to clear. -/
def linkListStep (l : Ring α) : LinkOp α → Option (Ring α × List Bool)
  | .instHead x => (l.inst l.head x).map fun l' => (l', [true])
  | .instTail x => (l.inst l.tail x).map fun l' => (l', [true])
  | .inst p x => (l.inst p x).map fun l' => (l', [true])
  | .del p => (linkListDel l (some p)).map fun r => (r.1, [r.2])
  | .delHead => (linkListDelHead l).map fun r => (r.1, [r.2])
  | .delTail => (linkListDelTail l).map fun r => (r.1, [r.2])
  | .set p x => (linkListSet l p x).map fun l' => (l', [true])
  | .clear => (linkListClear (l.fresh + 1) l).map fun l' => (l', [true])

/-! ## The sequence -/

/-- The items with the addresses of their blocks, and the next address. -/
structure LinkSeq (α : Type) where
  elems : List (Nat × α)
  made : Nat
deriving DecidableEq

namespace LinkSeq

def Live (s : LinkSeq α) (p : Nat) : Prop := p ∈ s.elems.map Prod.fst

instance decidableLive (s : LinkSeq α) (p : Nat) : Decidable (s.Live p) :=
  inferInstanceAs (Decidable (_ ∈ _))

/-- Other items in the place of one. -/
def change (s : LinkSeq α) (p : Nat) (f : Nat × α → List (Nat × α)) : List (Nat × α) :=
  s.elems.flatMap fun y => if y.1 = p then f y else [y]

/-- The calls on a sequence.  Where there is nothing to take out an error is returned. -/
def step (s : LinkSeq α) : LinkOp α → Option (LinkSeq α × List Bool)
  | .instHead x => some (⟨(s.made, x) :: s.elems, s.made + 1⟩, [true])
  | .instTail x => some (⟨s.elems ++ [(s.made, x)], s.made + 1⟩, [true])
  | .inst p x =>
    if s.Live p then some (⟨s.change p fun y => [y, (s.made, x)], s.made + 1⟩, [true]) else none
  | .del p => if s.Live p then some (⟨s.change p fun _ => [], s.made⟩, [true]) else none
  | .delHead => some (⟨s.elems.tail, s.made⟩, [!s.elems.isEmpty])
  | .delTail => some (⟨s.elems.dropLast, s.made⟩, [!s.elems.isEmpty])
  | .set p x =>
    if s.Live p then some (⟨s.change p fun _ => [(s.made, x)], s.made + 1⟩, [true]) else none
  | .clear => some (⟨[], s.made⟩, [true])

end LinkSeq

/-- The blocks a way along the pointers leads past, up to the last one given. -/
def Visits (link : Nat → Nat) : Nat → List Nat → Nat → Prop
  | u, [], v => link u = v
  | u, p :: ps, v => link u = p ∧ Visits link p ps v

/-- Both ways around from the head lie the blocks of the items, which are there, and the counter
and the last block are those of the sequence. -/
structure RefinesSeq (l : Ring α) (xs : List (Nat × α)) : Prop where
  forwards : Visits l.next l.head (xs.map Prod.fst) l.head
  backwards : Visits l.prev l.head (xs.map Prod.fst).reverse l.head
  data : ∀ q ∈ xs, l.data q.1 = some q.2
  num : l.num = xs.length
  tail : l.tail = (xs.map Prod.fst).getLastD l.head

section Linked

variable {next prev : Nat → Nat} {u v p : Nat} {ps : List Nat}

theorem visits_of_linked (h : Ring.Linked next prev u ps v) : Visits next u ps v := by
  induction ps generalizing u with
  | nil => exact h.1
  | cons p ps ih => exact ⟨h.1.1, ih h.2⟩

theorem visits_concat {link : Nat → Nat} :
    Visits link u (ps ++ [p]) v ↔ Visits link u ps p ∧ link p = v := by
  induction ps generalizing u with
  | nil => exact Iff.rfl
  | cons q ps ih => rw [cons_append, Visits, Visits, ih, and_assoc]

theorem visits_back (h : Ring.Linked next prev u ps v) : Visits prev v ps.reverse u := by
  induction ps generalizing u with
  | nil => exact h.2
  | cons p ps ih =>
    rw [reverse_cons, visits_concat]
    exact ⟨ih h.2, h.1.2⟩

end Linked

variable {l : Ring α} {s s' : LinkSeq α} {xs as bs : List (Nat × α)} {p : Nat} {x y : α}
  {os : List Bool}

theorem LinkSeq.change_split {s : LinkSeq α} {f : Nat × α → List (Nat × α)}
    (h : (s.elems.map Prod.fst).Nodup) (heq : s.elems = as ++ (p, y) :: bs) :
    s.change p f = as ++ (f (p, y) ++ bs) := by
  rw [heq, map_append, map_cons, nodup_middle, nodup_cons] at h
  have hsame : ∀ zs : List (Nat × α), p ∉ zs.map Prod.fst →
      (zs.flatMap fun y => if y.1 = p then f y else [y]) = zs := by
    intro zs hp
    have hkept : ∀ z ∈ zs, (if z.1 = p then f z else [z]) = [z] := by
      intro z hz
      refine if_neg fun heq => hp ?_
      exact heq ▸ mem_map_of_mem hz
    exact (flatMap_congr hkept).trans (flatMap_singleton' zs)
  rw [mem_append, not_or] at h
  rw [change, heq, flatMap_append, flatMap_cons, hsame as h.1.1, hsame bs h.1.2]
  simp

/-- The ring is well formed and stands for the sequence. -/
structure Stands (l : Ring α) (s : LinkSeq α) : Prop where
  holds : l.Holds s.elems
  fresh : l.fresh = s.made

namespace Stands

theorem refines (h : Stands l s) : RefinesSeq l s.elems where
  forwards := visits_of_linked h.holds.linked
  backwards := visits_back h.holds.linked
  data := h.holds.data
  num := h.holds.num
  tail := h.holds.tail_eq

theorem split (h : Stands l s) (hp : s.Live p) :
    ∃ as y bs, s.elems = as ++ (p, y) :: bs ∧ l.Holds (as ++ (p, y) :: bs) ∧
      ∀ f, s.change p f = as ++ (f (p, y) ++ bs) := by
  obtain ⟨⟨p, y⟩, hy, rfl⟩ := mem_map.mp hp
  obtain ⟨as, bs, heq⟩ := append_of_mem hy
  exact ⟨as, y, bs, heq, heq ▸ h.holds, fun f =>
    LinkSeq.change_split (nodup_cons.mp h.holds.nodup).2 heq⟩

end Stands

theorem linkListDel_eq (h : l.Holds (as ++ (p, y) :: bs)) :
    ∃ l', linkListDel l (some p) = some (l', true) ∧ l'.head = l.head ∧ l'.fresh = l.fresh ∧
      l'.Holds (as ++ bs) := by
  obtain ⟨l', hdel, hhead, hfresh, hholds⟩ := h.del
  exact ⟨l', by rw [linkListDel, hdel, Option.map_some, decide_eq_true h.ne_head], hhead, hfresh,
    hholds⟩

theorem linkListDelHead_nil (h : l.Holds []) : linkListDelHead l = some (l, false) := by
  have hnum : l.num = 0 := h.num
  rw [linkListDelHead, linkListFirst, if_pos hnum]
  rfl

theorem linkListDelHead_cons (h : l.Holds ((p, y) :: bs)) :
    ∃ l', linkListDelHead l = some (l', true) ∧ l'.fresh = l.fresh ∧ l'.Holds bs := by
  have h₀ : l.Holds ([] ++ (p, y) :: bs) := h
  obtain ⟨l', hdel, -, hfresh, hholds⟩ := linkListDel_eq h₀
  refine ⟨l', ?_, hfresh, hholds⟩
  rw [linkListDelHead, linkListFirst, if_neg (by rw [h.num]; exact Nat.succ_ne_zero _), h.next_head]
  exact hdel

theorem linkListClear_eq {n : Nat} (h : l.Holds xs) (hn : xs.length < n) :
    ∃ l', linkListClear n l = some l' ∧ l'.fresh = l.fresh ∧ l'.Holds [] := by
  induction xs generalizing l n with
  | nil =>
    obtain ⟨n, rfl⟩ := Nat.exists_eq_succ_of_ne_zero (Nat.ne_zero_of_lt hn)
    exact ⟨l, by rw [linkListClear, linkListDelHead_nil h]; rfl, rfl, h⟩
  | cons z xs ih =>
    obtain ⟨n, rfl⟩ := Nat.exists_eq_succ_of_ne_zero (Nat.ne_zero_of_lt hn)
    obtain ⟨l₁, hdel, hfresh, hrest⟩ := linkListDelHead_cons h
    obtain ⟨l', hclear, hfresh', hholds⟩ := ih hrest (Nat.lt_of_succ_lt_succ hn)
    exact ⟨l', by rw [linkListClear, hdel]; exact hclear, hfresh'.trans hfresh, hholds⟩

theorem linkListSet_eq (h : l.Holds (as ++ (p, y) :: bs)) (x : α) :
    ∃ l', linkListSet l p x = some l' ∧ l'.fresh = l.fresh + 1 ∧
      l'.Holds (as ++ (l.fresh, x) :: bs) := by
  have hlinked := h.linked
  rw [map_append] at hlinked
  have hprev : l.prev p = (as.map Prod.fst).getLastD l.head := hlinked.around.2
  obtain ⟨l₁, hdel, hhead, hfresh, hrest⟩ := linkListDel_eq h
  obtain ⟨l', hinst, -, hfresh', hholds⟩ := hrest.inst x
  rw [hfresh] at hfresh' hholds
  refine ⟨l', ?_, hfresh', hholds⟩
  rw [linkListSet, hdel, hprev, ← hhead]
  exact hinst

theorem Stands.step (h : Stands l s) {op : LinkOp α} (hop : s.step op = some (s', os)) :
    ∃ l', linkListStep l op = some (l', os) ∧ Stands l' s' := by
  have hguard {P : Prop} [Decidable P] {r : LinkSeq α × List Bool}
      (heq : (if P then some r else none) = some (s', os)) : P ∧ r = (s', os) := by
    rwa [Option.ite_none_right_eq_some, Option.some.injEq] at heq
  have hholds := h.holds
  cases op with
  | instHead x =>
    obtain ⟨rfl, rfl⟩ := Prod.mk.inj (Option.some.inj hop)
    have h₀ : l.Holds ([] ++ s.elems) := hholds
    obtain ⟨l', hinst, -, hfresh, hnew⟩ := h₀.inst x
    rw [h.fresh] at hfresh hnew
    exact ⟨l', congrArg (Option.map fun l => (l, [true])) hinst, hnew, hfresh⟩
  | instTail x =>
    obtain ⟨rfl, rfl⟩ := Prod.mk.inj (Option.some.inj hop)
    obtain ⟨l', hinst, -, hfresh, hnew⟩ := hholds.inst_tail x
    rw [h.fresh] at hfresh hnew
    exact ⟨l', by rw [linkListStep, hinst]; rfl, hnew, hfresh⟩
  | inst p x =>
    obtain ⟨hp, hs⟩ := hguard hop
    obtain ⟨rfl, rfl⟩ := Prod.mk.inj hs
    obtain ⟨as, y, bs, -, hsplit, hchange⟩ := h.split hp
    rw [append_cons] at hsplit
    obtain ⟨l', hinst, -, hfresh, hnew⟩ := hsplit.inst x
    rw [map_append, map_singleton, getLastD_concat] at hinst
    rw [h.fresh] at hfresh hnew
    refine ⟨l', by rw [linkListStep, hinst]; rfl, ?_, hfresh⟩
    rw [hchange]
    simpa using hnew
  | del p =>
    obtain ⟨hp, hs⟩ := hguard hop
    obtain ⟨rfl, rfl⟩ := Prod.mk.inj hs
    obtain ⟨as, y, bs, -, hsplit, hchange⟩ := h.split hp
    obtain ⟨l', hdel, -, hfresh, hnew⟩ := linkListDel_eq hsplit
    refine ⟨l', by rw [linkListStep, hdel]; rfl, ?_, hfresh.trans h.fresh⟩
    rw [hchange]
    exact hnew
  | delHead =>
    obtain ⟨rfl, rfl⟩ := Prod.mk.inj (Option.some.inj hop)
    cases hs : s.elems with
    | nil =>
      rw [hs] at hholds
      refine ⟨l, by rw [linkListStep, linkListDelHead_nil hholds]; rfl, hholds, h.fresh⟩
    | cons z xs =>
      rw [hs] at hholds
      obtain ⟨l', hdel, hfresh, hnew⟩ := linkListDelHead_cons hholds
      exact ⟨l', by rw [linkListStep, hdel]; rfl, hnew, hfresh.trans h.fresh⟩
  | delTail =>
    obtain ⟨rfl, rfl⟩ := Prod.mk.inj (Option.some.inj hop)
    have htail := h.refines.tail
    rcases s.elems.eq_nil_or_concat with hs | ⟨xs, ⟨p, y⟩, hs⟩
    · rw [hs] at hholds htail
      have hhead : l.tail = l.head := htail
      refine ⟨l, ?_, hs ▸ hholds, h.fresh⟩
      simp [linkListStep, linkListDelTail, linkListDel, Ring.del, hhead, hs]
    · rw [concat_eq_append] at hs
      rw [hs, map_append, map_singleton, getLastD_concat] at htail
      obtain ⟨l', hdel, -, hfresh, hnew⟩ := linkListDel_eq (hs ▸ hholds)
      refine ⟨l', ?_, by rw [hs, dropLast_concat]; simpa using hnew, hfresh.trans h.fresh⟩
      rw [linkListStep, linkListDelTail, htail, hdel, hs]
      simp
  | set p x =>
    obtain ⟨hp, hs⟩ := hguard hop
    obtain ⟨rfl, rfl⟩ := Prod.mk.inj hs
    obtain ⟨as, y, bs, -, hsplit, hchange⟩ := h.split hp
    obtain ⟨l', hset, hfresh, hnew⟩ := linkListSet_eq hsplit x
    rw [h.fresh] at hfresh hnew
    refine ⟨l', by rw [linkListStep, hset]; rfl, ?_, hfresh⟩
    rw [hchange]
    exact hnew
  | clear =>
    obtain ⟨rfl, rfl⟩ := Prod.mk.inj (Option.some.inj hop)
    have hlen := Nat.lt_succ_of_le hholds.length_le
    obtain ⟨l', hclear, hfresh, hnew⟩ := linkListClear_eq hholds hlen
    exact ⟨l', by rw [linkListStep, hclear]; rfl, hnew, hfresh.trans h.fresh⟩

/-- Every run of calls on blocks of the list returns what it returns of the sequence, and leaves a
list of its items both ways around, with their number and the last of them. -/
theorem linkList_refines {ops : List (LinkOp α)} {s : LinkSeq α} {os : List Bool}
    (h : Run.run LinkSeq.step ⟨[], 1⟩ ops = some (s, os)) :
    ∃ l, Run.run linkListStep Ring.empty ops = some (l, os) ∧ RefinesSeq l s.elems := by
  obtain ⟨l, hrun, hstands⟩ := Run.refines (fun _ _ _ _ _ hr hop => Stands.step hr hop)
    ⟨Ring.holds_empty, rfl⟩ h
  exact ⟨l, hrun, hstands.refines⟩

/-- Items put in at both ends and between, one replaced, and the ends taken out. -/
theorem linkList_refines_sample :
    ∃ l, Run.run linkListStep Ring.empty
        [.delTail, .instTail 'a', .instHead 'b', .inst 2 'c', .set 1 'd', .instTail 'e', .delHead,
          .delTail] = some (l, false :: List.replicate 7 true) ∧
      RefinesSeq l [(3, 'c'), (4, 'd')] :=
  linkList_refines (s := ⟨[(3, 'c'), (4, 'd')], 6⟩) (by decide)

end Honyar.LocalScene
