import Mathlib.Data.List.Induction
import Mathlib.Data.List.Nodup
import Mathlib.Data.List.Perm.Subperm
import Mathlib.Logic.Function.Basic
import Mathlib.Tactic.Common

/-!
# Doubly linked lists in memory

A list as blocks that point at each other, with a head and a tail pointer.  A block that was
given back is gone and its address is not given out again, so touching it is no step at all.
`Holds` says which list of items such a structure stands for, and one rule for each operation
says what it does to that list.
-/

namespace Honyar

open Option List Function

/-- The block of an item. -/
structure DoubleNode (α : Type) where
  next : Option Nat
  prev : Option Nat
  data : α

/-! ## Blocks -/

namespace Chain

variable {α : Type}

/-- A memory of blocks. -/
abbrev Heap (α : Type) := Nat → Option (DoubleNode α)

/-- Writing to a block. -/
def write (heap : Heap α) (p : Nat) (f : DoubleNode α → DoubleNode α) : Option (Heap α) :=
  (heap p).map fun n => Function.update heap p (some (f n))

/-- Giving a block back. -/
def free (heap : Heap α) (p : Nat) : Option (Heap α) :=
  (heap p).map fun _ => Function.update heap p none

/-- Writing to a block, if one is given. -/
def writeTo (heap : Heap α) : Option Nat → (DoubleNode α → DoubleNode α) → Option (Heap α)
  | none, _ => some heap
  | some p, f => write heap p f

variable {heap : Heap α} {p : Nat}

theorem write_of_eq {c : DoubleNode α} (h : heap p = some c) (f : DoubleNode α → DoubleNode α) :
    write heap p f = some (Function.update heap p (some (f c))) := by
  rw [write, h]
  rfl

theorem free_of_eq {c : DoubleNode α} (h : heap p = some c) :
    free heap p = some (Function.update heap p none) := by
  rw [free, h]
  rfl

/-- A block that may point elsewhere: on to `v` where it is the one at `p`, and back to `w` where
it is the one at `q`. -/
def relinked (p q v w : Option Nat) (r : Nat) (c : DoubleNode α) : DoubleNode α :=
  ⟨if p = some r then v else c.next, if q = some r then w else c.prev, c.data⟩

theorem relinked_of_ne {p q v w : Option Nat} {r : Nat} (hp : p ≠ some r) (hq : q ≠ some r)
    (c : Option (DoubleNode α)) : c.map (relinked p q v w r) = c := by
  have hid : relinked p q v w r = (id : DoubleNode α → DoubleNode α) := by
    funext c
    rw [relinked, if_neg hp, if_neg hq, id]
  rw [hid, map_id_apply]

theorem writeTo_some {o : Option Nat} (f : DoubleNode α → DoubleNode α)
    (h : ∀ q, o = some q → ∃ c, heap q = some c) :
    ∃ heap', writeTo heap o f = some heap' ∧
      ∀ q, heap' q = (heap q).map fun c => if o = some q then f c else c := by
  cases o with
  | none => exact ⟨heap, rfl, by simp⟩
  | some p =>
    obtain ⟨c, hc⟩ := h p rfl
    refine ⟨_, write_of_eq hc f, fun q => ?_⟩
    by_cases hq : p = q
    · subst hq
      simp [hc]
    · simp [update_of_ne (Ne.symm hq), hq]

/-- Two blocks are made to point elsewhere, whichever comes first. -/
theorem relink {p q v w : Option Nat} (hp : ∀ r, p = some r → ∃ c, heap r = some c)
    (hq : ∀ r, q = some r → ∃ c, heap r = some c) :
    ∃ heap', ((writeTo heap p fun m => { m with next := v }).bind fun heap =>
        writeTo heap q fun m => { m with prev := w }) = some heap' ∧
      ((writeTo heap q fun m => { m with prev := w }).bind fun heap =>
        writeTo heap p fun m => { m with next := v }) = some heap' ∧
      ∀ r, heap' r = (heap r).map (relinked p q v w r) := by
  obtain ⟨heap₁, h₁, hin₁⟩ := writeTo_some (fun m : DoubleNode α => { m with next := v }) hp
  obtain ⟨heap₂, h₂, hin₂⟩ := writeTo_some (fun m : DoubleNode α => { m with prev := w }) hq
  obtain ⟨heap₃, h₃, hin₃⟩ := @writeTo_some α heap₁ q
    (fun m : DoubleNode α => { m with prev := w }) fun r hr => by
      obtain ⟨c, hc⟩ := hq r hr
      exact ⟨_, by rw [hin₁, hc]; rfl⟩
  obtain ⟨heap₄, h₄, hin₄⟩ := @writeTo_some α heap₂ p
    (fun m : DoubleNode α => { m with next := v }) fun r hr => by
      obtain ⟨c, hc⟩ := hp r hr
      exact ⟨_, by rw [hin₂, hc]; rfl⟩
  have heq₃ : ∀ r, heap₃ r = (heap r).map (relinked p q v w r) := by
    intro r
    rw [hin₃, hin₁, Option.map_map]
    congr 1
    funext c
    by_cases hpr : p = some r <;> by_cases hqr : q = some r <;> simp [relinked, hpr, hqr]
  have heq₄ : heap₄ = heap₃ := by
    funext r
    rw [heq₃, hin₄, hin₂, Option.map_map]
    congr 1
    funext c
    by_cases hpr : p = some r <;> by_cases hqr : q = some r <;> simp [relinked, hpr, hqr]
  refine ⟨heap₃, ?_, ?_, heq₃⟩
  · rw [h₁, bind_some, h₃]
  · rw [h₂, bind_some, h₄, heq₄]

end Chain

/-- The blocks of one list, its two ends and the first address not given out yet. -/
structure DoubleList (α : Type) where
  heap : Nat → Option (DoubleNode α)
  head : Option Nat
  tail : Option Nat
  fresh : Nat

namespace DoubleList

open Chain (relinked relinked_of_ne)

variable {α : Type}
variable {as bs : List (Nat × α)} {x : α}

/-! ## The operations -/

def empty : DoubleList α := ⟨fun _ => none, none, none, 0⟩

/-- Writing to a block. -/
def write (l : DoubleList α) (p : Nat) (f : DoubleNode α → DoubleNode α) :
    Option (DoubleList α) :=
  (l.heap p).map fun n => { l with heap := Function.update l.heap p (some (f n)) }

/-- Giving a block back. -/
def free (l : DoubleList α) (p : Nat) : Option (DoubleList α) :=
  (l.heap p).map fun _ => { l with heap := Function.update l.heap p none }

/-- A new block for an item, with its address. -/
def alloc (l : DoubleList α) (x : α) : DoubleList α :=
  { l with heap := Function.update l.heap l.fresh (some ⟨none, none, x⟩), fresh := l.fresh + 1 }

/-- Putting an item behind the others. -/
def tailInsert (l : DoubleList α) (x : α) : Option (DoubleList α) :=
  let p := l.fresh
  let l' := l.alloc x
  match l.tail with
  | none => some { l' with head := some p, tail := some p }
  | some t => do
    let l' ← l'.write t fun n => { n with next := some p }
    let l' ← l'.write p fun n => { n with prev := some t }
    return { l' with tail := some p }

/-- Taking out the item of a block: the only one, the first, the last or one in between. -/
def del (l : DoubleList α) (p : Nat) : Option (DoubleList α) :=
  if l.head = some p ∧ l.tail = some p then
    { l with head := none, tail := none }.free p
  else if l.head = some p then do
    let n ← l.heap p
    let q ← n.next
    let l' ← { l with head := n.next }.write q fun m => { m with prev := none }
    l'.free p
  else if l.tail = some p then do
    let n ← l.heap p
    let q ← n.prev
    let l' ← { l with tail := n.prev }.write q fun m => { m with next := none }
    l'.free p
  else do
    let n ← l.heap p
    let q ← n.prev
    let l' ← l.write q fun m => { m with next := n.next }
    let n ← l'.heap p
    let q ← n.next
    let l' ← l'.write q fun m => { m with prev := n.prev }
    l'.free p

/-- The block after one, or the first. -/
def next (l : DoubleList α) : Option Nat → Option (Option Nat)
  | none => some l.head
  | some p => (l.heap p).map (·.next)

/-- The item in a block. -/
def data (l : DoubleList α) (p : Nat) : Option α :=
  (l.heap p).map (·.data)

/-- Writing to the item in a block. -/
def modify (l : DoubleList α) (p : Nat) (f : α → α) : Option (DoubleList α) :=
  l.write p fun n => { n with data := f n.data }

/-- Looking for an item from a block on, in at most `n` blocks. -/
def findFrom (f : α → Bool) : Nat → Option Nat → DoubleList α → Option (Option Nat)
  | _, none, _ => some none
  | 0, some _, _ => none
  | n + 1, some p, l => do
    let c ← l.heap p
    if f c.data then return some p else findFrom f n c.next l

/-- The first block whose item is looked for.  No more blocks than were ever given out can be
in the list. -/
def find (f : α → Bool) (l : DoubleList α) : Option (Option Nat) :=
  findFrom f l.fresh l.head l

/-- Giving back every block from one on; at most `n` of them. -/
def clearFrom : Nat → Option Nat → DoubleList α → Option (DoubleList α)
  | _, none, l => some l
  | 0, some _, _ => none
  | n + 1, some p, l => do
    let c ← l.heap p
    let l' ← l.free p
    clearFrom n c.next l'

/-- Giving back every block.  The ends stay as they were. -/
def clear (l : DoubleList α) : Option (DoubleList α) :=
  clearFrom l.fresh l.head l

/-- The items from a block on, in at most `n` blocks. -/
def itemsFrom : Nat → Option Nat → DoubleList α → List (Nat × α)
  | _, none, _ => []
  | 0, some _, _ => []
  | n + 1, some p, l =>
    match l.heap p with
    | none => []
    | some c => (p, c.data) :: itemsFrom n c.next l

/-- The items in order, with the addresses of their blocks. -/
def items (l : DoubleList α) : List (Nat × α) := itemsFrom l.fresh l.head l

/-! ## The list that a structure stands for -/

/-- The address of the first block, or what comes after all of them. -/
def firstOr (e : Option Nat) : List (Nat × α) → Option Nat
  | [] => e
  | (p, _) :: _ => some p

/-- The address of the last block, or what comes before all of them. -/
def lastOr (e : Option Nat) : List (Nat × α) → Option Nat
  | [] => e
  | (p, _) :: xs => lastOr (some p) xs

/-- The blocks of `xs` are linked in their order, between `e` and `e'`. -/
def Linked (heap : Nat → Option (DoubleNode α)) (e : Option Nat) :
    List (Nat × α) → Option Nat → Prop
  | [], _ => True
  | (p, x) :: xs, e' =>
    heap p = some ⟨firstOr e' xs, e, x⟩ ∧ Linked heap (some p) xs e'

/-- The structure is well formed and stands for `xs`, given with the addresses. -/
structure Holds (l : DoubleList α) (xs : List (Nat × α)) : Prop where
  nodup : (xs.map Prod.fst).Nodup
  head : l.head = firstOr none xs
  tail : l.tail = lastOr none xs
  linked : Linked l.heap none xs none
  only : ∀ p, p ∉ xs.map Prod.fst → l.heap p = none
  lt : ∀ q ∈ xs, q.1 < l.fresh

@[simp] theorem firstOr_nil (e : Option Nat) : firstOr e ([] : List (Nat × α)) = e := rfl

@[simp] theorem firstOr_cons (e : Option Nat) (p : Nat) (x : α) (xs : List (Nat × α)) :
    firstOr e ((p, x) :: xs) = some p := rfl

@[simp] theorem lastOr_nil (e : Option Nat) : lastOr e ([] : List (Nat × α)) = e := rfl

@[simp] theorem lastOr_cons (e : Option Nat) (p : Nat) (x : α) (xs : List (Nat × α)) :
    lastOr e ((p, x) :: xs) = lastOr (some p) xs := rfl

@[simp] theorem firstOr_append (e : Option Nat) (xs ys : List (Nat × α)) :
    firstOr e (xs ++ ys) = firstOr (firstOr e ys) xs := by
  cases xs <;> rfl

@[simp] theorem lastOr_append_cons (e : Option Nat) (xs ys : List (Nat × α)) (p : Nat) (x : α) :
    lastOr e (xs ++ (p, x) :: ys) = lastOr (some p) ys := by
  induction xs generalizing e with
  | nil => rfl
  | cons y ys ih => exact ih _

theorem lastOr_concat (e : Option Nat) (xs : List (Nat × α)) (p : Nat) (x : α) :
    lastOr e (xs ++ [(p, x)]) = some p := by
  rw [lastOr_append_cons, lastOr_nil]

variable {heap heap' : Nat → Option (DoubleNode α)} {e e' : Option Nat} {xs ys : List (Nat × α)}

theorem mem_of_firstOr {p : Nat} (h : firstOr e xs = some p) :
    e = some p ∨ p ∈ xs.map Prod.fst := by
  cases xs with
  | nil => exact .inl h
  | cons x xs =>
    obtain rfl : x.1 = p := by simpa [firstOr] using h
    exact .inr (by simp)

theorem mem_of_lastOr {p : Nat} (h : lastOr e xs = some p) :
    e = some p ∨ p ∈ xs.map Prod.fst := by
  induction xs generalizing e with
  | nil => exact .inl h
  | cons x xs ih =>
    rcases ih h with heq | hm
    · exact .inr (by simp [some.inj heq])
    · exact .inr (mem_cons_of_mem _ hm)

theorem linked_append :
    Linked heap e (xs ++ ys) e' ↔
      Linked heap e xs (firstOr e' ys) ∧ Linked heap (lastOr e xs) ys e' := by
  induction xs generalizing e with
  | nil => simp [Linked, lastOr]
  | cons x xs ih => simp [Linked, lastOr, ih, and_assoc]

/-- What is linked has a block. -/
theorem Linked.exists_of_mem {p : Nat} (h : Linked heap e xs e') (hp : p ∈ xs.map Prod.fst) :
    ∃ c, heap p = some c := by
  obtain ⟨⟨p, x⟩, hx, rfl⟩ := List.mem_map.mp hp
  obtain ⟨as, bs, rfl⟩ := append_of_mem hx
  exact ⟨_, (linked_append.mp h).2.1⟩

/-- Only the blocks of the list matter. -/
theorem Linked.congr (h : Linked heap e xs e') (heq : ∀ p ∈ xs.map Prod.fst, heap' p = heap p) :
    Linked heap' e xs e' := by
  induction xs generalizing e with
  | nil => trivial
  | cons x xs ih =>
    obtain ⟨hx, hxs⟩ := h
    rw [map_cons, forall_mem_cons] at heq
    exact ⟨heq.1.trans hx, ih hxs heq.2⟩

theorem lastOr_eq_none : lastOr none xs = none ↔ xs = [] := by
  cases xs with
  | nil => exact iff_of_true rfl rfl
  | cons x xs =>
    refine iff_of_false (fun h => ?_) (cons_ne_nil _ _)
    have hmem : ∀ (q : Nat) (ys : List (Nat × α)), lastOr (some q) ys ≠ none := by
      intro q ys
      induction ys generalizing q with
      | nil => exact some_ne_none q
      | cons y ys ih => exact ih y.1
    exact hmem _ _ h

/-- Following `link` from a block on leads through the items to `e`; `item` reads a block. -/
def Visits {β : Type} (heap : Nat → Option β) (link : β → Option Nat) (item : β → α)
    (e : Option Nat) : Option Nat → List (Nat × α) → Prop
  | o, [] => o = e
  | o, (p, x) :: xs =>
    o = some p ∧ ∃ c, heap p = some c ∧ item c = x ∧ Visits heap link item e (link c) xs

theorem visits_append {β : Type} {heap : Nat → Option β} {link : β → Option Nat} {item : β → α}
    {o : Option Nat} : Visits heap link item e o (xs ++ ys) ↔
      ∃ o', Visits heap link item o' o xs ∧ Visits heap link item e o' ys := by
  induction xs generalizing o with
  | nil => exact ⟨fun h => ⟨o, rfl, h⟩, fun ⟨_, ho, h⟩ => ho ▸ h⟩
  | cons x xs ih =>
    constructor
    · rintro ⟨rfl, c, hc, hx, hrest⟩
      obtain ⟨o', hxs, hys⟩ := ih.mp hrest
      exact ⟨o', ⟨rfl, c, hc, hx, hxs⟩, hys⟩
    · rintro ⟨o', ⟨rfl, c, hc, hx, hxs⟩, hys⟩
      exact ⟨rfl, c, hc, hx, ih.mpr ⟨o', hxs, hys⟩⟩

theorem Linked.visits (h : Linked heap e xs e') :
    Visits heap (·.next) (·.data) e' (firstOr e' xs) xs := by
  induction xs generalizing e with
  | nil => rfl
  | cons x xs ih => exact ⟨rfl, _, h.1, rfl, ih h.2⟩

theorem Linked.visits_back (h : Linked heap e xs e') :
    Visits heap (·.prev) (·.data) e (lastOr e xs) xs.reverse := by
  induction xs using List.reverseRecOn generalizing e' with
  | nil => rfl
  | append_singleton xs x ih =>
    obtain ⟨hxs, hx, -⟩ := linked_append.mp h
    rw [reverse_concat, lastOr_concat]
    exact ⟨rfl, _, hx, rfl, ih hxs⟩

/-- A stretch of a chain gives way to another one, and the blocks around it point there. -/
theorem Linked.splice {ms u : List (Nat × α)} (h : Linked heap e (as ++ (ms ++ bs)) e')
    (hnd : ((as ++ bs).map Prod.fst).Nodup)
    (hends : ∀ q ∈ (as ++ bs).map Prod.fst, e ≠ some q ∧ e' ≠ some q)
    (hheap : ∀ q ∈ (as ++ bs).map Prod.fst, heap' q =
      (heap q).map (relinked (lastOr e as) (firstOr e' bs) (firstOr (firstOr e' bs) u)
        (lastOr (lastOr e as) u) q)) (hmid : Linked heap' (lastOr e as) u (firstOr e' bs)) :
    Linked heap' e (as ++ (u ++ bs)) e' := by
  obtain ⟨hleft, hright⟩ := linked_append.mp h
  obtain ⟨-, hright⟩ := linked_append.mp hright
  rw [map_append] at hnd hends hheap
  obtain ⟨hndA, hndB, hdisj⟩ := nodup_append.mp hnd
  have hlastNe : ∀ q ∈ bs.map Prod.fst, lastOr e as ≠ some q := by
    intro q hq heq
    rcases mem_of_lastOr heq with heq | hmem
    · exact (hends q (mem_append_right _ hq)).1 heq
    · exact hdisj q hmem q hq rfl
  have hfirstNe : ∀ q ∈ as.map Prod.fst, firstOr e' bs ≠ some q := by
    intro q hq heq
    rcases mem_of_firstOr heq with heq | hmem
    · exact (hends q (mem_append_left _ hq)).2 heq
    · exact hdisj q hq q hmem rfl
  refine linked_append.mpr ⟨?_, linked_append.mpr ⟨hmid, ?_⟩⟩
  · -- before the stretch only the last block points elsewhere
    rw [firstOr_append]
    rcases as.eq_nil_or_concat with rfl | ⟨as, ⟨a, y⟩, rfl⟩
    · trivial
    · rw [concat_eq_append] at *
      rw [lastOr_concat] at hheap
      obtain ⟨hold, ha, -⟩ := linked_append.mp hleft
      have haA : a ∈ (as ++ [(a, y)]).map Prod.fst := by simp
      refine linked_append.mpr ⟨hold.congr fun q hq => ?_, ?_, trivial⟩
      · have hqA : q ∈ (as ++ [(a, y)]).map Prod.fst := by
          rw [map_append]
          exact mem_append_left _ hq
        have hqa : some a ≠ some q := by
          rintro ⟨⟩
          rw [map_append, nodup_append] at hndA
          exact hndA.2.2 a hq a (by simp) rfl
        rw [hheap q (mem_append_left _ hqA), relinked_of_ne hqa (hfirstNe q hqA)]
      · rw [hheap a (mem_append_left _ haA), ha, map_some, relinked, if_pos rfl,
          if_neg (hfirstNe a haA)]
        rfl
  · -- and behind it the first one
    cases bs with
    | nil => trivial
    | cons b bs =>
      obtain ⟨b, z⟩ := b
      refine ⟨?_, hright.2.congr fun q hq => ?_⟩
      · have hb : b ∈ ((b, z) :: bs).map Prod.fst := mem_cons_self
        rw [hheap b (mem_append_right _ hb), hright.1, map_some, relinked,
          if_neg (hlastNe b hb), firstOr_cons, if_pos rfl]
      · have hqB : q ∈ ((b, z) :: bs).map Prod.fst := mem_cons_of_mem _ hq
        have hqb : some b ≠ some q := by
          rintro ⟨⟩
          exact (nodup_cons.mp hndB).1 hq
        rw [hheap q (mem_append_right _ hqB), relinked_of_ne (hlastNe q hqB)]
        exact hqb

/-- A chain with another item in one of its blocks. -/
theorem Linked.modify {p : Nat} {y : α} (h : Linked heap none (as ++ (p, x) :: bs) none)
    (hnd : ((as ++ (p, x) :: bs).map Prod.fst).Nodup)
    (hp : heap' p = some ⟨firstOr none bs, lastOr none as, y⟩)
    (hother : ∀ q, q ≠ p → heap' q = heap q) : Linked heap' none (as ++ (p, y) :: bs) none := by
  simp only [map_append, map_cons] at hnd
  obtain ⟨-, hndB, hdisj⟩ := nodup_append.mp hnd
  have hpB : ∀ q ∈ bs.map Prod.fst, q ≠ p :=
    fun q hq heq => (nodup_cons.mp hndB).1 (heq ▸ hq)
  have hpA : ∀ q ∈ as.map Prod.fst, q ≠ p :=
    fun q hq heq => hdisj p (heq ▸ hq) p mem_cons_self rfl
  obtain ⟨hleft, -, hright⟩ := linked_append.mp h
  exact linked_append.mpr ⟨hleft.congr fun q hq => hother q (hpA q hq), hp,
    hright.congr fun q hq => hother q (hpB q hq)⟩

/-- An item is taken out by writing to the blocks around it. -/
theorem del_eq {l : DoubleList α} {next prev : Option Nat} {p : Nat}
    (hp : l.heap p = some ⟨next, prev, x⟩) (hhead : l.head = some p ↔ prev = none)
    (htail : l.tail = some p ↔ next = none) (hprev : prev ≠ some p) :
    l.del p = ((Chain.writeTo l.heap prev fun m => { m with next := next }).bind fun heap =>
      Chain.writeTo heap next fun m => { m with prev := prev }).bind fun heap =>
        (Chain.free heap p).map fun heap => ⟨heap, if prev = none then next else l.head,
          if next = none then prev else l.tail, l.fresh⟩ := by
  cases prev with
  | none =>
    cases next <;>
      simp [del, hhead, htail, hp, write, free, Chain.writeTo, Chain.write, Chain.free,
        map_eq_bind, comp_def, bind_assoc]
  | some q =>
    have hqp : p ≠ q := fun heq => hprev (congrArg some heq.symm)
    cases next <;>
      simp [del, hhead, htail, hp, write, free, Chain.writeTo, Chain.write, Chain.free,
        map_eq_bind, comp_def, bind_assoc, hqp]

theorem holds_empty : Holds (empty : DoubleList α) [] where
  nodup := nodup_nil
  head := rfl
  tail := rfl
  linked := trivial
  only _ _ := rfl
  lt := by simp

namespace Holds

variable {l : DoubleList α}

theorem fresh_notMem (h : Holds l xs) : l.fresh ∉ xs.map Prod.fst := by
  intro hmem
  obtain ⟨q, hq, heq⟩ := List.mem_map.mp hmem
  exact absurd (h.lt q hq) (by rw [heq]; exact Nat.lt_irrefl _)

/-- The block of an item, with its neighbours. -/
theorem heap_eq {p : Nat} (h : Holds l (as ++ (p, x) :: bs)) :
    l.heap p = some ⟨firstOr none bs, lastOr none as, x⟩ :=
  (linked_append.mp h.linked).2.1

/-- A stretch of the list gives way to another one. -/
theorem splice {l' : DoubleList α} {ms u : List (Nat × α)} (h : Holds l (as ++ (ms ++ bs)))
    (hfresh : l.fresh ≤ l'.fresh) (hnd : ((as ++ (u ++ bs)).map Prod.fst).Nodup)
    (hlt : ∀ q ∈ u, q.1 < l'.fresh) (hhead : l'.head = firstOr none (as ++ (u ++ bs)))
    (htail : l'.tail = lastOr none (as ++ (u ++ bs)))
    (hgone : ∀ q ∈ ms.map Prod.fst, q ∉ u.map Prod.fst → l'.heap q = none)
    (hheap : ∀ q, q ∉ ms.map Prod.fst → q ∉ u.map Prod.fst → l'.heap q =
      (l.heap q).map (relinked (lastOr none as) (firstOr none bs)
        (firstOr (firstOr none bs) u) (lastOr (lastOr none as) u) q))
    (hmid : Linked l'.heap (lastOr none as) u (firstOr none bs)) :
    Holds l' (as ++ (u ++ bs)) := by
  have hold := h.nodup
  simp only [map_append, nodup_append] at hold
  have hnew := hnd
  simp only [map_append, nodup_append] at hnew
  refine ⟨hnd, hhead, htail, h.linked.splice ?_ (fun _ _ => ⟨nofun, nofun⟩) ?_ hmid, ?_, ?_⟩
  · simp only [map_append, nodup_append]
    exact ⟨hnew.1, hnew.2.1.2.1, fun q hq r hr => hnew.2.2 q hq r (mem_append_right _ hr)⟩
  · intro q hq
    rw [map_append, mem_append] at hq
    rcases hq with hq | hq
    · exact hheap q (fun hm => hold.2.2 q hq q (mem_append_left _ hm) rfl)
        fun hm => hnew.2.2 q hq q (mem_append_left _ hm) rfl
    · exact hheap q (fun hm => hold.2.1.2.2 q hm q hq rfl) fun hm => hnew.2.1.2.2 q hm q hq rfl
  · intro q hq
    simp only [map_append, mem_append, not_or] at hq
    by_cases hm : q ∈ ms.map Prod.fst
    · exact hgone q hm hq.2.1
    · rw [hheap q hm hq.2.1, h.only q, map_none]
      simp only [map_append, mem_append, not_or]
      exact ⟨hq.1, hm, hq.2.2⟩
  · intro q hq
    have hbelow : ∀ q ∈ as ++ (ms ++ bs), q.1 < l'.fresh := fun q hq =>
      Nat.lt_of_lt_of_le (h.lt q hq) hfresh
    simp only [mem_append] at hq hbelow
    rcases hq with hq | hq | hq
    · exact hbelow q (.inl hq)
    · exact hlt q hq
    · exact hbelow q (.inr (.inr hq))

/-- With a new address the addresses stay apart. -/
theorem nodup_fresh (h : Holds l (as ++ bs)) (x : α) :
    ((as ++ (l.fresh, x) :: bs).map Prod.fst).Nodup := by
  have hnew := h.fresh_notMem
  have hperm : ((as ++ (l.fresh, x) :: bs).map Prod.fst).Perm
      (l.fresh :: (as ++ bs).map Prod.fst) := by
    rw [map_append, map_cons, map_append]
    exact perm_middle
  exact hperm.nodup_iff.mpr (nodup_cons.mpr ⟨hnew, h.nodup⟩)

/-- A new item lies between two others, which point at it. -/
theorem inserted {l' : DoubleList α} (h : Holds l (as ++ bs)) (hfresh : l'.fresh = l.fresh + 1)
    (hhead : l'.head = firstOr (some l.fresh) as) (htail : l'.tail = lastOr (some l.fresh) bs)
    (hnew : l'.heap l.fresh = some ⟨firstOr none bs, lastOr none as, x⟩)
    (hheap : ∀ q, q ≠ l.fresh → l'.heap q = (l.heap q).map
      (relinked (lastOr none as) (firstOr none bs) (some l.fresh) (some l.fresh) q)) :
    Holds l' (as ++ (l.fresh, x) :: bs) := by
  have h₀ : Holds l (as ++ ([] ++ bs)) := h
  refine h₀.splice (u := [(l.fresh, x)]) (hfresh ▸ Nat.le_succ _) (h.nodup_fresh x)
    (by simp [hfresh]) (by simpa using hhead) (by simpa using htail) (by simp)
    (fun q _ hq => ?_) ⟨hnew, trivial⟩
  rw [map_singleton, mem_singleton] at hq
  exact hheap q hq

theorem tailInsert (h : Holds l xs) (x : α) :
    ∃ l', l.tailInsert x = some l' ∧ l'.fresh = l.fresh + 1 ∧
      Holds l' (xs ++ [(l.fresh, x)]) := by
  have h₀ : Holds l (xs ++ []) := (append_nil xs).symm ▸ h
  rcases xs.eq_nil_or_concat with rfl | ⟨ys, ⟨t, y⟩, rfl⟩
  case inl =>
    have htail : l.tail = none := h.tail
    refine ⟨_, by rw [DoubleList.tailInsert, htail], rfl, ?_⟩
    refine h₀.inserted rfl rfl rfl (update_self ..) fun q hq => ?_
    exact (update_of_ne hq _ _).trans
      (relinked_of_ne (some_ne_none q).symm (some_ne_none q).symm _).symm
  case inr =>
    rw [concat_eq_append] at *
    have htail : l.tail = some t := by rw [h.tail, lastOr_concat]
    have ht : l.heap t = some ⟨none, lastOr none ys, y⟩ := h.heap_eq
    have hne : t ≠ l.fresh := fun heq => h.fresh_notMem (by simp [heq])
    have hcalc : l.tailInsert x = some
        { heap := update (update (update l.heap l.fresh
            (some ⟨none, none, x⟩)) t (some ⟨some l.fresh, lastOr none ys, y⟩)) l.fresh
            (some ⟨none, some t, x⟩)
          head := l.head, tail := some l.fresh, fresh := l.fresh + 1 } := by
      simp [DoubleList.tailInsert, htail, write, alloc, hne, hne.symm, ht]
    refine ⟨_, hcalc, rfl, ?_⟩
    refine h₀.inserted rfl (by simp [h.head]) rfl ?_ fun q hq => ?_
    · rw [lastOr_concat]
      exact update_self ..
    · rw [lastOr_concat]
      by_cases hqt : q = t
      · subst hqt
        simp [hq, ht, relinked]
      · have hqt' : some t ≠ some q := fun heq => hqt (some.inj heq).symm
        refine Eq.trans ?_ (relinked_of_ne hqt' (some_ne_none q).symm _).symm
        simp [hq, hqt]

/-- What is before an item, and what is behind it. -/
theorem ends {p : Nat} (h : Holds l (as ++ (p, x) :: bs)) :
    (l.head = some p ↔ lastOr none as = none) ∧ (l.tail = some p ↔ firstOr none bs = none) ∧
      lastOr none as ≠ some p ∧ firstOr none bs ≠ some p := by
  have hnd := h.nodup
  simp only [map_append, map_cons, nodup_append, nodup_cons] at hnd
  obtain ⟨-, ⟨hpB, -⟩, hdisj⟩ := hnd
  have hpA : p ∉ as.map Prod.fst := fun hm => hdisj p hm p mem_cons_self rfl
  have hlast : ∀ ys : List (Nat × α), p ∉ ys.map Prod.fst → lastOr none ys ≠ some p :=
    fun ys hp heq => hp ((mem_of_lastOr heq).resolve_left nofun)
  refine ⟨?_, ?_, hlast as hpA, fun heq => hpB ((mem_of_firstOr heq).resolve_left nofun)⟩
  · rw [h.head, lastOr_eq_none]
    cases as with
    | nil => exact iff_of_true rfl rfl
    | cons a as =>
      refine iff_of_false (fun heq => hpA ?_) (cons_ne_nil _ _)
      rw [cons_append, firstOr_cons, some.injEq] at heq
      exact heq ▸ mem_cons_self
  · rw [h.tail, lastOr_append_cons]
    cases bs with
    | nil => exact iff_of_true rfl rfl
    | cons b bs =>
      refine iff_of_false (fun heq => ?_) (some_ne_none _)
      exact hlast (b :: bs) hpB heq

/-- Taking out an item, wherever it is. -/
theorem del {p : Nat} (h : Holds l (as ++ (p, x) :: bs)) :
    ∃ l', l.del p = some l' ∧ l'.fresh = l.fresh ∧ Holds l' (as ++ bs) := by
  have hp := h.heap_eq
  obtain ⟨hhead, htail, hprev, hnext⟩ := h.ends
  obtain ⟨heap, hrelink, -, hheap⟩ := @Chain.relink α l.heap (lastOr none as)
    (firstOr none bs) (firstOr none bs) (lastOr none as)
    (fun q hq => h.linked.exists_of_mem (by
      simpa using Or.inl ((mem_of_lastOr hq).resolve_left nofun)))
    fun q hq => h.linked.exists_of_mem (by
      simpa using Or.inr (Or.inr ((mem_of_firstOr hq).resolve_left nofun)))
  have hp' : heap p = some ⟨firstOr none bs, lastOr none as, x⟩ := by
    rw [hheap, relinked_of_ne hprev hnext, hp]
  have hdel : l.del p = some ⟨update heap p none,
      if lastOr none as = none then firstOr none bs else l.head,
      if firstOr none bs = none then lastOr none as else l.tail, l.fresh⟩ := by
    rw [DoubleList.del_eq hp hhead htail hprev, hrelink, bind_some, Chain.free_of_eq hp',
      map_some]
  refine ⟨_, hdel, rfl, ?_⟩
  have h₀ : Holds l (as ++ ([(p, x)] ++ bs)) := h
  refine h₀.splice (u := []) (Nat.le_refl _) ?_ nofun ?_ ?_ (fun q hq _ => ?_)
    (fun q hq _ => ?_) trivial
  · exact ((sublist_cons_self _ _).append_left as |>.map Prod.fst).nodup h.nodup
  · rw [h.head]
    cases as with
    | nil => rfl
    | cons a as => exact if_neg fun heq => cons_ne_nil _ _ (lastOr_eq_none.mp heq)
  · cases bs with
    | nil => simp
    | cons b bs =>
      have hsome : firstOr none (b :: bs) ≠ none := some_ne_none b.1
      dsimp only
      rw [if_neg hsome, h.tail, nil_append, lastOr_append_cons, lastOr_append_cons]
      rfl
  · rw [map_singleton, mem_singleton] at hq
    rw [hq]
    exact update_self ..
  · rw [map_singleton, mem_singleton] at hq
    exact (update_of_ne hq _ _).trans (hheap q)

/-- Writing to an item changes it where it stands. -/
theorem modify {p : Nat} (h : Holds l (as ++ (p, x) :: bs)) (f : α → α) :
    ∃ l', l.modify p f = some l' ∧ l'.fresh = l.fresh ∧ Holds l' (as ++ (p, f x) :: bs) := by
  have hkeys : (as ++ (p, f x) :: bs).map Prod.fst = (as ++ (p, x) :: bs).map Prod.fst := by
    simp
  refine ⟨{ l with heap := (update l.heap p
      (some ⟨firstOr none bs, lastOr none as, f x⟩)) }, ?_, rfl, ?_⟩
  · simp [DoubleList.modify, write, h.heap_eq]
  constructor
  case nodup => exact hkeys ▸ h.nodup
  case head => rw [h.head, firstOr_append, firstOr_append]; rfl
  case tail => rw [h.tail, lastOr_append_cons, lastOr_append_cons]
  case linked => exact h.linked.modify h.nodup (by simp) fun q hq => by simp [hq]
  case only =>
    intro q hq
    have hne : q ≠ p := by
      rintro rfl
      simp at hq
    simpa [hne] using h.only q (hkeys ▸ hq)
  case lt =>
    intro q hq
    have hmem : q.1 ∈ (as ++ (p, x) :: bs).map Prod.fst := hkeys ▸ List.mem_map_of_mem hq
    obtain ⟨r, hr, heq⟩ := List.mem_map.mp hmem
    exact heq ▸ h.lt r hr

/-- There are at most as many items as blocks were given out. -/
theorem length_le (h : Holds l xs) : xs.length ≤ l.fresh := by
  have hsub : xs.map Prod.fst ⊆ List.range l.fresh := by
    intro p hp
    obtain ⟨q, hq, rfl⟩ := List.mem_map.mp hp
    exact mem_range.mpr (h.lt q hq)
  simpa using (h.nodup.subperm hsub).length_le

/-- Following the links gives the items the structure stands for. -/
theorem items_eq (h : Holds l xs) : l.items = xs := by
  have hgo : ∀ (n : Nat) (xs : List (Nat × α)) (e : Option Nat),
      xs.length ≤ n → Linked l.heap e xs none → itemsFrom n (firstOr none xs) l = xs := by
    intro n xs
    induction xs generalizing n with
    | nil =>
      intro e _ _
      cases n <;> rfl
    | cons x xs ih =>
      obtain ⟨p, x⟩ := x
      intro e hlen hlinked
      obtain ⟨hp, hxs⟩ := hlinked
      cases n with
      | zero => simp at hlen
      | succ n =>
        rw [firstOr_cons, itemsFrom, hp]
        exact congrArg ((p, x) :: ·) (ih n (some p) (Nat.le_of_succ_le_succ hlen) hxs)
  rw [items, h.head]
  exact hgo l.fresh xs none h.length_le h.linked

/-- The search finds the first item it looks for. -/
theorem find (h : Holds l xs) (f : α → Bool) :
    l.find f = some ((xs.find? (fun q => f q.2)).map Prod.fst) := by
  have hgo : ∀ (n : Nat) (xs : List (Nat × α)) (e : Option Nat),
      xs.length ≤ n → Linked l.heap e xs none →
      findFrom f n (firstOr none xs) l = some ((xs.find? (fun q => f q.2)).map Prod.fst) := by
    intro n xs
    induction xs generalizing n with
    | nil =>
      intro e _ _
      cases n <;> rfl
    | cons x xs ih =>
      obtain ⟨p, x⟩ := x
      intro e hlen hlinked
      obtain ⟨hp, hxs⟩ := hlinked
      cases n with
      | zero => simp at hlen
      | succ n =>
        simp only [firstOr_cons, findFrom, hp, bind_eq_bind, bind_some]
        by_cases hf : f x
        · simp [hf]
        · simp only [hf, Bool.false_eq_true, if_false]
          rw [ih n (some p) (Nat.le_of_succ_le_succ hlen) hxs]
          simp [hf]
  rw [DoubleList.find, h.head]
  exact hgo l.fresh xs none h.length_le h.linked

theorem next_none (h : Holds l xs) : l.next none = some (firstOr none xs) := by
  rw [DoubleList.next, h.head]

theorem next_some {p : Nat} (h : Holds l (as ++ (p, x) :: bs)) :
    l.next (some p) = some (firstOr none bs) := by
  simp [DoubleList.next, h.heap_eq]

/-- Giving back every block: all are gone, and the ends point where they did. -/
theorem clear (h : Holds l xs) : l.clear = some { l with heap := fun _ => none } := by
  have hgo : ∀ (n : Nat) (xs : List (Nat × α)) (e : Option Nat) (l : DoubleList α),
      xs.length ≤ n → (xs.map Prod.fst).Nodup → Linked l.heap e xs none →
      (∀ p, p ∉ xs.map Prod.fst → l.heap p = none) →
      clearFrom n (firstOr none xs) l = some { l with heap := fun _ => none } := by
    intro n xs
    induction xs generalizing n with
    | nil =>
      intro e l _ _ _ honly
      have hheap : l.heap = fun _ => none := funext fun p => honly p (by simp)
      cases n <;> simp [clearFrom, ← hheap]
    | cons x xs ih =>
      obtain ⟨p, x⟩ := x
      intro e l hlen hnd hlinked honly
      obtain ⟨hp, hxs⟩ := hlinked
      obtain ⟨hpxs, hnd⟩ := nodup_cons.mp hnd
      cases n with
      | zero => simp at hlen
      | succ n =>
        simp only [firstOr_cons, clearFrom, hp, free, map_some, bind_eq_bind,
          bind_some]
        rw [ih n (some p) _ (Nat.le_of_succ_le_succ hlen) hnd]
        · refine hxs.congr fun q hq => ?_
          have hqp : q ≠ p := fun heq => hpxs (heq ▸ hq)
          simp [hqp]
        · intro q hq
          by_cases hqp : q = p
          · simp [hqp]
          · simpa [hqp] using honly q (by simpa [hqp] using hq)
  have hall := hgo l.fresh xs none l h.length_le h.nodup h.linked h.only
  rwa [← h.head] at hall

end Holds

/-! ## After the blocks were given back -/

/-- With a tail pointer to a block that is gone, nothing can be put behind the others. -/
theorem tailInsert_of_gone {l : DoubleList α} {t : Nat} (ht : l.tail = some t)
    (hgone : l.heap t = none) (hlt : t < l.fresh) (x : α) : l.tailInsert x = none := by
  have hne : t ≠ l.fresh := Nat.ne_of_lt hlt
  simp [tailInsert, ht, write, alloc, hne, hgone]

/-- With a head pointer to a block that is gone, the blocks cannot be given back again. -/
theorem clear_of_gone {l : DoubleList α} {p : Nat} (hp : l.head = some p)
    (hgone : l.heap p = none) : l.clear = none := by
  rw [clear, hp]
  cases l.fresh with
  | zero => rfl
  | succ n => simp [clearFrom, hgone]

end DoubleList

end Honyar
