import Honyar.Lib.DoubleList

/-!
# Doubly linked lists by their items

The same list as its items with the addresses of their blocks.  Clearing the blocks leaves the
ends pointing at blocks that are gone, so besides the items there is a note of that; a list in
that state cannot be walked, appended to or cleared again.  Every operation on the blocks does
what the operation here says.
-/

namespace Honyar

open List

/-- The items in order, the first address not given out yet, and whether the ends still point
at blocks that were given back. -/
structure Listing (α : Type) where
  nodes : List (Nat × α)
  fresh : Nat
  gone : Bool
  nodup : (nodes.map Prod.fst).Nodup
  lt : ∀ q ∈ nodes, q.1 < fresh
  gone_nil : gone = true → nodes = []

namespace Listing

variable {α : Type}
variable {p : Nat} {x : α} {as bs : List (Nat × α)}

def empty : Listing α := ⟨[], 0, false, nodup_nil, by simp, by simp⟩

/-- Putting an item behind the others; after a clear there is no block to put it behind. -/
def tailInsert (a : Listing α) (x : α) : Option (Listing α) :=
  if h : a.gone = true then none
  else some
    { nodes := a.nodes ++ [(a.fresh, x)]
      fresh := a.fresh + 1
      gone := false
      nodup := by
        rw [map_append, nodup_append]
        refine ⟨a.nodup, nodup_singleton _, ?_⟩
        rintro p hp q hq rfl
        obtain ⟨y, hy, rfl⟩ := mem_map.mp hp
        exact absurd (a.lt y hy) (by rw [mem_singleton.mp hq]; exact Nat.lt_irrefl _)
      lt := by
        intro q hq
        rcases mem_append.mp hq with hq | hq
        · exact Nat.lt_succ_of_lt (a.lt q hq)
        · rw [mem_singleton.mp hq]
          exact Nat.lt_succ_self _
      gone_nil := by simp }

/-- Taking out the item of a block. -/
def del (a : Listing α) (p : Nat) : Option (Listing α) :=
  if h : p ∈ a.nodes.map Prod.fst then
    some
      { nodes := a.nodes.eraseP (·.1 = p)
        fresh := a.fresh
        gone := a.gone
        nodup := a.nodup.sublist (eraseP_sublist.map _)
        lt := fun q hq => a.lt q (mem_of_mem_eraseP hq)
        gone_nil := fun hg => by rw [a.gone_nil hg]; rfl }
  else none

/-- The item of a block. -/
def data (a : Listing α) (p : Nat) : Option α :=
  (a.nodes.find? (·.1 = p)).map Prod.snd

/-- The items with that of `p` changed. -/
def change (p : Nat) (f : α → α) (xs : List (Nat × α)) : List (Nat × α) :=
  xs.map fun q => if q.1 = p then (q.1, f q.2) else q

@[simp] theorem map_fst_change (p : Nat) (f : α → α) (xs : List (Nat × α)) :
    (change p f xs).map Prod.fst = xs.map Prod.fst := by
  rw [change, map_map]
  refine map_congr_left fun q _ => ?_
  by_cases hq : q.1 = p <;> simp [hq]

/-- Writing to the item of a block. -/
def modify (a : Listing α) (p : Nat) (f : α → α) : Option (Listing α) :=
  if p ∈ a.nodes.map Prod.fst then
    some
      { nodes := change p f a.nodes
        fresh := a.fresh
        gone := a.gone
        nodup := by rw [map_fst_change]; exact a.nodup
        lt := by
          intro q hq
          have hmem : q.1 ∈ a.nodes.map Prod.fst :=
            map_fst_change p f a.nodes ▸ mem_map_of_mem hq
          obtain ⟨r, hr, heq⟩ := mem_map.mp hmem
          exact heq ▸ a.lt r hr
        gone_nil := fun hg => by rw [a.gone_nil hg]; rfl }
  else none

/-- The block of the first item looked for; after a clear there is none to look at. -/
def find (f : α → Bool) (a : Listing α) : Option (Option Nat) :=
  if a.gone then none else some ((a.nodes.find? fun q => f q.2).map Prod.fst)

/-- The block after one, or the first; after a clear there is none to look at. -/
def next (a : Listing α) : Option Nat → Option (Option Nat)
  | none => if a.gone then none else some (DoubleList.firstOr none a.nodes)
  | some p =>
    if p ∈ a.nodes.map Prod.fst then
      some (DoubleList.firstOr none ((a.nodes.dropWhile fun q => q.1 ≠ p).drop 1))
    else none

/-- Giving back every block, which can be done once. -/
def clear (a : Listing α) : Option (Listing α) :=
  if a.gone then none
  else some
    { nodes := []
      fresh := a.fresh
      gone := !a.nodes.isEmpty
      nodup := nodup_nil
      lt := by simp
      gone_nil := fun _ => rfl }

/-- The place of an item. -/
theorem split_of_mem (a : Listing α) (h : (p, x) ∈ a.nodes) :
    ∃ as bs, a.nodes = as ++ (p, x) :: bs ∧ p ∉ as.map Prod.fst ∧ p ∉ bs.map Prod.fst := by
  obtain ⟨as, bs, hsplit⟩ := append_of_mem h
  have hnd := a.nodup
  rw [hsplit] at hnd
  simp only [map_append, map_cons] at hnd
  obtain ⟨-, hndB, hdisj⟩ := nodup_append.mp hnd
  exact ⟨as, bs, hsplit, fun hm => hdisj p hm p mem_cons_self rfl,
    (nodup_cons.mp hndB).1⟩

theorem exists_split {a : Listing α} (h : p ∈ a.nodes.map Prod.fst) :
    ∃ x as bs, a.nodes = as ++ (p, x) :: bs := by
  obtain ⟨x, hx, hp⟩ := mem_map.mp h
  obtain ⟨as, bs, hsplit⟩ := append_of_mem hx
  exact ⟨x.2, as, bs, by rw [hsplit, ← hp]⟩

/-- There are at most as many items as addresses were given out. -/
theorem length_le (a : Listing α) : (a.nodes.map Prod.fst).length ≤ a.fresh := by
  have hsub : a.nodes.map Prod.fst ⊆ List.range a.fresh := by
    intro p hp
    obtain ⟨q, hq, rfl⟩ := mem_map.mp hp
    exact mem_range.mpr (a.lt q hq)
  simpa using (a.nodup.subperm hsub).length_le

theorem find?_split (hA : p ∉ as.map Prod.fst) :
    (as ++ (p, x) :: bs).find? (fun q => decide (q.1 = p)) = some (p, x) := by
  have hnot : as.find? (fun q => decide (q.1 = p)) = none := by
    rw [find?_eq_none]
    exact fun y hy heq => hA (mem_map.mpr ⟨y, hy, by simpa using heq⟩)
  simp [find?_append, hnot]

/-- Other items are looked for behind one. -/
theorem find?_skip {q : Nat} (as bs : List (Nat × α)) (x : α) (h : p ≠ q) :
    (as ++ (p, x) :: bs).find? (·.1 = q) = (as ++ bs).find? (·.1 = q) := by
  rw [find?_append, find?_append, find?_cons_of_neg (by simpa using h)]

theorem eraseP_split (hA : p ∉ as.map Prod.fst) :
    (as ++ (p, x) :: bs).eraseP (fun q => decide (q.1 = p)) = as ++ bs := by
  have hnot : ∀ y ∈ as, ¬ (decide (y.1 = p)) = true := fun y hy heq =>
    hA (mem_map.mpr ⟨y, hy, by simpa using heq⟩)
  rw [eraseP_append_right _ hnot, eraseP_cons_of_pos (by simp)]

theorem change_split (hA : p ∉ as.map Prod.fst) (hB : p ∉ bs.map Prod.fst) (f : α → α) :
    change p f (as ++ (p, x) :: bs) = as ++ (p, f x) :: bs := by
  have hself : ∀ ys : List (Nat × α), p ∉ ys.map Prod.fst → change p f ys = ys := by
    intro ys hys
    refine (map_congr_left fun y hy => ?_).trans (map_id ys)
    have hne : y.1 ≠ p := fun heq => hys (heq ▸ mem_map_of_mem hy)
    simp [hne]
  have happ : change p f (as ++ (p, x) :: bs) = change p f as ++ (p, f x) :: change p f bs := by
    simp [change]
  rw [happ, hself as hA, hself bs hB]

theorem data_eq_some {a : Listing α} (h : (p, x) ∈ a.nodes) : a.data p = some x := by
  obtain ⟨as, bs, hsplit, hA, -⟩ := a.split_of_mem h
  rw [data, hsplit, find?_split hA]
  rfl

theorem mem_of_data {a : Listing α} (h : a.data p = some x) : (p, x) ∈ a.nodes := by
  obtain ⟨⟨q, y⟩, hfind, rfl⟩ := Option.map_eq_some_iff.mp h
  obtain rfl : q = p := by simpa using find?_some hfind
  exact mem_of_find?_eq_some hfind

theorem data_eq_none {a : Listing α} (h : p ∉ a.nodes.map Prod.fst) : a.data p = none := by
  rw [data, Option.map_eq_none_iff, find?_eq_none]
  exact fun y hy heq => h (mem_map.mpr ⟨y, hy, by simpa using heq⟩)

/-- An address stands at one place only. -/
theorem notMem_of_split {a : Listing α} (h : a.nodes = as ++ (p, x) :: bs) :
    p ∉ as.map Prod.fst ∧ p ∉ bs.map Prod.fst := by
  have hnd := a.nodup
  rw [h, map_append, map_cons] at hnd
  obtain ⟨-, hndB, hdisj⟩ := nodup_append.mp hnd
  exact ⟨fun hm => hdisj p hm p mem_cons_self rfl, (nodup_cons.mp hndB).1⟩

theorem exists_del {a : Listing α} (h : a.nodes = as ++ (p, x) :: bs) :
    ∃ a', a.del p = some a' ∧ a'.nodes = as ++ bs ∧ a'.gone = a.gone := by
  have hmem : p ∈ a.nodes.map Prod.fst := by
    rw [h]
    simp
  refine ⟨_, dif_pos hmem, ?_, rfl⟩
  show a.nodes.eraseP _ = _
  rw [h, eraseP_split (notMem_of_split h).1]

theorem exists_modify {a : Listing α} (h : a.nodes = as ++ (p, x) :: bs) (f : α → α) :
    ∃ a', a.modify p f = some a' ∧ a'.nodes = as ++ (p, f x) :: bs ∧ a'.gone = a.gone := by
  have hmem : p ∈ a.nodes.map Prod.fst := by
    rw [h]
    simp
  refine ⟨_, if_pos hmem, ?_, rfl⟩
  show change p f a.nodes = _
  rw [h, change_split (notMem_of_split h).1 (notMem_of_split h).2]

theorem exists_tailInsert {a : Listing α} (hgone : a.gone = false) (x : α) :
    ∃ a', a.tailInsert x = some a' ∧ a'.nodes = a.nodes ++ [(a.fresh, x)] ∧ a'.gone = false := by
  have hnot : ¬ a.gone = true := by
    rw [hgone]
    exact Bool.false_ne_true
  exact ⟨_, dif_neg hnot, rfl, rfl⟩

/-- The last item is found if none before it is the one looked for. -/
theorem find_last {a : Listing α} {xs : List (Nat × α)} {f : α → Bool}
    (h : a.nodes = xs ++ [(p, x)]) (hgone : a.gone = false) (hxs : ∀ q ∈ xs, f q.2 = false)
    (hx : f x = true) : a.find f = some (some p) := by
  have hnot : (xs.find? fun q => f q.2) = none :=
    find?_eq_none.mpr fun q hq => by rw [hxs q hq]; exact Bool.false_ne_true
  have hlast : ([(p, x)].find? fun q => f q.2) = some (p, x) := find?_cons_of_pos hx
  rw [find, hgone, if_neg Bool.false_ne_true, h, find?_append, hnot, hlast]
  rfl

/-- A change that changes nothing. -/
theorem change_self {a : Listing α} {f : α → α} (h : (p, x) ∈ a.nodes) (hf : f x = x) :
    change p f a.nodes = a.nodes := by
  obtain ⟨as, bs, hsplit, hA, hB⟩ := a.split_of_mem h
  rw [hsplit, change_split hA hB, hf]

theorem firstOr_none (xs : List (Nat × α)) :
    DoubleList.firstOr none xs = (xs.map Prod.fst).head? := by
  cases xs <;> rfl

/-- A walk that has come to the end of `done` goes on with the first of `todo`. -/
theorem next_eq {a : Listing α} {done todo : List Nat} (h : a.nodes.map Prod.fst = done ++ todo)
    (hgone : a.gone = false) : a.next done.getLast? = some todo.head? := by
  rcases eq_nil_or_concat done with rfl | ⟨done, p, rfl⟩
  · rw [getLast?_nil, next, hgone, if_neg (by simp), firstOr_none, h, nil_append]
  · rw [concat_eq_append] at h ⊢
    rw [append_assoc] at h
    obtain ⟨as, cs, hnodes, rfl, hcs⟩ := map_eq_append_iff.mp h
    rw [singleton_append] at hcs
    obtain ⟨⟨q, x⟩, bs, rfl, rfl, rfl⟩ := map_eq_cons_iff.mp hcs
    have hmem : (q, x) ∈ a.nodes := by
      rw [hnodes]
      exact mem_append_right _ mem_cons_self
    have hA : q ∉ as.map Prod.fst := (notMem_of_split hnodes).1
    have hdrop : (a.nodes.dropWhile fun y => decide (y.1 ≠ q)) = (q, x) :: bs := by
      rw [hnodes, dropWhile_append_of_pos]
      · simp
      · exact fun y hy => decide_eq_true fun heq => hA (heq ▸ mem_map_of_mem hy)
    rw [getLast?_append, getLast?_singleton, Option.some_or, next,
      if_pos (mem_map_of_mem (f := Prod.fst) hmem), hdrop, drop_one, tail_cons,
      firstOr_none]

/-! ## The blocks behind it -/

/-- The blocks `l` are those of the list, or those of a list that was cleared. -/
structure Rep (l : DoubleList α) (a : Listing α) : Prop where
  fresh : l.fresh = a.fresh
  holds : a.gone = false → l.Holds a.nodes
  left : a.gone = true → a.nodes = [] ∧ l.heap = (fun _ => none) ∧
    ∃ p t, l.head = some p ∧ l.tail = some t ∧ t < l.fresh

variable {l : DoubleList α} {a : Listing α}

namespace Rep

theorem tailInsert (h : Rep l a) (x : α) :
    Option.Rel Rep (l.tailInsert x) (a.tailInsert x) := by
  by_cases hgone : a.gone = true
  · obtain ⟨-, hheap, p, t, -, ht, hlt⟩ := h.left hgone
    rw [Listing.tailInsert, dif_pos hgone,
      DoubleList.tailInsert_of_gone ht (congrFun hheap t) hlt]
    exact .none
  · have hfalse : a.gone = false := by simpa using hgone
    obtain ⟨l', hins, hfresh, hholds⟩ := (h.holds hfalse).tailInsert x
    rw [Listing.tailInsert, dif_neg hgone, hins]
    refine .some ⟨by rw [hfresh, h.fresh], fun _ => ?_, fun hg => by simp at hg⟩
    change l'.Holds (a.nodes ++ [(a.fresh, x)])
    rwa [← h.fresh]

/-- The place of an item in the list. -/
theorem split (h : Rep l a) (hp : p ∈ a.nodes.map Prod.fst) :
    a.gone = false ∧ ∃ as x bs, a.nodes = as ++ (p, x) :: bs ∧ l.Holds (as ++ (p, x) :: bs) ∧
      p ∉ as.map Prod.fst ∧ p ∉ bs.map Prod.fst := by
  have hgone : a.gone = false := by
    by_contra hg
    rw [(h.left (by simpa using hg)).1] at hp
    simp at hp
  obtain ⟨⟨q, x⟩, hq, rfl⟩ := mem_map.mp hp
  obtain ⟨as, bs, hsplit, hA, hB⟩ := a.split_of_mem hq
  exact ⟨hgone, as, x, bs, hsplit, hsplit ▸ h.holds hgone, hA, hB⟩

/-- No block for an address that is not in the list. -/
theorem heap_eq_none (h : Rep l a) (hp : p ∉ a.nodes.map Prod.fst) : l.heap p = none := by
  by_cases hgone : a.gone = true
  · rw [(h.left hgone).2.1]
  · exact (h.holds (by simpa using hgone)).only p hp

theorem del (h : Rep l a) (p : Nat) : Option.Rel Rep (l.del p) (a.del p) := by
  by_cases hp : p ∈ a.nodes.map Prod.fst
  · obtain ⟨hgone, as, x, bs, hsplit, hholds, hA, -⟩ := h.split hp
    obtain ⟨l', hdel, hfresh, hholds'⟩ := hholds.del
    rw [Listing.del, dif_pos hp, hdel]
    refine .some ⟨by rw [hfresh, h.fresh], fun _ => ?_, fun hg => ?_⟩
    · change l'.Holds (a.nodes.eraseP _)
      rwa [hsplit, eraseP_split hA]
    · exact absurd hg (by simp [hgone])
  · have hnone := h.heap_eq_none hp
    have hdel : l.del p = none := by
      unfold DoubleList.del
      split
      · simp [DoubleList.free, hnone]
      · split
        · simp [hnone]
        · split <;> simp [hnone]
    rw [Listing.del, dif_neg hp, hdel]
    exact .none

theorem data (h : Rep l a) (p : Nat) : l.data p = a.data p := by
  by_cases hp : p ∈ a.nodes.map Prod.fst
  · obtain ⟨-, as, x, bs, hsplit, hholds, hA, -⟩ := h.split hp
    rw [Listing.data, hsplit, find?_split hA, DoubleList.data, hholds.heap_eq]
    rfl
  · rw [data_eq_none hp, DoubleList.data, h.heap_eq_none hp]
    rfl

theorem modify (h : Rep l a) (p : Nat) (f : α → α) :
    Option.Rel Rep (l.modify p f) (a.modify p f) := by
  by_cases hp : p ∈ a.nodes.map Prod.fst
  · obtain ⟨hgone, as, x, bs, hsplit, hholds, hA, hB⟩ := h.split hp
    obtain ⟨l', hmod, hfresh, hholds'⟩ := hholds.modify f
    rw [Listing.modify, if_pos hp, hmod]
    refine .some ⟨by rw [hfresh, h.fresh], fun _ => ?_, fun hg => ?_⟩
    · change l'.Holds (change p f a.nodes)
      rwa [hsplit, change_split hA hB]
    · exact absurd hg (by simp [hgone])
  · rw [Listing.modify, if_neg hp]
    have hmod : l.modify p f = none := by
      simp [DoubleList.modify, DoubleList.write, h.heap_eq_none hp]
    rw [hmod]
    exact .none

/-- The walk that looks for an item; a list that was cleared has no first block to look at. -/
theorem find (h : Rep l a) (f : α → Bool) : l.find f = a.find f := by
  by_cases hgone : a.gone = true
  · obtain ⟨-, hheap, p, t, hp, -, -⟩ := h.left hgone
    rw [Listing.find, if_pos hgone, DoubleList.find, hp]
    cases l.fresh with
    | zero => rfl
    | succ n => simp [DoubleList.findFrom, hheap]
  · rw [Listing.find, if_neg hgone]
    exact (h.holds (by simpa using hgone)).find f

/-- A step of a walk, which after a clear meets a block that is gone. -/
theorem next (h : Rep l a) (e : Option Nat) (he : e = none → a.gone = false) :
    l.next e = a.next e := by
  cases e with
  | none =>
    rw [Listing.next, he rfl, if_neg (by simp)]
    exact (h.holds (he rfl)).next_none
  | some p =>
    by_cases hp : p ∈ a.nodes.map Prod.fst
    · obtain ⟨-, as, x, bs, hsplit, hholds, hA, -⟩ := h.split hp
      have hdrop : (a.nodes.dropWhile fun q => decide (q.1 ≠ p)) = (p, x) :: bs := by
        rw [hsplit, dropWhile_append_of_pos]
        · simp
        · exact fun y hy => decide_eq_true fun heq => hA (heq ▸ mem_map_of_mem hy)
      rw [Listing.next, if_pos hp, hdrop]
      exact hholds.next_some
    · simp [Listing.next, hp, DoubleList.next, h.heap_eq_none hp]

theorem clear (h : Rep l a) : Option.Rel Rep l.clear a.clear := by
  by_cases hgone : a.gone = true
  · obtain ⟨-, hheap, p, t, hp, -, -⟩ := h.left hgone
    rw [Listing.clear, if_pos hgone, DoubleList.clear_of_gone hp (congrFun hheap p)]
    exact .none
  · have hholds := h.holds (by simpa using hgone)
    rw [Listing.clear, if_neg hgone, hholds.clear]
    refine .some ⟨h.fresh, fun hg => ?_, fun hg => ⟨rfl, rfl, ?_⟩⟩
    · obtain hnil : a.nodes = [] := by simpa using hg
      rw [hnil] at hholds
      exact ⟨nodup_nil, hholds.head, hholds.tail, trivial, fun _ _ => rfl, by simp⟩
    · have hne : a.nodes ≠ [] := by simpa using hg
      obtain ⟨ys, ⟨t, y⟩, hys⟩ := a.nodes.eq_nil_or_concat.resolve_left hne
      obtain ⟨⟨p, x⟩, xs, hxs⟩ := exists_cons_of_ne_nil hne
      have hhead := hholds.head
      have htail := hholds.tail
      rw [hxs] at hhead
      rw [hys, concat_eq_append, DoubleList.lastOr_concat] at htail
      exact ⟨p, t, hhead, htail, hholds.lt (t, y) (by rw [hys]; simp)⟩

end Rep

end Listing

end Honyar
