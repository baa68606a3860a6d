import Honyar.Devices.Refines

/-!
# Copies of the lists for the caller

`dev_get_list` and `dev_list_attr_get_list` walk a list and copy it to the array of the caller,
whose length stands in `*piCount`.  The walk compares the index with that length before it writes,
and writes also when they are equal.
-/

namespace Honyar.Devices

open Option (bind_eq_bind bind_some some.injEq)
open List

/-- What was written to the array of the caller, by the index, and what `*piCount` is behind it. -/
@[ext]
structure Snapshot (α : Type) where
  ast : Nat → Option α
  piCount : Nat

variable {α : Type}

namespace Snapshot

/-- Nothing was written. -/
def empty : Snapshot α := ⟨fun _ => none, 0⟩

/-- `memcpy(&ast[iCount++], x)`. -/
def push (x : α) (a : Snapshot α) : Snapshot α :=
  ⟨Function.update a.ast a.piCount (some x), a.piCount + 1⟩

/-- The first of the items, as many as there is room for. -/
def prefixOf (xs : List α) (n : Nat) : Snapshot α :=
  ⟨fun i => (xs.take n)[i]?, min xs.length n⟩

end Snapshot

/-- The loop of both calls, from the item behind `pst` on, in at most so many rounds. -/
def getListFrom (piCount : Nat) (l : Listing α) :
    Nat → Option Nat → Snapshot α → Option (Snapshot α)
  | 0, _, _ => none
  | rounds + 1, pst, a => do
    match ← l.next pst with
    | none => return a
    | some p =>
      let x ← l.data p
      getListFrom piCount l rounds (some p) (if a.piCount ≤ piCount then a.push x else a)

/-- The loop of both calls.  A walk has no more blocks than were ever given out. -/
def getList (piCount : Nat) (l : Listing α) : Option (Snapshot α) :=
  getListFrom piCount l (l.fresh + 1) none .empty

namespace DevList

/-- `dev_get_list`. -/
def devGetList (piDevCount : Nat) (s : DevList) : Option (Snapshot Device × Ret) :=
  (getList piDevCount s.devs).map fun a => (a, .noErr)

/-- `dev_list_attr_get_list`. -/
def attrGetList (pcDevId : DevId) (piDevAttrCount : Nat) (s : DevList) :
    Option (Snapshot DevAttrInfo × Ret) :=
  match s.find pcDevId with
  | none => some (⟨fun _ => none, piDevAttrCount⟩, .generalErr)
  | some p => do
    let l ← s.attrList p
    let a ← getList piDevAttrCount l
    return (a, .noErr)

end DevList

/-! ## What the loop copies -/

namespace Snapshot

theorem prefixOf_nil (n : Nat) : prefixOf ([] : List α) n = empty := by
  apply Snapshot.ext
  · funext i
    show (([] : List α).take n)[i]? = none
    rw [take_nil, getElem?_nil]
  · exact Nat.zero_min n

theorem prefixOf_push {xs : List α} {n : Nat} (h : xs.length < n) (x : α) :
    (prefixOf xs n).push x = prefixOf (xs ++ [x]) n := by
  have hlen : (xs ++ [x]).length ≤ n := by
    rw [length_append, length_singleton]
    exact h
  apply Snapshot.ext
  · funext i
    show Function.update (fun i => (xs.take n)[i]?) (min xs.length n) (some x) i =
      ((xs ++ [x]).take n)[i]?
    rw [take_of_length_le h.le, take_of_length_le hlen, min_eq_left h.le,
      Function.update_apply]
    by_cases hi : i = xs.length
    · rw [if_pos hi, hi, getElem?_concat_length]
    · rw [if_neg hi]
      rcases Nat.lt_or_gt_of_ne hi with hlt | hgt
      · rw [getElem?_append_left hlt]
      · rw [getElem?_eq_none hgt.le, getElem?_eq_none]
        rw [length_append, length_singleton]
        exact hgt
  · show min xs.length n + 1 = min (xs ++ [x]).length n
    rw [min_eq_left h.le, min_eq_left hlen, length_append, length_singleton]

theorem prefixOf_full {xs : List α} {n : Nat} (h : n ≤ xs.length) (x : α) :
    prefixOf xs n = prefixOf (xs ++ [x]) n := by
  rw [prefixOf, prefixOf, take_append_of_le_length h, min_eq_right h,
    min_eq_right (by rw [length_append]; omega)]

theorem prefixOf_succ_iff {xs : List α} {n : Nat} :
    prefixOf xs (n + 1) = prefixOf xs n ↔ xs.length ≤ n := by
  constructor
  · intro h
    have hcount : min xs.length (n + 1) = min xs.length n := congrArg piCount h
    omega
  · intro h
    rw [prefixOf, prefixOf, take_of_length_le h, take_of_length_le (by omega),
      min_eq_left h, min_eq_left (by omega)]

end Snapshot

variable {l : Listing α} {piCount : Nat}

theorem getListFrom_eq (hgone : l.gone = false) {todo : List (Nat × α)} :
    ∀ {done : List (Nat × α)} {rounds : Nat}, l.nodes = done ++ todo → todo.length < rounds →
      getListFrom piCount l rounds (done.map Prod.fst).getLast?
          (.prefixOf (done.map Prod.snd) (piCount + 1)) =
        some (.prefixOf (l.nodes.map Prod.snd) (piCount + 1)) := by
  induction todo with
  | nil =>
    intro done rounds hnodes hrounds
    obtain ⟨rounds, rfl⟩ := Nat.exists_eq_succ_of_ne_zero hrounds.ne'
    have hsplit : l.nodes.map Prod.fst = done.map Prod.fst ++ [] := by
      rw [hnodes, map_append, map_nil]
    rw [getListFrom, Listing.next_eq hsplit hgone, hnodes, append_nil]
    rfl
  | cons n todo ih =>
    obtain ⟨p, x⟩ := n
    intro done rounds hnodes hrounds
    obtain ⟨rounds, rfl⟩ := Nat.exists_eq_succ_of_ne_zero (Nat.ne_zero_of_lt hrounds)
    have hsplit : l.nodes.map Prod.fst = done.map Prod.fst ++ p :: todo.map Prod.fst := by
      rw [hnodes, map_append, map_cons]
    have hmem : (p, x) ∈ l.nodes := by
      rw [hnodes]
      exact mem_append_right _ mem_cons_self
    have hmoved : l.nodes = (done ++ [(p, x)]) ++ todo := by
      rw [hnodes, append_assoc, singleton_append]
    have hrest := ih hmoved (Nat.lt_of_succ_lt_succ hrounds)
    have hlast : ((done ++ [(p, x)]).map Prod.fst).getLast? = some p := by
      rw [map_append, getLast?_append]
      rfl
    rw [hlast, map_append] at hrest
    rw [getListFrom, Listing.next_eq hsplit hgone, head?_cons]
    show ((l.data p).bind fun x => _) = _
    rw [Listing.data_eq_some hmem, bind_some, ← hrest]
    congr 1
    show (if min (done.map Prod.snd).length (piCount + 1) ≤ piCount then _ else _) = _
    by_cases hroom : (done.map Prod.snd).length < piCount + 1
    · rw [if_pos (by omega), Snapshot.prefixOf_push hroom]
      rfl
    · rw [if_neg (by omega)]
      exact Snapshot.prefixOf_full (by omega) x

theorem getList_eq (piCount : Nat) (l : Listing α) :
    getList piCount l =
      if l.gone then none else some (.prefixOf (l.nodes.map Prod.snd) (piCount + 1)) := by
  rw [getList]
  by_cases hgone : l.gone = true
  · rw [if_pos hgone, getListFrom, Listing.next, if_pos hgone]
    rfl
  · have hlen : l.nodes.length < l.fresh + 1 := by
      have hle := l.length_le
      rw [length_map] at hle
      exact Nat.lt_succ_of_le hle
    rw [if_neg hgone, ← getListFrom_eq (Bool.eq_false_iff.mpr hgone) (nil_append _).symm hlen,
      map_nil, map_nil, Snapshot.prefixOf_nil]
    rfl

/-- The first items are copied, as many as there is room for, exactly where there is room for
all. -/
theorem getList_iff (piCount : Nat) (l : Listing α) :
    getList piCount l = some (.prefixOf (l.nodes.map Prod.snd) piCount) ↔
      l.gone = false ∧ l.nodes.length ≤ piCount := by
  rw [getList_eq]
  by_cases hgone : l.gone = true
  · rw [if_pos hgone]
    refine iff_of_false (fun h => by cases h) fun h => ?_
    rw [hgone] at h
    cases h.1
  · rw [if_neg hgone, some.injEq, Snapshot.prefixOf_succ_iff, length_map]
    exact (and_iff_right (Bool.eq_false_iff.mpr hgone)).symm

/-- Both calls copy the first items, as many as there is room for, exactly where there is room
for all and the list does not point at blocks that were given back. -/
theorem lists_copied_iff (s : DevList) :
    (∀ piDevCount, s.devGetList piDevCount =
        some (.prefixOf (s.devs.nodes.map Prod.snd) piDevCount, .noErr) ↔
      s.devs.gone = false ∧ s.devs.nodes.length ≤ piDevCount) ∧
    ∀ pcDevId p l, s.find pcDevId = some p → s.attrList p = some l → ∀ piDevAttrCount,
      (s.attrGetList pcDevId piDevAttrCount =
          some (.prefixOf (l.nodes.map Prod.snd) piDevAttrCount, .noErr) ↔
        l.gone = false ∧ l.nodes.length ≤ piDevAttrCount) := by
  -- the return value is the same whatever was copied
  have hret {α : Type} (r : Option (Snapshot α)) (a : Snapshot α) :
      r.map (fun a => (a, Ret.noErr)) = some (a, .noErr) ↔ r = some a := by
    cases r <;> simp
  constructor
  · intro piDevCount
    rw [DevList.devGetList, hret, getList_iff]
  · intro pcDevId p l hfind hl piDevAttrCount
    have hcode : s.attrGetList pcDevId piDevAttrCount =
        (getList piDevAttrCount l).map fun a => (a, .noErr) := by
      simp only [DevList.attrGetList, hfind, hl, bind_eq_bind, bind_some]
      cases getList piDevAttrCount l <;> rfl
    rw [hcode, hret, getList_iff]

/-- Two devices, the second with one attribute. -/
def twoDevices : Option DevList := do
  let (s, _) ← (newDevList false).add ⟨['A'], by decide⟩ blankInfo
  let (s, _) ← s.add ⟨['B'], by decide⟩ blankInfo
  let (s, _) ← s.attrAdd ⟨['B'], by decide⟩ ⟨⟨['k'], by decide⟩, ⟨['1'], by decide⟩⟩
  return s

/-- Both lists fit. -/
theorem lists_copied_sample :
    ∃ s l, twoDevices = some s ∧ s.attrList 1 = some l ∧
      s.devGetList 2 = some (.prefixOf (s.devs.nodes.map Prod.snd) 2, .noErr) ∧
      s.attrGetList ⟨['B'], by decide⟩ 1 =
        some (.prefixOf (l.nodes.map Prod.snd) 1, .noErr) :=
  ⟨_, _, rfl, rfl, ((lists_copied_iff _).1 2).mpr (by decide +kernel),
    ((lists_copied_iff _).2 _ 1 _ rfl rfl 1).mpr (by decide +kernel)⟩

/-- An array of one device is written to behind its end, and an array without room for an
attribute gets one. -/
theorem lists_not_copied :
    ∃ s l, twoDevices = some s ∧ s.attrList 1 = some l ∧
      (s.devGetList 1).map (fun r => ((r.1.ast 1).isSome, r.1.piCount)) = some (true, 2) ∧
      (s.attrGetList ⟨['B'], by decide⟩ 0).map (fun r => ((r.1.ast 0).isSome, r.1.piCount)) =
        some (true, 1) ∧
      s.devGetList 1 ≠ some (.prefixOf (s.devs.nodes.map Prod.snd) 1, .noErr) ∧
      s.attrGetList ⟨['B'], by decide⟩ 0 ≠
        some (.prefixOf (l.nodes.map Prod.snd) 0, .noErr) := by
  refine ⟨_, _, rfl, rfl, by decide +kernel, by decide +kernel, fun h => ?_, fun h => ?_⟩
  · have hcount := congrArg (Option.map fun r => r.1.piCount) h
    revert hcount
    decide +kernel
  · have hcount := congrArg (Option.map fun r => r.1.piCount) h
    revert hcount
    decide +kernel

end Honyar.Devices
