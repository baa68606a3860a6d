import Honyar.LinkList.Double

/-!
# The ordered list of the SDK

`order_link_list.c`: the same blocks and for the most part the same functions as the doubly linked
list, with positions besides.  Two of its functions go their own way: putting a block before the
first one writes a wrong predecessor, and deleting by position forgets the only block.
-/

namespace Honyar.LinkList

open Option List DoubleList

variable (l : LinkedList)

/-- `order_link_list_next`. -/
def orderLinkListNext (pCurrentData : Option Nat) : Option (Option Nat) :=
  doubleLinkListNext l pCurrentData

/-- `order_link_list_find`. -/
def orderLinkListFind (pCmpDataCb : Data → Data → Bool) (pData : Data) : Option (Option Nat) :=
  doubleLinkListFind l pCmpDataCb pData

/-- So many blocks behind one. -/
def nthFrom (l : LinkedList) : Nat → Option Nat → Option (Option Nat)
  | _, none => some none
  | 0, some p => some (some p)
  | n + 1, some p => do
    let c ← l.list.heap p
    nthFrom l n c.next

/-- `order_link_list_find_by_id`. -/
def orderLinkListFindById (iIndex : Int) : Option (Option Nat) :=
  if iIndex < 0 then some none else nthFrom l iIndex.toNat l.list.head

/-- How many blocks lie between one and the one looked for, in at most `n` of them. -/
def indexFrom (l : LinkedList) (pCurrentData : Nat) : Nat → Option Nat → Option (Option Nat)
  | _, none => some none
  | 0, some _ => none
  | n + 1, some p =>
    if p = pCurrentData then some (some 0)
    else do
      let c ← l.list.heap p
      let i ← indexFrom l pCurrentData n c.next
      return i.map (· + 1)

/-- `order_link_list_index`; `none` where it is `GeneralErr`. -/
def orderLinkListIndex : Option Nat → Option (Option Nat)
  | none => some none
  | some p => indexFrom l p l.list.fresh l.list.head

/-- `order_link_list_insert` before a block, where there is data.  The predecessor of the first
block becomes what follows the new one, which is the first block itself. -/
def orderLinkListInsertNode (mem : Bool) (pCurrNode : Option Nat) (pData : Data) :
    Option (LinkedList × Ret) :=
  if mem = false then some (l, .generalErr)
  else if l.list.head = pCurrNode then do
    let p := l.list.fresh
    let l' ← (l.nodeNew pData).write p fun n => { n with next := l.list.head }
    let h ← l.list.head
    let l' ← l'.write h fun n => { n with prev := some h }
    let l' := l'.setHead (some p)
    return (if l.list.tail = none then l'.setTail (some p) else l', .noErr)
  else do
    let c ← pCurrNode
    let l' ← l.linkBefore c pData
    return (l', .noErr)

/-- `order_link_list_insert`. -/
def orderLinkListInsert (mem : Bool) (pCurrentData : Option Nat) (pData : Data) :
    Option (LinkedList × Ret) :=
  if pData = [] then some (l, .generalErr)
  else
    match pCurrentData with
    | none => if mem = false then some (l, .generalErr) else none
    | some p => orderLinkListInsertNode l mem (some p) pData

/-- `order_link_list_insert_by_id`: at the front as the doubly linked list does it, else before
the block found. -/
def orderLinkListInsertById (mem : Bool) (iIndex : Int) (pData : Data) :
    Option (LinkedList × Ret) :=
  if pData = [] then some (l, .generalErr)
  else if iIndex = 0 then doubleLinkListHeadInsert l mem pData
  else do
    let found ← orderLinkListFindById l iIndex
    if mem = false then return (l, .generalErr)
    else
      let c ← found
      let l' ← l.linkBefore c pData
      return (l', .noErr)

/-- `order_link_list_append`. -/
def orderLinkListAppend (mem : Bool) (pData : Data) : Option (LinkedList × Ret) :=
  doubleLinkListTailInsert l mem pData

/-- `order_link_list_del`. -/
def orderLinkListDel (pCurrentData : Option Nat) : Option (LinkedList × Ret) :=
  doubleLinkListDel l pCurrentData

/-- `order_link_list_del_by_id`: the first, the last or one in between. -/
def orderLinkListDelById (iIndex : Int) : Option (LinkedList × Ret) :=
  if iIndex < 0 then some (l, .generalErr)
  else do
    let found ← orderLinkListFindById l iIndex
    let p ← found
    let c ← l.list.heap p
    if l.list.head = some p then
      let q ← c.next
      let l' ← (l.setHead c.next).write q fun n => { n with prev := none }
      let l' ← l'.nodeDestroy p
      return (l', .noErr)
    else if l.list.tail = some p then
      let q ← c.prev
      let l' ← (l.setTail c.prev).write q fun n => { n with next := none }
      let l' ← l'.nodeDestroy p
      return (l', .noErr)
    else
      let q ← c.prev
      let l' ← l.write q fun n => { n with next := c.next }
      let c ← l'.list.heap p
      let q ← c.next
      let l' ← l'.write q fun n => { n with prev := c.prev }
      let l' ← l'.nodeDestroy p
      return (l', .noErr)

/-- `order_link_list_clear`. -/
def orderLinkListClear : Option (LinkedList × Ret) := doubleLinkListClear l

/-- `order_link_list_set`. -/
def orderLinkListSet (mem : Bool) (pCurrentData : Option Nat) (pData : Data) :
    Option (LinkedList × Ret) :=
  match pCurrentData with
  | none => some (l, .generalErr)
  | some p =>
    if pData = [] then some (l, .generalErr)
    else do
      let c ← l.list.heap p
      if pData.length ≤ c.data.length then
        let l' ← l.write p fun n => { n with data := pData }
        return (l', .noErr)
      else
        let (l', _) ← orderLinkListDel l (some p)
        orderLinkListInsertNode l' mem c.next pData

/-- `order_link_list_get`. -/
def orderLinkListGet (pCurrentData : Option Nat) (iDataLen : Int) : Option (Ret × Data) :=
  doubleLinkListGet l pCurrentData iDataLen

/-- `order_link_list_print`. -/
def orderLinkListPrint : Option (List Data) := doubleLinkListPrint l

inductive OrderOp where
  | len
  | next (pCurrentData : Option Nat)
  | find (pCmpDataCb : Data → Data → Bool) (pData : Data)
  | findByIndex (iIndex : Int)
  | index (pCurrentData : Option Nat)
  | insert (mem : Bool) (pCurrentData : Option Nat) (pData : Data)
  | insertById (mem : Bool) (iIndex : Int) (pData : Data)
  | append (mem : Bool) (pData : Data)
  | del (pCurrentData : Option Nat)
  | delById (iIndex : Int)
  | clear
  | set (mem : Bool) (pCurrentData : Option Nat) (pData : Data)
  | get (pCurrentData : Option Nat) (iDataLen : Int)
  | print

def orderStep (l : LinkedList) : OrderOp → Option (LinkedList × List Out)
  | .len => seen l (some (.num l.iListLen))
  | .next p => seen l ((orderLinkListNext l p).map .ptr)
  | .find cb d => seen l ((orderLinkListFind l cb d).map .ptr)
  | .findByIndex i => seen l ((orderLinkListFindById l i).map .ptr)
  | .index p => seen l ((orderLinkListIndex l p).map .ptr)
  | .insert mem p d => changed (orderLinkListInsert l mem p d)
  | .insertById mem i d => changed (orderLinkListInsertById l mem i d)
  | .append mem d => changed (orderLinkListAppend l mem d)
  | .del p => changed (orderLinkListDel l p)
  | .delById i => changed (orderLinkListDelById l i)
  | .clear => changed (orderLinkListClear l)
  | .set mem p d => changed (orderLinkListSet l mem p d)
  | .get p n => seen l ((orderLinkListGet l p n).map fun r => .data r.1 r.2)
  | .print => seen l ((orderLinkListPrint l).map .all)

/-! ## The sequence it stands for -/

namespace Sequence

/-- The index is that of an element. -/
def At (s : Sequence) (i : Int) : Prop := 0 ≤ i ∧ i.toNat < s.elems.length

instance decidableAt (s : Sequence) (i : Int) : Decidable (s.At i) :=
  inferInstanceAs (Decidable (_ ∧ _))

/-- A new element in the place of another one. -/
def replace (s : Sequence) (mem : Bool) (p : Nat) (d : Data) : Sequence × List Out :=
  s.insert mem d fun e xs => xs.map fun x => if x.1 = p then e else x

/-- The calls of `order_link_list.c` that change a list: what has no place is refused, and so is
what there is no memory for. -/
def orderStep (s : Sequence) : OrderOp → Option (Sequence × List Out)
  | .insert mem (some p) d => if s.Live p then some (s.insert mem d (before p)) else none
  | .insertById mem i d =>
    some (if i = 0 ∨ s.At i then s.insert mem d fun e xs => xs.insertIdx i.toNat e
      else (s, [.ret .generalErr]))
  | .append mem d => some (s.insert mem d fun e xs => xs ++ [e])
  | .del (some p) => if s.Live p then some (s.del p) else none
  | .delById i =>
    some (if s.At i then (⟨s.elems.eraseIdx i.toNat, s.made⟩, [.ret .noErr])
      else (s, [.ret .generalErr]))
  | .set mem (some p) d =>
    if s.Live p then some (if s.Holds p d then s.set p d else s.replace mem p d) else none
  | _ => none

open DoubleList (firstOr lastOr)

/-- Nothing is put before the first element but by its position, no position without an element
is asked for but a negative one, where that is an error anyway, the only element is not taken
out by its position, and longer data goes to an element between two others, where there is memory
for it. -/
def Regular (s : Sequence) : OrderOp → Prop
  | .insert mem (some p) d => d = [] ∨ mem = false ∨ firstOr none s.elems ≠ some p
  | .insertById mem i d => d = [] ∨ mem = false ∨ i = 0 ∨ s.At i
  | .delById i => i < 0 ∨ (s.At i ∧ s.elems.length ≠ 1)
  | .set mem (some p) d =>
    s.Holds p d ∨
      (mem = true ∧ firstOr none s.elems ≠ some p ∧ lastOr none s.elems ≠ some p)
  | _ => True

instance decidableRegular (s : Sequence) (op : OrderOp) : Decidable (s.Regular op) :=
  match op with
  | .insert _ (some _) _ => inferInstanceAs (Decidable (_ ∨ _))
  | .insertById _ _ _ => inferInstanceAs (Decidable (_ ∨ _))
  | .delById _ => inferInstanceAs (Decidable (_ ∨ _))
  | .set _ (some _) _ => inferInstanceAs (Decidable (_ ∨ _))
  | .len | .next _ | .find _ _ | .findByIndex _ | .index _ | .insert _ none _ | .append _ _
  | .del _ | .clear | .set _ none _ | .get _ _ | .print => isTrue trivial

theorem insertIdx_split (as bs : List (Nat × Data)) (e : Nat × Data) :
    (as ++ bs).insertIdx as.length e = as ++ e :: bs := by
  induction as with
  | nil => rfl
  | cons a as ih => exact congrArg (a :: ·) ih

end Sequence

namespace LinkedList

open DoubleList (firstOr lastOr lastOr_concat lastOr_eq_none)

variable {l l' : LinkedList} {s s' : Sequence} {as bs : List (Nat × Data)} {p : Nat}
  {d x : Data} {mem : Bool} {o : List Out}

theorem Stands.ends (h : l.Stands s) (heq : s.elems = as ++ (p, x) :: bs) :
    (firstOr none s.elems = some p ↔ as = []) ∧ (lastOr none s.elems = some p ↔ bs = []) := by
  have hholds := heq ▸ h.holds
  rw [← h.holds.head, ← h.holds.tail, hholds.ends.1, hholds.ends.2.1, lastOr_eq_none]
  refine ⟨Iff.rfl, ?_⟩
  cases bs with
  | nil => exact iff_of_true rfl rfl
  | cons b bs => exact iff_of_false (some_ne_none _) (cons_ne_nil _ _)

theorem not_refines_of_loop {n : Nat} {c : DoubleNode Data} (hc : l.list.heap p = some c)
    (hloop : c.prev = some p) (hne : p ≠ n) : ¬ l.Refines ((n, d) :: (p, x) :: bs) := by
  intro h
  have hback := h.backwards
  rw [reverse_cons, reverse_cons, append_assoc] at hback
  obtain ⟨o, -, rfl, c', hc', -, hn, -⟩ := visits_append.mp hback
  obtain rfl := some.inj (hc.symm.trans hc')
  exact hne (some.inj (hloop.symm.trans hn))

theorem insertNode_first (h : l.list.Holds ((p, x) :: bs)) (d : Data) :
    ∃ l', orderLinkListInsertNode l true (some p) d = some (l', .noErr) ∧
      l'.list.heap p = some ⟨firstOr none bs, some p, x⟩ := by
  have hhead : l.list.head = some p := h.head
  have hp : l.list.heap p = some ⟨firstOr none bs, none, x⟩ := h.linked.1
  have hne : p ≠ l.list.fresh := fun heq => h.fresh_notMem (by simp [heq])
  have hcalc : ∃ tail, orderLinkListInsertNode l true (some p) d = some (⟨⟨Function.update
      (Function.update (Function.update l.list.heap l.list.fresh (some ⟨none, none, d⟩))
        l.list.fresh (some ⟨some p, none, d⟩)) p (some ⟨firstOr none bs, some p, x⟩),
      some l.list.fresh, tail, l.list.fresh + 1⟩, l.iListLen + 1⟩, .noErr) := by
    by_cases htail : l.list.tail = none <;>
      simp [orderLinkListInsertNode, hhead, htail, nodeNew, write, DoubleList.write,
        DoubleList.alloc, hne, hp, setHead, setTail]
  obtain ⟨tail, hcalc⟩ := hcalc
  exact ⟨_, hcalc, Function.update_self ..⟩

theorem Stands.nthFrom (h : l.Stands s) (n : Nat) :
    nthFrom l n l.list.head = some (s.elems[n]?.map Prod.fst) := by
  have hgo : ∀ (xs : List (Nat × Data)) (e : Option Nat) (n : Nat),
      DoubleList.Linked l.list.heap e xs none →
      LinkList.nthFrom l n (firstOr none xs) = some (xs[n]?.map Prod.fst) := by
    intro xs
    induction xs with
    | nil => intro e n _; cases n <;> rfl
    | cons x xs ih =>
      rintro e n ⟨hx, hxs⟩
      cases n with
      | zero => rfl
      | succ n =>
        rw [firstOr_cons, LinkList.nthFrom, hx]
        exact ih (some x.1) n hxs
  rw [h.holds.head]
  exact hgo s.elems none n h.holds.linked

theorem Stands.at (h : l.Stands s) {i : Int} (hi : s.At i) :
    ∃ as p x bs, s.elems = as ++ (p, x) :: bs ∧ as.length = i.toNat ∧
      orderLinkListFindById l i = some (some p) := by
  obtain ⟨hneg, hi⟩ := hi
  refine ⟨s.elems.take i.toNat, s.elems[i.toNat].1, s.elems[i.toNat].2,
    s.elems.drop (i.toNat + 1), ?_, length_take_of_le (Nat.le_of_lt hi), ?_⟩
  · exact (take_append_drop i.toNat s.elems).symm.trans
      (congrArg _ (drop_eq_getElem_cons hi))
  · rw [orderLinkListFindById, if_neg (Int.not_lt.mpr hneg), h.nthFrom,
      getElem?_eq_getElem hi, map_some]

theorem Stands.not_at (h : l.Stands s) {i : Int} (hi : ¬ s.At i) :
    orderLinkListFindById l i = some none := by
  by_cases hneg : i < 0
  · rw [orderLinkListFindById, if_pos hneg]
  · rw [orderLinkListFindById, if_neg hneg, h.nthFrom, getElem?_eq_none, map_none]
    exact Nat.le_of_not_lt fun hlt => hi ⟨Int.not_lt.mp hneg, hlt⟩

theorem delById_eq {i : Int} {c : DoubleNode Data} (hi : 0 ≤ i)
    (hfind : orderLinkListFindById l i = some (some p)) (hp : l.list.heap p = some c)
    (hone : ¬ (l.list.head = some p ∧ l.list.tail = some p)) :
    orderLinkListDelById l i = doubleLinkListDel l (some p) := by
  by_cases hhead : l.list.head = some p
  · have htail : l.list.tail ≠ some p := fun ht => hone ⟨hhead, ht⟩
    simp [orderLinkListDelById, doubleLinkListDel, del, Int.not_lt.mpr hi, hfind, hp,
      hhead, htail, write, nodeDestroy, setHead, write, bind_assoc]
  · by_cases htail : l.list.tail = some p <;>
      simp [orderLinkListDelById, doubleLinkListDel, del, Int.not_lt.mpr hi, hfind, hp,
        hhead, htail, write, nodeDestroy, setTail, bind_assoc]

theorem Stands.orderSet (h : l.Stands s) (hp : s.Holds p d) (hs : s.set p d = (s', o)) :
    ∃ l', changed (orderLinkListSet l mem (some p) d) = some (l', o) ∧ l'.Stands s' := by
  have heq : orderLinkListSet l mem (some p) d = doubleLinkListSet l mem (some p) d := by
    by_cases hd : d = []
    · simp [orderLinkListSet, doubleLinkListSet, hd]
    · obtain ⟨c, l', hc, hlen, -⟩ := h.write hp hd
      simp [orderLinkListSet, doubleLinkListSet, hd, hc, hlen]
  exact heq ▸ h.set hp hs

/-- Longer data goes to another block before the one behind, where there is one before it too. -/
theorem Stands.replace (h : l.Stands s) (hp : s.Live p) (hlong : ¬ s.Holds p d)
    (hfirst : firstOr none s.elems ≠ some p) (hlast : lastOr none s.elems ≠ some p)
    (hs : s.replace true p d = (s', o)) :
    ∃ l', changed (orderLinkListSet l true (some p) d) = some (l', o) ∧ l'.Stands s' := by
  have hd : d ≠ [] := by
    rintro rfl
    obtain ⟨x, hx, heq⟩ := List.mem_map.mp hp
    exact hlong ⟨x, hx, heq, Nat.zero_le _⟩
  obtain ⟨as, x, bs, heq, -⟩ := h.split hp
  have hholds := heq ▸ h.holds
  have hc := hholds.heap_eq
  have has : as ≠ [] := fun has => hfirst ((h.ends heq).1.mpr has)
  cases bs with
  | nil => exact absurd ((h.ends heq).2.mpr rfl) hlast
  | cons b bs =>
    obtain ⟨q, y⟩ := b
    have hlen : ¬ d.length ≤ x.length := fun hle => hlong ⟨(p, x), by simp [heq], rfl, hle⟩
    obtain ⟨list, hdel, hfresh, hnew⟩ := hholds.del
    have hhead : list.head ≠ some q := fun hh => has (lastOr_eq_none.mp (hnew.ends.1.mp hh))
    obtain ⟨l', hlink, hfresh', hnew'⟩ :=
      linkBefore_holds (l := ⟨list, l.iListLen - 1⟩) hnew has d
    refine h.insert (fun herr => absurd herr (by simp [hd])) (fun _ _ => ⟨l', ?_, ?_, ?_⟩) hs
    · simp [orderLinkListSet, orderLinkListDel, doubleLinkListDel, orderLinkListInsertNode, hd, hc,
        hlen, hdel, hhead, hlink]
    · exact hfresh'.trans (congrArg (· + 1) hfresh)
    · have hmap := Keyed.map_write_split (f := fun _ => (list.fresh, d)) hholds.nodup
      rw [heq, ← hfresh]
      exact hmap.symm ▸ hnew'

/-- A call that is regular does to the list what it does to the sequence. -/
theorem Stands.orderStep (h : l.Stands s) {op : OrderOp} (hop : s.orderStep op = some (s', o))
    (hreg : s.Regular op) : ∃ l', orderStep l op = some (l', o) ∧ l'.Stands s' := by
  have hguard {P : Prop} [Decidable P] {r : Sequence × List Out}
      (heq : (if P then some r else none) = some (s', o)) : P ∧ r = (s', o) := by
    rwa [ite_none_right_eq_some, some.injEq] at heq
  cases op with
  | insert mem p d =>
    cases p with
    | none => cases hop
    | some p =>
      obtain ⟨hp, hs⟩ := hguard hop
      obtain ⟨as, x, bs, heq, hpA⟩ := h.split hp
      have hholds := heq ▸ h.holds
      refine h.insert (fun herr => ?_) (fun hd hm => ?_) hs
      · by_cases hd : d = []
        · rw [orderLinkListInsert, if_pos hd]
        · rw [orderLinkListInsert, if_neg hd]
          exact if_pos (herr.resolve_left hd)
      · subst hm
        have hfirst : firstOr none s.elems ≠ some p := by simpa [Sequence.Regular, hd] using hreg
        have has : as ≠ [] := fun has => hfirst ((h.ends heq).1.mpr has)
        obtain ⟨l', hlink, hfresh, hnew⟩ := linkBefore_holds hholds has d
        rw [heq, Sequence.before_split _ hpA]
        refine ⟨l', ?_, hfresh, hnew⟩
        simp [orderLinkListInsert, orderLinkListInsertNode, hd, h.holds.head, hfirst, hlink]
  | insertById mem i d =>
    have hs := some.inj hop
    by_cases hat : i = 0 ∨ s.At i
    case neg =>
      rw [if_neg hat] at hs
      obtain ⟨rfl, rfl⟩ := Prod.mk.inj hs
      rw [not_or] at hat
      refine ⟨l, ?_, h⟩
      by_cases hd : d = []
      · simp [LinkList.orderStep, orderLinkListInsertById, hd, changed]
      · have hm : mem = false := by simpa [Sequence.Regular, hd, hat.1, hat.2] using hreg
        simp [LinkList.orderStep, orderLinkListInsertById, hd, hat.1, h.not_at hat.2, hm, changed]
    case pos =>
      rw [if_pos hat] at hs
      refine h.insert (fun herr => ?_) (fun hd hm => ?_) hs
      · by_cases hd : d = []
        · rw [orderLinkListInsertById, if_pos hd]
        · by_cases hi : i = 0
          · rw [orderLinkListInsertById, if_neg hd, if_pos hi, doubleLinkListHeadInsert,
              if_pos herr]
          · obtain ⟨as, p, x, bs, -, -, hfind⟩ := h.at (hat.resolve_left hi)
            simp [orderLinkListInsertById, hd, hi, hfind, herr.resolve_left hd]
      · subst hm
        by_cases hi : i = 0
        · subst hi
          rw [orderLinkListInsertById, if_neg hd, if_pos rfl]
          exact headInsert_holds h.holds hd
        · obtain ⟨as, p, x, bs, heq, hlen, hfind⟩ := h.at (hat.resolve_left hi)
          have has : as ≠ [] := by
            rintro rfl
            have hpos := (hat.resolve_left hi).1
            rw [length_nil] at hlen
            omega
          obtain ⟨l', hlink, hfresh, hnew⟩ := linkBefore_holds (heq ▸ h.holds) has d
          refine ⟨l', by simp [orderLinkListInsertById, hd, hi, hfind, hlink], hfresh, ?_⟩
          rw [heq, ← hlen, Sequence.insertIdx_split]
          exact hnew
  | append mem d =>
    refine h.insert (fun herr => by rw [orderLinkListAppend, doubleLinkListTailInsert,
      if_pos herr]) (fun hd hm => ?_) (some.inj hop)
    obtain ⟨list, htail, hfresh, hnew⟩ := h.holds.tailInsert d
    exact ⟨⟨list, _⟩, by rw [orderLinkListAppend, doubleLinkListTailInsert,
      if_neg (by simp [hd, hm]), htail]; rfl, hfresh, hnew⟩
  | del p =>
    cases p with
    | none => cases hop
    | some p =>
      obtain ⟨hp, hs⟩ := hguard hop
      exact h.del hp hs
  | delById i =>
    have hs := some.inj hop
    by_cases hat : s.At i
    case neg =>
      rw [if_neg hat] at hs
      obtain ⟨rfl, rfl⟩ := Prod.mk.inj hs
      have hneg : i < 0 := hreg.resolve_right fun hr => hat hr.1
      exact ⟨l, by simp [LinkList.orderStep, orderLinkListDelById, hneg, changed], h⟩
    case pos =>
      rw [if_pos hat] at hs
      obtain ⟨rfl, rfl⟩ := Prod.mk.inj hs
      obtain ⟨as, p, x, bs, heq, hlen, hfind⟩ := h.at hat
      have hholds := heq ▸ h.holds
      obtain ⟨list, hdel, hfresh, hnew⟩ := hholds.del
      have hone : ¬ (l.list.head = some p ∧ l.list.tail = some p) := by
        rw [h.holds.head, h.holds.tail, (h.ends heq).1, (h.ends heq).2]
        rintro ⟨rfl, rfl⟩
        rcases hreg with hneg | ⟨-, hlen⟩
        · exact Int.not_lt.mpr hat.1 hneg
        · exact hlen (by rw [heq]; rfl)
      refine ⟨⟨list, l.iListLen - 1⟩, ?_, ?_, hfresh.trans h.fresh⟩
      · rw [LinkList.orderStep, delById_eq hat.1 hfind hholds.heap_eq hone, doubleLinkListDel, hdel]
        rfl
      · rw [heq, ← hlen, eraseIdx_append_of_length_le (Nat.le_refl _), Nat.sub_self]
        exact hnew
  | set mem p d =>
    cases p with
    | none => cases hop
    | some p =>
      obtain ⟨hp, hs⟩ := hguard hop
      by_cases hlen : s.Holds p d
      · rw [if_pos hlen] at hs
        exact h.orderSet hlen hs
      · rw [if_neg hlen] at hs
        obtain ⟨rfl, hfirst, hlast⟩ := hreg.resolve_left hlen
        exact h.replace hp hlen hfirst hlast hs
  | len | next | find | findByIndex | index | clear | get | print => cases hop

/-- Longer data, where there is no element before, none behind or no memory: a block that is its
own predecessor, the data of `NULL`, or an element less. -/
theorem Stands.not_replace (h : l.Stands s) (hp : s.Live p) (hlong : ¬ s.Holds p d)
    (hends : ¬ (mem = true ∧ firstOr none s.elems ≠ some p ∧ lastOr none s.elems ≠ some p))
    (hs : s.replace mem p d = (s', o))
    (hstep : changed (orderLinkListSet l mem (some p) d) = some (l', o)) :
    ¬ l'.Refines s'.elems := by
  have hd : d ≠ [] := by
    rintro rfl
    obtain ⟨x, hx, heq⟩ := List.mem_map.mp hp
    exact hlong ⟨x, hx, heq, Nat.zero_le _⟩
  obtain ⟨as, x, bs, heq, hpA⟩ := h.split hp
  have hholds := heq ▸ h.holds
  have hc := hholds.heap_eq
  have hlen : ¬ d.length ≤ x.length := fun hle => hlong ⟨(p, x), by simp [heq], rfl, hle⟩
  obtain ⟨list, hdel, hfresh, hnew⟩ := hholds.del
  cases hm : mem with
  | false =>
    subst hm
    rw [Sequence.replace, Sequence.insert, if_pos (.inr rfl)] at hs
    obtain ⟨rfl, rfl⟩ := Prod.mk.inj hs
    have hl : l' = ⟨list, l.iListLen - 1⟩ := by
      simpa [orderLinkListSet, orderLinkListDel, doubleLinkListDel, orderLinkListInsertNode, hd, hc,
        hlen, hdel, changed, eq_comm] using hstep
    intro href
    have hfor := href.forwards
    rw [heq] at hfor
    obtain ⟨_, -, -, c, hgone, -⟩ := visits_append.mp hfor
    have hnd := hholds.nodup
    rw [map_append, map_cons, nodup_append] at hnd
    rw [hl, hnew.only p (by
      rw [map_append, mem_append, not_or]
      exact ⟨hpA, (nodup_cons.mp hnd.2.1).1⟩)] at hgone
    cases hgone
  | true =>
    subst hm
    cases as with
    | nil =>
      cases bs with
      | nil =>
        have hhead : list.head = none := hnew.head
        simp [orderLinkListSet, orderLinkListDel, doubleLinkListDel, orderLinkListInsertNode,
          hd, hc, hlen, hdel, hhead, changed] at hstep
      | cons b bs =>
        obtain ⟨q, y⟩ := b
        obtain ⟨l₁, hins, hloop⟩ :=
          @insertNode_first ⟨list, l.iListLen - 1⟩ bs q y hnew d
        have hl : l' = l₁ := by
          simp [orderLinkListSet, orderLinkListDel, doubleLinkListDel, hd, hc, hlen, hdel,
            hins, changed] at hstep
          exact hstep.1.symm
        have hne : q ≠ s.made := by
          rintro rfl
          exact absurd (h.holds.lt (s.made, y) (by rw [heq]; simp)) (by simp [h.fresh])
        have hmap := Keyed.map_write_split (f := fun _ => (s.made, d)) hholds.nodup
        rw [Sequence.replace, Sequence.insert, if_neg (by simp [hd]), heq] at hs
        obtain ⟨rfl, -⟩ := Prod.mk.inj hs
        rw [hl]
        exact hmap.symm ▸ not_refines_of_loop hloop rfl hne
    | cons a as =>
      obtain rfl : bs = [] := by
        by_contra hbs
        exact hends ⟨rfl, fun hf => cons_ne_nil a as ((h.ends heq).1.mp hf),
          fun hl => hbs ((h.ends heq).2.mp hl)⟩
      have hhead : list.head ≠ none := by rw [hnew.head]; exact some_ne_none _
      simp [orderLinkListSet, orderLinkListDel, doubleLinkListDel, orderLinkListInsertNode,
        hd, hc, hlen, hdel, hhead, changed] at hstep

theorem Stands.regular (h : l.Stands s) {op : OrderOp} (hop : s.orderStep op = some (s', o))
    (hstep : LinkList.orderStep l op = some (l', o)) (href : l'.Refines s'.elems) :
    s.Regular op := by
  by_contra hreg
  cases op with
  | insert mem p d =>
    cases p with
    | none => cases hop
    | some p =>
      rw [Sequence.orderStep, ite_none_right_eq_some, some.injEq] at hop
      obtain ⟨-, hs⟩ := hop
      simp only [Sequence.Regular, not_or, not_not, Bool.not_eq_false] at hreg
      obtain ⟨hd, rfl, hfirst⟩ := hreg
      rw [Sequence.insert, if_neg (by simp [hd])] at hs
      obtain ⟨rfl, -⟩ := Prod.mk.inj hs
      cases heq : s.elems with
      | nil => simp [heq] at hfirst
      | cons y bs =>
        obtain ⟨q, x⟩ := y
        rw [heq] at hfirst href
        obtain rfl : q = p := some.inj hfirst
        obtain ⟨l₁, hins, hloop⟩ := insertNode_first (heq ▸ h.holds) d
        have hl : l' = l₁ := by
          simp [LinkList.orderStep, orderLinkListInsert, hd, hins, changed] at hstep
          exact hstep.1.symm
        have hput : Sequence.before q (s.made, d) ((q, x) :: bs) = (s.made, d) :: (q, x) :: bs :=
          if_pos rfl
        refine not_refines_of_loop hloop rfl ?_ (hl ▸ hput ▸ href)
        rintro rfl
        exact absurd (h.holds.lt (s.made, x) (by rw [heq]; simp)) (by simp [h.fresh])
  | insertById mem i d =>
    simp only [Sequence.Regular, not_or, Bool.not_eq_false] at hreg
    obtain ⟨hd, rfl, hi, hat⟩ := hreg
    simp [LinkList.orderStep, orderLinkListInsertById, hd, hi, h.not_at hat, changed] at hstep
  | delById i =>
    rw [Sequence.Regular, not_or, Int.not_lt] at hreg
    obtain ⟨hneg, hreg⟩ := hreg
    by_cases hat : s.At i
    · obtain ⟨as, p, x, bs, heq, hlen, hfind⟩ := h.at hat
      have hone : s.elems.length = 1 := by
        by_contra hne
        exact hreg ⟨hat, hne⟩
      obtain ⟨rfl, rfl⟩ : as = [] ∧ bs = [] := by
        rw [heq, length_append, length_cons] at hone
        exact ⟨eq_nil_of_length_eq_zero (by omega),
          eq_nil_of_length_eq_zero (by omega)⟩
      have hholds := heq ▸ h.holds
      have hhead : l.list.head = some p := hholds.head
      simp [LinkList.orderStep, orderLinkListDelById, Int.not_lt.mpr hneg, hfind, hholds.heap_eq,
        hhead, changed] at hstep
    · simp [LinkList.orderStep, orderLinkListDelById, Int.not_lt.mpr hneg, h.not_at hat, changed]
        at hstep
  | set mem p d =>
    cases p with
    | none => cases hop
    | some p =>
      rw [Sequence.orderStep, ite_none_right_eq_some, some.injEq] at hop
      obtain ⟨hp, hs⟩ := hop
      rw [Sequence.Regular, not_or] at hreg
      rw [if_neg hreg.1] at hs
      exact h.not_replace hp hreg.1 hreg.2 hs hstep href
  | append | del | len | next | find | findByIndex | index | clear | get | print =>
    exact hreg trivial

end LinkedList

/-- The list goes the way of the sequence, step by step, exactly as long as all calls are
regular. -/
theorem orderLinkList_refines_iff {ops : List OrderOp} {s : Sequence} {os : List Out}
    (h : Run.run Sequence.orderStep ⟨[], 0⟩ ops = some (s, os)) :
    (∀ bs, bs <+: ops → ∀ u ou, Run.run Sequence.orderStep ⟨[], 0⟩ bs = some (u, ou) →
      ∃ l, Run.run orderStep newLinkedList bs = some (l, ou) ∧ l.Refines u.elems) ↔
      Run.Along Sequence.orderStep Sequence.Regular ⟨[], 0⟩ ops :=
  Run.refines_iff_along (fun _ _ hr => hr.refines)
    (fun _ _ _ _ _ hr hop hreg => hr.orderStep hop hreg)
    (fun _ _ _ _ _ _ hr hop hstep href => hr.regular hop hstep href) stands_newLinkedList h

/-- Three elements, one of them put in by its position, with longer data for the one between the
others, and one taken out by its position. -/
theorem orderLinkList_refines_sample :
    ∃ l, Run.run orderStep newLinkedList
        [.append true [1], .append true [2], .insertById true 1 [3], .set true (some 2) [4, 5],
          .delById 2] = some (l, List.replicate 5 (.ret .noErr)) ∧
      l.Refines [(0, [1]), (3, [4, 5])] := by
  have hrun : Run.run Sequence.orderStep ⟨[], 0⟩
      [.append true [1], .append true [2], .insertById true 1 [3], .set true (some 2) [4, 5],
        .delById 2] = some (⟨[(0, [1]), (3, [4, 5])], 4⟩, List.replicate 5 (.ret .noErr)) := by
    decide
  exact (orderLinkList_refines_iff hrun).mpr (by decide) _ (prefix_refl _) _ _ hrun

/-- The only element, taken out by its position. -/
theorem not_orderLinkList_refines :
    ¬ ∀ (ops : List OrderOp) (s : Sequence) (os : List Out),
      Run.run Sequence.orderStep ⟨[], 0⟩ ops = some (s, os) →
      ∃ l, Run.run orderStep newLinkedList ops = some (l, os) ∧ l.Refines s.elems := by
  intro h
  obtain ⟨l, hrun, -⟩ := h [.append true [1], .delById 0] ⟨[], 1⟩
    [.ret .noErr, .ret .noErr] (by decide)
  have hnone : Run.run orderStep newLinkedList [.append true [1], .delById 0] = none := rfl
  rw [hnone] at hrun
  cases hrun

end Honyar.LinkList
