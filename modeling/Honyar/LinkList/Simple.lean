import Honyar.LinkList.Order
import Honyar.Lib.SingleList

/-!
# The simple list of the SDK

`simple_link_list.c`: blocks that point at the next one only.  To take a block out its predecessor
is looked for from the front.
-/

namespace Honyar.LinkList

open Function List Option Sequence SingleList

/-- `simple_link_list_node_t`. -/
structure SimpleNode where
  pNext : Option Nat
  aucData : Data

/-- `simple_link_list_private_t` with the memory of its blocks. -/
structure SimpleList where
  heap : Nat → Option SimpleNode
  fresh : Nat
  pHead : Option Nat
  pTail : Option Nat
  iListLen : Int

namespace SimpleList

/-- `simple_link_list_node_new` where there is memory, for a block that points at another one. -/
def nodeNew (pNext : Option Nat) (pData : Data) (l : SimpleList) : SimpleList :=
  { l with heap := Function.update l.heap l.fresh (some ⟨pNext, pData⟩), fresh := l.fresh + 1,
           iListLen := l.iListLen + 1 }

/-- `simple_link_list_node_destroy`. -/
def nodeDestroy (p : Nat) (l : SimpleList) : Option SimpleList :=
  (l.heap p).map fun _ =>
    { l with heap := Function.update l.heap p none, iListLen := l.iListLen - 1 }

/-- Writing to a block. -/
def write (p : Nat) (f : SimpleNode → SimpleNode) (l : SimpleList) : Option SimpleList :=
  (l.heap p).map fun n => { l with heap := Function.update l.heap p (some (f n)) }

/-- A list that was just made, in the memory of another one. -/
def madeBeside (l : SimpleList) : SimpleList :=
  { l with pHead := none, pTail := none, iListLen := 0 }

/-- The first block from one on whose data is looked for, in at most `n` blocks. -/
def findFrom (f : Data → Bool) (l : SimpleList) : Nat → Option Nat → Option (Option Nat)
  | _, none => some none
  | 0, some _ => none
  | n + 1, some p => do
    let c ← l.heap p
    if f c.aucData then return some p else findFrom f l n c.pNext

/-- The loop of `simple_link_list_del` from a block on: the one behind it is taken out if it is the
one looked for. -/
def delFrom (pCurrNode : Nat) (l : SimpleList) :
    Nat → Option Nat → Option (LinkList.Ret × SimpleList)
  | _, none => some (.generalErr, l)
  | 0, some _ => none
  | n + 1, some p => do
    let c ← l.heap p
    if c.pNext = some pCurrNode then
      let l' := if l.pTail = some pCurrNode then { l with pTail := some p } else l
      let d ← l'.heap pCurrNode
      let l' ← l'.write p fun n => { n with pNext := d.pNext }
      let l' ← l'.nodeDestroy pCurrNode
      return (.noErr, l')
    else delFrom pCurrNode l n c.pNext

/-- The loop of `simple_link_list_set` from a block on: the one looked for is replaced wherever a
block points at it, and the walk goes on to the end. -/
def replaceFrom (pCurrNode pNewNode : Nat) : Nat → Option Nat → SimpleList → Option SimpleList
  | _, none, l => some l
  | 0, some _, _ => none
  | n + 1, some p, l => do
    let c ← l.heap p
    if c.pNext = some pCurrNode then
      let l := if l.pTail = some pCurrNode then { l with pTail := some pNewNode } else l
      let l ← l.write p fun n => { n with pNext := some pNewNode }
      let l ← l.nodeDestroy pCurrNode
      replaceFrom pCurrNode pNewNode n (some pNewNode) l
    else replaceFrom pCurrNode pNewNode n c.pNext l

/-- The loop of `simple_link_list_clear`. -/
def clearFrom : Nat → Option Nat → SimpleList → Option SimpleList
  | _, none, l => some l
  | 0, some _, _ => none
  | n + 1, some p, l => do
    let c ← l.heap p
    let l ← l.nodeDestroy p
    clearFrom n c.pNext l

/-- The loop of `simple_link_list_print`. -/
def printFrom (l : SimpleList) : Nat → Option Nat → Option (List Data)
  | _, none => some []
  | 0, some _ => none
  | n + 1, some p => do
    let c ← l.heap p
    let ds ← printFrom l n c.pNext
    return c.aucData :: ds

end SimpleList

variable (l : SimpleList)

/-- `simple_link_list_head`; the data of `NULL` has no address. -/
def simpleLinkListHead : Option (Option Nat) := l.pHead.map some

/-- `simple_link_list_tail`. -/
def simpleLinkListTail : Option (Option Nat) := l.pTail.map some

/-- `simple_link_list_next`. -/
def simpleLinkListNext : Option Nat → Option (Option Nat)
  | none => some l.pHead
  | some p => (l.heap p).map (·.pNext)

/-- `simple_link_list_find` with a callback that compares. -/
def simpleLinkListFind (pCmpDataCb : Data → Data → Bool) (pData : Data) : Option (Option Nat) :=
  if pData = [] then some none else l.findFrom (fun d => pCmpDataCb d pData) l.fresh l.pHead

/-- `simple_link_list_head_insert`; `mem` says whether there is memory for the block. -/
def simpleLinkListHeadInsert (mem : Bool) (pData : Data) : SimpleList × Ret :=
  if pData = [] ∨ mem = false then (l, .generalErr)
  else
    let l' := { l.nodeNew l.pHead pData with pHead := some l.fresh }
    (if l.pTail = none then { l' with pTail := some l.fresh } else l', .noErr)

/-- `simple_link_list_tail_insert`. -/
def simpleLinkListTailInsert (mem : Bool) (pData : Data) : Option (SimpleList × Ret) :=
  if pData = [] then some (l, .paraErr)
  else if mem = false then some (l, .generalErr)
  else
    let l' := l.nodeNew none pData
    match l.pTail with
    | none => some ({ l' with pHead := some l.fresh, pTail := some l.fresh }, .noErr)
    | some t => do
      let l' ← l'.write t fun n => { n with pNext := some l.fresh }
      return ({ l' with pTail := some l.fresh }, .noErr)

/-- `simple_link_list_del`.  Where the first block went, an error is returned nevertheless. -/
def simpleLinkListDel : Option Nat → Option (SimpleList × Ret)
  | none => some (l, .paraErr)
  | some p =>
    if l.pHead = some p then do
      let c ← l.heap p
      let l' := { l with pHead := c.pNext }
      let l' ← (if l.pTail = some p then { l' with pTail := none } else l').nodeDestroy p
      return (l', .generalErr)
    else do
      let (iRet, l') ← l.delFrom p l.fresh l.pHead
      return (l', iRet)

/-- `simple_link_list_clear`. -/
def simpleLinkListClear : Option (SimpleList × Ret) := do
  let l' ← l.clearFrom l.fresh l.pHead
  return (l', .noErr)

/-- `simple_link_list_set`: longer data goes to a new block, which takes the place of the old
one. -/
def simpleLinkListSet (mem : Bool) (pCurrentData : Option Nat) (pData : Data) :
    Option (SimpleList × Ret) :=
  match pCurrentData with
  | none => some (l, .paraErr)
  | some p =>
    if pData = [] then some (l, .paraErr)
    else do
      let c ← l.heap p
      if pData.length ≤ c.aucData.length then
        let l' ← l.write p fun n => { n with aucData := pData }
        return (l', .noErr)
      else if mem = false then return (l, .generalErr)
      else if l.pHead = some p then
        let l' ← { l.nodeNew c.pNext pData with pHead := some l.fresh }.nodeDestroy p
        return (l', .noErr)
      else
        let l' := l.nodeNew c.pNext pData
        let l' ← SimpleList.replaceFrom p l.fresh l'.fresh l.pHead l'
        return (l', .noErr)

/-- `simple_link_list_get`. -/
def simpleLinkListGet (pCurrentData : Option Nat) (iDataLen : Int) : Option (Ret × Data) :=
  match pCurrentData with
  | none => some (.paraErr, [])
  | some p =>
    if iDataLen ≤ 0 then some (.paraErr, [])
    else do
      let c ← l.heap p
      return (.noErr, c.aucData.take iDataLen.toNat)

/-- `simple_link_list_print`. -/
def simpleLinkListPrint : Option (List Data) := l.printFrom l.fresh l.pHead

inductive SimpleOp where
  | len
  | head
  | tail
  | next (pCurrentData : Option Nat)
  | find (pCmpDataCb : Data → Data → Bool) (pData : Data)
  | headInsert (mem : Bool) (pData : Data)
  | tailInsert (mem : Bool) (pData : Data)
  | del (pCurrentData : Option Nat)
  | clear
  | set (mem : Bool) (pCurrentData : Option Nat) (pData : Data)
  | get (pCurrentData : Option Nat) (iDataLen : Int)
  | print

def simpleStep (l : SimpleList) : SimpleOp → Option (SimpleList × List Out)
  | .len => some (l, [.num l.iListLen])
  | .head => (simpleLinkListHead l).map fun p => (l, [.ptr p])
  | .tail => (simpleLinkListTail l).map fun p => (l, [.ptr p])
  | .next p => (simpleLinkListNext l p).map fun p => (l, [.ptr p])
  | .find cb d => (simpleLinkListFind l cb d).map fun p => (l, [.ptr p])
  | .headInsert mem d => some ((simpleLinkListHeadInsert l mem d).1,
      [.ret (simpleLinkListHeadInsert l mem d).2])
  | .tailInsert mem d => (simpleLinkListTailInsert l mem d).map fun r => (r.1, [.ret r.2])
  | .del p => (simpleLinkListDel l p).map fun r => (r.1, [.ret r.2])
  | .clear => (simpleLinkListClear l).map fun r => (r.1, [.ret r.2])
  | .set mem p d => (simpleLinkListSet l mem p d).map fun r => (r.1, [.ret r.2])
  | .get p n => (simpleLinkListGet l p n).map fun r => (l, [.data r.1 r.2])
  | .print => (simpleLinkListPrint l).map fun ds => (l, [.all ds])

/-! ## The sequence it stands for -/

namespace Sequence

/-- The calls of `simple_link_list.c` that change a list, on its elements. -/
def simpleStep (s : Sequence) : SimpleOp → Option (Sequence × List Out)
  | .headInsert mem d => some (s.insert mem d List.cons)
  | .tailInsert mem d =>
    some (if d = [] then (s, [.ret .paraErr]) else s.insert mem d fun e xs => xs ++ [e])
  | .del (some p) => if s.Live p then some (s.del p) else none
  | .set mem (some p) d =>
    if s.Live p then
      some (if d = [] then (s, [.ret .paraErr])
        else if s.Holds p d then s.set p d else s.replace mem p d)
    else none
  | _ => none

/-- It is not the first element that is taken out, and longer data does not go to the only one,
unless there is no memory for it. -/
def SimpleRegular (s : Sequence) : SimpleOp → Prop
  | .del (some p) => DoubleList.firstOr none s.elems ≠ some p
  | .set mem (some p) d => s.Holds p d ∨ mem = false ∨ s.elems.length ≠ 1
  | _ => True

instance decidableSimpleRegular (s : Sequence) (op : SimpleOp) : Decidable (s.SimpleRegular op) :=
  match op with
  | .del (some _) => inferInstanceAs (Decidable (_ ≠ _))
  | .set _ (some _) _ => inferInstanceAs (Decidable (_ ∨ _))
  | .len | .head | .tail | .next _ | .find _ _ | .headInsert _ _ | .tailInsert _ _ | .del none
  | .clear | .set _ none _ | .get _ _ | .print => isTrue trivial

end Sequence

namespace SimpleList

open DoubleList (firstOr lastOr lastOr_concat firstOr_append)

/-- From its first block the list has the elements of the sequence, and its tail is the last. -/
structure Refines (l : SimpleList) (xs : List (Nat × Data)) : Prop where
  forwards : DoubleList.Visits l.heap (·.pNext) (·.aucData) none l.pHead xs
  tail : l.pTail = lastOr none xs

/-- The list without its counter. -/
def toSingle (l : SimpleList) : SingleList Data :=
  ⟨fun p => (l.heap p).map fun n => ⟨n.pNext, n.aucData⟩, l.pHead, l.pTail, l.fresh⟩

/-- The blocks of the list are those of the elements, linked in their order. -/
structure Stands (l : SimpleList) (s : Sequence) : Prop where
  holds : l.toSingle.Holds s.elems
  fresh : l.fresh = s.made

variable {l l' : SimpleList} {s s' : Sequence} {xs as bs : List (Nat × Data)} {p q : Nat}
  {d x : Data} {mem : Bool} {o : List Out}

theorem Stands.refines (h : l.Stands s) : l.Refines s.elems := by
  refine ⟨?_, h.holds.tail⟩
  have hgo : ∀ xs : List (Nat × Data), SingleList.Linked l.toSingle.heap xs none →
      DoubleList.Visits l.heap (·.pNext) (·.aucData) none (firstOr none xs) xs := by
    intro xs hxs
    induction xs with
    | nil => rfl
    | cons x xs ih =>
      obtain ⟨c, hc, heq⟩ := map_eq_some_iff.mp hxs.1
      obtain ⟨hnext, hdata⟩ := SingleNode.mk.inj heq
      exact ⟨rfl, c, hc, hdata, by simpa only [hnext] using ih hxs.2⟩
  have hhead : l.pHead = firstOr none s.elems := h.holds.head
  rw [hhead]
  exact hgo s.elems h.holds.linked

theorem heap_eq (h : l.toSingle.Holds (as ++ (p, x) :: bs)) :
    l.heap p = some ⟨firstOr none bs, x⟩ := by
  obtain ⟨⟨next, data⟩, hc, heq⟩ := map_eq_some_iff.mp h.heap_eq
  cases heq
  exact hc

theorem firstOr_eq_iff (hp : p ∉ as.map Prod.fst) :
    firstOr none (as ++ (p, x) :: bs) = some p ↔ as = [] := by
  cases as with
  | nil => exact iff_of_true rfl rfl
  | cons a as =>
    refine iff_of_false (fun heq => hp ?_) (cons_ne_nil a as)
    rw [← some.inj heq, map_cons]
    exact mem_cons_self

theorem Stands.split (h : l.Stands s) (hp : s.Live p) :
    ∃ as x bs, s.elems = as ++ (p, x) :: bs ∧ p ∉ as.map Prod.fst ∧ p ∉ bs.map Prod.fst := by
  obtain ⟨⟨p, x⟩, hx, rfl⟩ := mem_map.mp hp
  obtain ⟨as, bs, heq⟩ := append_of_mem hx
  exact ⟨as, x, bs, heq, notMem_of_nodup (heq ▸ h.holds.nodup)⟩

/-- A stretch gives way to one element, in a block of its own or in a new one, or to none. -/
theorem splice {ms : List (Nat × Data)} {u : Option (Nat × Data)}
    (h : l.toSingle.Holds (as ++ (ms ++ bs))) (hfresh : l.fresh ≤ l'.fresh)
    (hu : ∀ r ∈ u, (r.1 ∈ ms.map Prod.fst ∨ r.1 = l.fresh ∧ l.fresh < l'.fresh) ∧
      l'.heap r.1 = some ⟨firstOr none bs, r.2⟩)
    (hhead : l'.pHead = firstOr none (as ++ (u.toList ++ bs)))
    (htail : l'.pTail = lastOr none (as ++ (u.toList ++ bs)))
    (hheap : ∀ q, q ∉ ms.map Prod.fst → q ≠ l.fresh → l'.heap q = (l.heap q).map fun c =>
      if lastOr none as = some q then { c with pNext := firstOr none (u.toList ++ bs) } else c) :
    l'.toSingle.Holds (as ++ (u.toList ++ bs)) := by
  have hnew := h.fresh_notMem
  have hnd := h.nodup
  simp only [map_append, mem_append, not_or] at hnew
  simp only [map_append, nodup_append, mem_append] at hnd
  have hms : ∀ q ∈ (as ++ bs).map Prod.fst, q ∉ ms.map Prod.fst ∧ q ≠ l.fresh := by
    intro q hq
    rw [map_append, mem_append] at hq
    rcases hq with hq | hq
    · exact ⟨fun hm => hnd.2.2 q hq q (.inl hm) rfl, ne_of_mem_of_not_mem hq hnew.1⟩
    · exact ⟨fun hm => hnd.2.1.2.2 q hm q hq rfl, ne_of_mem_of_not_mem hq hnew.2.2⟩
  refine h.splice hfresh (fun r hr => ?_) hhead htail fun q hq => ?_
  · obtain ⟨hr₁ | ⟨hr₁, hlt⟩, hcell⟩ := hu r hr
    · obtain ⟨n, hn, heq⟩ := mem_map.mp hr₁
      refine ⟨Nat.lt_of_lt_of_le (heq ▸ h.lt n (by simp [hn])) hfresh,
        fun hm => (hms _ hm).1 hr₁, by simp [toSingle, hcell]⟩
    · exact ⟨hr₁ ▸ hlt, fun hm => (hms _ hm).2 hr₁, by simp [toSingle, hcell]⟩
  · simp only [toSingle, hheap q (hms q hq).1 (hms q hq).2, Option.map_map]
    refine congrArg (Option.map · _) (funext fun c => ?_)
    simp only [comp_apply]
    split <;> rfl

theorem headInsert_holds (h : l.toSingle.Holds xs) (hd : d ≠ []) :
    ∃ l', simpleLinkListHeadInsert l true d = (l', .noErr) ∧ l'.fresh = l.fresh + 1 ∧
      l'.toSingle.Holds ((l.fresh, d) :: xs) := by
  refine ⟨_, by rw [simpleLinkListHeadInsert, if_neg (by simp [hd])], by split <;> rfl, ?_⟩
  have htail : (if l.pTail = none then some l.fresh else l.pTail) = lastOr (some l.fresh) xs := by
    have ht : l.pTail = lastOr none xs := h.tail
    cases xs with
    | nil => exact if_pos ht
    | cons e es => exact (if_neg (by simp [ht, DoubleList.lastOr_eq_none])).trans ht
  have hhead : l.pHead = firstOr none xs := h.head
  have h₀ : l.toSingle.Holds ([] ++ ([] ++ xs)) := h
  refine splice (u := some (l.fresh, d)) h₀ ?_ ?_ ?_ ?_ fun q _ hq => ?_
  · split <;> exact Nat.le_succ _
  · rintro _ ⟨⟩
    split <;> exact ⟨.inr ⟨rfl, Nat.lt_succ_self _⟩, by simp [nodeNew, hhead]⟩
  · split <;> rfl
  · refine Eq.trans ?_ htail
    split <;> rfl
  · split <;> simp [nodeNew, hq]

theorem tailInsert_holds (h : l.toSingle.Holds xs) (hd : d ≠ []) :
    ∃ l', simpleLinkListTailInsert l true d = some (l', .noErr) ∧ l'.fresh = l.fresh + 1 ∧
      l'.toSingle.Holds (xs ++ [(l.fresh, d)]) := by
  have htail : l.pTail = lastOr none xs := h.tail
  have h₀ : l.toSingle.Holds (xs ++ ([] ++ [])) := by simpa using h
  rcases xs.eq_nil_or_concat with rfl | ⟨ys, ⟨t, y⟩, rfl⟩
  · refine ⟨{ l.nodeNew none d with pHead := some l.fresh, pTail := some l.fresh },
      by simp [simpleLinkListTailInsert, hd, htail], rfl,
      splice (u := some (l.fresh, d)) h₀ (Nat.le_succ _) ?_ rfl rfl
        fun q _ hq => by simp [nodeNew, hq]⟩
    rintro _ ⟨⟩
    exact ⟨.inr ⟨rfl, Nat.lt_succ_self _⟩, update_self ..⟩
  · rw [concat_eq_append] at *
    have hne : t ≠ l.fresh := fun heq => h.fresh_notMem (by simp [heq, toSingle])
    have ht : l.heap t = some ⟨none, y⟩ := heap_eq h
    have hhead : l.pHead = firstOr none (ys ++ [(t, y)]) := h.head
    rw [lastOr_concat] at htail
    refine ⟨{ l.nodeNew none d with
        heap := update (update l.heap l.fresh (some ⟨none, d⟩)) t
          (some ⟨some l.fresh, y⟩)
        pTail := some l.fresh }, ?_, rfl,
      splice (u := some (l.fresh, d)) h₀ (Nat.le_succ _) ?_ (hhead.trans ?_) (lastOr_concat ..).symm
        fun q _ hq => ?_⟩
    · simp [simpleLinkListTailInsert, hd, htail, nodeNew, write, hne, ht]
    · rintro _ ⟨⟩
      exact ⟨.inr ⟨rfl, Nat.lt_succ_self _⟩, by simp [hne.symm]⟩
    · simp
    · rw [lastOr_concat]
      by_cases hqt : q = t
      · subst hqt
        simp [ht]
      · simp [hqt, hq, Ne.symm hqt]

theorem walk_eq {β : Type} {F : Nat → Option Nat → β} {n : Nat}
    (hF : ∀ n q c, l.heap q = some c → c.pNext ≠ some p → F (n + 1) (some q) = F n c.pNext)
    (h : SingleList.Linked l.toSingle.heap (as ++ bs) none) (hp : p ∉ as.map Prod.fst)
    (hfirst : firstOr none bs ≠ some p) (hn : as.length ≤ n) :
    F n (firstOr none (as ++ bs)) = F (n - as.length) (firstOr none bs) := by
  induction as generalizing n with
  | nil => rfl
  | cons a as ih =>
    obtain ⟨n, rfl⟩ := Nat.exists_eq_succ_of_ne_zero (Nat.ne_zero_of_lt hn)
    obtain ⟨c, hc, heq⟩ := Option.map_eq_some_iff.mp h.1
    have hnext : c.pNext = firstOr none (as ++ bs) := congrArg SingleNode.next heq
    have hpas : p ∉ as.map Prod.fst := fun hm => hp (mem_cons_of_mem _ hm)
    have hne : c.pNext ≠ some p := by
      rw [hnext, firstOr_append]
      exact fun heq => (DoubleList.mem_of_firstOr heq).elim hfirst hpas
    rw [length_cons, Nat.succ_sub_succ, ← ih h.2 hpas (Nat.le_of_succ_le_succ hn), ← hnext]
    exact hF n a.1 c hc hne

/-- Looking for the block that points at an element leads to the element before it. -/
theorem reach {β : Type} {F : Nat → Option Nat → β} {m : SimpleList} {n t : Nat} {y : Data}
    (h : l.toSingle.Holds (as ++ (t, y) :: (p, x) :: bs))
    (hF : ∀ n q c, m.heap q = some c → c.pNext ≠ some p → F (n + 1) (some q) = F n c.pNext)
    (hheap : ∀ q, q ≠ l.fresh → m.heap q = l.heap q) (hn : l.fresh ≤ n) :
    ∃ k, bs.length < k ∧ F n l.pHead = F (k + 1) (some t) := by
  have hlen : (as ++ (t, y) :: (p, x) :: bs).length ≤ l.fresh := h.length_le
  rw [length_append, length_cons, length_cons] at hlen
  have hsplit : as ++ (t, y) :: (p, x) :: bs = (as ++ [(t, y)]) ++ (p, x) :: bs := by simp
  obtain ⟨hp, -⟩ := notMem_of_nodup (hsplit ▸ h.nodup)
  rw [map_append, mem_append, not_or] at hp
  have hne : t ≠ p := fun heq => hp.2 (by simp [heq])
  have hhead : l.pHead = firstOr none (as ++ (t, y) :: (p, x) :: bs) := h.head
  have hlinked : SingleList.Linked m.toSingle.heap (as ++ (t, y) :: (p, x) :: bs) none :=
    h.linked.congr fun q hq => by
      simp [toSingle, hheap q (ne_of_mem_of_not_mem hq h.fresh_notMem)]
  refine ⟨n - as.length - 1, by omega, ?_⟩
  rw [hhead, walk_eq hF hlinked hp.1 (by simpa using hne) (by omega),
    Nat.sub_add_cancel (by omega)]
  rfl

theorem del_holds (h : l.toSingle.Holds (as ++ (p, x) :: bs)) (has : as ≠ []) :
    ∃ l', simpleLinkListDel l (some p) = some (l', .noErr) ∧ l'.fresh = l.fresh ∧
      l'.toSingle.Holds (as ++ bs) := by
  obtain ⟨hpA, hpB⟩ := notMem_of_nodup h.nodup
  obtain ⟨as, ⟨t, y⟩, rfl⟩ := as.eq_nil_or_concat.resolve_left has
  rw [concat_eq_append] at *
  have h₁ : l.toSingle.Holds (as ++ [(t, y)] ++ ([(p, x)] ++ bs)) := h
  have hcell := heap_eq h
  have ht : l.heap t = some ⟨some p, y⟩ := heap_eq (by simpa using h)
  have hne : p ≠ t := fun heq => hpA (by simp [heq])
  have hhead : l.pHead = firstOr none (as ++ [(t, y)] ++ (p, x) :: bs) := h.head
  have hfirst : l.pHead ≠ some p := by
    rwa [hhead, Ne, firstOr_eq_iff hpA]
  have htail : (if l.pTail = some p then some t else l.pTail) = lastOr (some t) bs := by
    rw [← lastOr_ite (some t) hpB, ← h.tail]
    rfl
  obtain ⟨k, -, hwalk⟩ := reach (F := l.delFrom p) (by simpa using h) (fun n q c hc hne => by
    simp [delFrom, hc, hne]) (fun _ _ => rfl) (Nat.le_refl _)
  refine ⟨{ l with
      heap := update (update l.heap t (some ⟨firstOr none bs, y⟩)) p none
      pTail := if l.pTail = some p then some t else l.pTail
      iListLen := l.iListLen - 1 }, ?_, rfl,
    splice (u := none) h₁ (Nat.le_refl _) nofun (hhead.trans (by simp))
      (htail.trans (by simp)) fun q hq _ => ?_⟩
  · rw [simpleLinkListDel, if_neg hfirst, hwalk, delFrom, ht]
    by_cases hlast : l.pTail = some p <;>
      simp [hlast, hcell, write, nodeDestroy, ht, hne]
  · have hqp : q ≠ p := fun heq => hq (by simp [heq])
    rw [lastOr_concat]
    by_cases hqt : q = t
    · subst hqt
      simp [ht, hqp]
    · simp [hqt, hqp, Ne.symm hqt]

theorem write_holds (h : l.toSingle.Holds (as ++ (p, x) :: bs)) (d : Data) :
    ∃ l', l.write p (fun n => { n with aucData := d }) = some l' ∧ l'.fresh = l.fresh ∧
      l'.toSingle.Holds (as ++ (p, d) :: bs) := by
  have h₁ : l.toSingle.Holds (as ++ ([(p, x)] ++ bs)) := h
  have hhead : l.pHead = firstOr none (as ++ (p, x) :: bs) := h.head
  have htail : l.pTail = lastOr none (as ++ (p, x) :: bs) := h.tail
  refine ⟨{ l with heap := update l.heap p (some ⟨firstOr none bs, d⟩) },
    by rw [write, heap_eq h]; rfl, rfl,
    splice (u := some (p, d)) h₁ (Nat.le_refl _) ?_ (hhead.trans (by simp))
      (htail.trans (by simp)) fun q hq _ => ?_⟩
  · rintro _ ⟨⟩
    exact ⟨.inl (mem_singleton_self p), update_self ..⟩
  · refine (update_of_ne (fun heq => hq (by simp [heq])) ..).trans ?_
    by_cases hlast : lastOr none as = some q
    · -- the block before already points there
      obtain ⟨ys, ⟨t, y⟩, rfl⟩ := as.eq_nil_or_concat.resolve_left (by rintro rfl; cases hlast)
      rw [concat_eq_append] at *
      obtain rfl : t = q := by simpa using hlast
      have ht : l.heap t = some ⟨some p, y⟩ := heap_eq (by simpa using h)
      simp [ht]
    · simp [hlast]

theorem replaceFirst_holds {b : Nat} {z : Data} (h : l.toSingle.Holds ((p, x) :: (b, z) :: bs))
    (hd : d ≠ []) (hlong : ¬ d.length ≤ x.length) :
    ∃ l', simpleLinkListSet l true (some p) d = some (l', .noErr) ∧ l'.fresh = l.fresh + 1 ∧
      l'.toSingle.Holds ((l.fresh, d) :: (b, z) :: bs) := by
  have h₀ : l.toSingle.Holds ([] ++ ([(p, x)] ++ (b, z) :: bs)) := h
  have hcell : l.heap p = some ⟨some b, x⟩ := heap_eq h₀
  have hfirst : l.pHead = some p := h.head
  have hpf : p ≠ l.fresh := Nat.ne_of_lt (h.lt (p, x) mem_cons_self)
  refine ⟨{ l.nodeNew (some b) d with
      heap := update (update l.heap l.fresh (some ⟨some b, d⟩)) p none
      pHead := some l.fresh
      iListLen := l.iListLen + 1 - 1 },
    by simp [simpleLinkListSet, hd, hcell, hlong, hfirst, nodeNew, nodeDestroy, hpf], rfl,
    splice (u := some (l.fresh, d)) h₀ (Nat.le_succ _) ?_ rfl h.tail fun q hq hqf => ?_⟩
  · rintro _ ⟨⟩
    exact ⟨.inr ⟨rfl, Nat.lt_succ_self _⟩, by simp [hpf.symm]⟩
  · have hqp : q ≠ p := fun heq => hq (by simp [heq])
    simp [hqp, hqf]

/-- Behind another element the old block is looked for, and the walk goes on behind the new one. -/
theorem replaceBehind_holds (h : l.toSingle.Holds (as ++ (p, x) :: bs)) (has : as ≠ [])
    (hd : d ≠ []) (hlong : ¬ d.length ≤ x.length) :
    ∃ l', simpleLinkListSet l true (some p) d = some (l', .noErr) ∧ l'.fresh = l.fresh + 1 ∧
      l'.toSingle.Holds (as ++ (l.fresh, d) :: bs) := by
  obtain ⟨hpA, hpB⟩ := notMem_of_nodup h.nodup
  obtain ⟨as, ⟨t, y⟩, rfl⟩ := as.eq_nil_or_concat.resolve_left has
  rw [concat_eq_append] at *
  have hcell := heap_eq h
  have ht : l.heap t = some ⟨some p, y⟩ := heap_eq (by simpa using h)
  have hpf : p ≠ l.fresh := Nat.ne_of_lt (h.lt (p, x) (by simp))
  have htf : t ≠ l.fresh := Nat.ne_of_lt (h.lt (t, y) (by simp))
  have hpt : p ≠ t := fun heq => hpA (by simp [heq])
  have hhead : l.pHead = firstOr none (as ++ [(t, y)] ++ (p, x) :: bs) := h.head
  have hfirst : l.pHead ≠ some p := by
    rwa [hhead, Ne, firstOr_eq_iff hpA]
  let new := l.nodeNew (firstOr none bs) d
  let l' : SimpleList := { new with
    heap := update (update new.heap t (some ⟨some l.fresh, y⟩)) p none
    pTail := if l.pTail = some p then some l.fresh else l.pTail
    iListLen := l.iListLen + 1 - 1 }
  have htail : l'.pTail = lastOr (some l.fresh) bs := by
    rw [← lastOr_ite (some l.fresh) hpB, ← h.tail]
    rfl
  have hholds : l'.toSingle.Holds (as ++ [(t, y)] ++ (l.fresh, d) :: bs) := by
    have h₁ : l.toSingle.Holds (as ++ [(t, y)] ++ ([(p, x)] ++ bs)) := h
    refine splice (u := some (l.fresh, d)) h₁ (Nat.le_succ _) ?_ (hhead.trans (by simp))
      (htail.trans (by simp)) fun q hq hqf => ?_
    · rintro _ ⟨⟩
      exact ⟨.inr ⟨rfl, Nat.lt_succ_self _⟩, by simp [l', new, nodeNew, hpf.symm, htf.symm]⟩
    · have hqp : q ≠ p := fun heq => hq (by simp [heq])
      rw [lastOr_concat]
      by_cases hqt : q = t
      · subst hqt
        simp [l', ht, hqp]
      · simp [l', new, nodeNew, hqp, hqf, hqt, Ne.symm hqt]
  refine ⟨l', ?_, rfl, hholds⟩
  obtain ⟨k, hk, hwalk⟩ := reach (F := fun n o => replaceFrom p l.fresh n o new) (m := new)
    (n := new.fresh) (by simpa using h) (fun n q c hc hne => by simp [replaceFrom, hc, hne])
    (fun q hq => update_of_ne hq ..) (Nat.le_succ _)
  have hcut : replaceFrom p l.fresh (k + 1) (some t) new =
      replaceFrom p l.fresh k (some l.fresh) l' := by
    by_cases hlast : l.pTail = some p <;>
      simp [replaceFrom, new, nodeNew, write, nodeDestroy, l', hlast, ht, hcell, htf, hpt, hpf]
  -- behind the new block there is none that points at the old one
  have hrest : replaceFrom p l.fresh k (some l.fresh) l' = some l' := by
    have hlinked := (linked_append.mp hholds.linked).2
    have hp : p ∉ ((l.fresh, d) :: bs).map Prod.fst := by
      rw [map_cons, mem_cons, not_or]
      exact ⟨hpf, hpB⟩
    rw [← append_nil ((l.fresh, d) :: bs)] at hlinked
    refine (walk_eq (F := fun n o => replaceFrom p l.fresh n o l')
      (fun n q c hc hne => by simp [replaceFrom, hc, hne]) hlinked hp
      (some_ne_none p).symm hk).trans ?_
    cases k - ((l.fresh, d) :: bs).length <;> rfl
  rw [simpleLinkListSet, if_neg hd, hcell]
  simp only [bind_eq_bind, bind_some, if_neg hlong, if_neg hfirst,
    Bool.true_eq_false, if_false]
  rw [hwalk, hcut, hrest]
  rfl

/-- A call with a new element, from what it does where there is data and memory. -/
theorem Stands.insert (h : l.Stands s)
    {put : Nat × Data → List (Nat × Data) → List (Nat × Data)} {r : Option (SimpleList × Ret)}
    (herr : d = [] ∨ mem = false → r = some (l, .generalErr))
    (hput : d ≠ [] → mem = true → ∃ l', r = some (l', .noErr) ∧ l'.fresh = l.fresh + 1 ∧
      l'.toSingle.Holds (put (l.fresh, d) s.elems))
    (hs : s.insert mem d put = (s', o)) :
    ∃ l', r.map (fun r => (r.1, [.ret r.2])) = some (l', o) ∧ l'.Stands s' := by
  rw [Sequence.insert] at hs
  split at hs <;> obtain ⟨rfl, rfl⟩ := Prod.mk.inj hs
  case isTrue hd => exact ⟨l, by rw [herr hd]; rfl, h⟩
  case isFalse hd =>
    rw [not_or, Bool.not_eq_false] at hd
    obtain ⟨l', hr, hfresh, hholds⟩ := hput hd.1 hd.2
    rw [h.fresh] at hfresh hholds
    exact ⟨l', by rw [hr]; rfl, hholds, hfresh⟩

theorem Stands.set (h : l.Stands s) (hp : s.Live p) (hd : d ≠ [])
    (hreg : s.SimpleRegular (.set mem (some p) d))
    (hs : (if s.Holds p d then s.set p d else s.replace mem p d) = (s', o)) :
    ∃ l', LinkList.simpleStep l (.set mem (some p) d) = some (l', o) ∧ l'.Stands s' := by
  obtain ⟨as, x, bs, heq, hpA, hpB⟩ := h.split hp
  have hholds := heq ▸ h.holds
  have hcell := heap_eq hholds
  have hmap {e : Nat × Data} := Keyed.map_write_split (f := fun _ => e) hholds.nodup
  have hlen : s.Holds p d ↔ d.length ≤ x.length := by
    refine ⟨?_, fun hle => ⟨(p, x), by simp [heq], rfl, hle⟩⟩
    rintro ⟨⟨q, z⟩, hz, rfl, hle⟩
    rw [heq, mem_append, mem_cons] at hz
    rcases hz with hz | hz | hz
    · exact absurd (mem_map_of_mem hz) hpA
    · rwa [← (Prod.mk.inj hz).2]
    · exact absurd (mem_map_of_mem hz) hpB
  split at hs
  case isTrue hle =>
    rw [Sequence.set, if_neg hd] at hs
    obtain ⟨rfl, rfl⟩ := Prod.mk.inj hs
    obtain ⟨l', hwrite, hfresh, hnew⟩ := write_holds hholds d
    refine ⟨l', ?_, by rw [heq]; exact hmap.symm ▸ hnew, hfresh.trans h.fresh⟩
    simp [LinkList.simpleStep, simpleLinkListSet, hd, hcell, hlen.mp hle, hwrite]
  case isFalse hle =>
    have hlong : ¬ d.length ≤ x.length := fun h => hle (hlen.mpr h)
    refine h.insert (fun herr => ?_) (fun _ hm => ?_) hs
    · simp [simpleLinkListSet, hd, hcell, hlong, herr.resolve_left hd]
    · subst hm
      rw [heq, hmap]
      by_cases has : as = []
      · subst has
        have hone := (hreg.resolve_left hle).resolve_left Bool.true_eq_false.mp
        cases bs with
        | nil => exact absurd (by rw [heq]; rfl) hone
        | cons b bs => exact replaceFirst_holds hholds hd hlong
      · exact replaceBehind_holds hholds has hd hlong

/-- A regular call does to the list what it does to the sequence. -/
theorem Stands.simpleStep (h : l.Stands s) {op : SimpleOp} (hop : s.simpleStep op = some (s', o))
    (hreg : s.SimpleRegular op) : ∃ l', LinkList.simpleStep l op = some (l', o) ∧ l'.Stands s' := by
  cases op with
  | headInsert mem d =>
    refine h.insert (r := some (simpleLinkListHeadInsert l mem d)) (fun herr => ?_)
      (fun hd hm => ?_) (some.inj hop)
    · rw [simpleLinkListHeadInsert, if_pos herr]
    · obtain ⟨l', hins, hnew⟩ := headInsert_holds h.holds hd
      exact ⟨l', by rw [hm, hins], hnew⟩
  | tailInsert mem d =>
    rw [Sequence.simpleStep, some.injEq] at hop
    split at hop
    case isTrue hd =>
      obtain ⟨rfl, rfl⟩ := Prod.mk.inj hop
      exact ⟨l, by simp [LinkList.simpleStep, simpleLinkListTailInsert, hd], h⟩
    case isFalse hd =>
      refine h.insert (fun herr => ?_) (fun _ hm => hm ▸ tailInsert_holds h.holds hd) hop
      rw [simpleLinkListTailInsert, if_neg hd, if_pos (herr.resolve_left hd)]
  | del p =>
    cases p with
    | none => cases hop
    | some p =>
      rw [Sequence.simpleStep, ite_none_right_eq_some, some.injEq] at hop
      obtain ⟨hlive, hs⟩ := hop
      obtain ⟨rfl, rfl⟩ := Prod.mk.inj hs
      obtain ⟨as, x, bs, heq, hp⟩ := h.split hlive
      have has : as ≠ [] := fun hnil => hreg (by rw [heq]; exact (firstOr_eq_iff hp.1).mpr hnil)
      obtain ⟨l', hdel, hfresh, hnew⟩ := del_holds (heq ▸ h.holds) has
      have hfilter := Keyed.filter_ne_split (heq ▸ h.holds.nodup)
      refine ⟨l', by rw [LinkList.simpleStep, hdel]; rfl, ?_, hfresh.trans h.fresh⟩
      rw [heq]
      exact hfilter.symm ▸ hnew
  | set mem p d =>
    cases p with
    | none => cases hop
    | some p =>
      rw [Sequence.simpleStep, ite_none_right_eq_some, some.injEq] at hop
      obtain ⟨hlive, hs⟩ := hop
      by_cases hd : d = []
      · rw [if_pos hd] at hs
        obtain ⟨rfl, rfl⟩ := Prod.mk.inj hs
        exact ⟨l, by simp [LinkList.simpleStep, simpleLinkListSet, hd], h⟩
      · rw [if_neg hd] at hs
        exact h.set hlive hd hreg hs
  | len | head | tail | next | find | clear | get | print => cases hop

/-- And one that is not does not: it returns an error, or leaves the tail where it was. -/
theorem Stands.regular (h : l.Stands s) {op : SimpleOp} (hop : s.simpleStep op = some (s', o))
    (hstep : LinkList.simpleStep l op = some (l', o)) (href : l'.Refines s'.elems) :
    s.SimpleRegular op := by
  by_contra hreg
  cases op with
  | del p =>
    cases p with
    | none => cases hop
    | some p =>
      rw [Sequence.simpleStep, ite_none_right_eq_some, some.injEq] at hop
      obtain ⟨hlive, hs⟩ := hop
      obtain ⟨rfl, rfl⟩ := Prod.mk.inj hs
      obtain ⟨as, x, bs, heq, hp⟩ := h.split hlive
      have hcell := heap_eq (heq ▸ h.holds)
      have hfirst : l.pHead = some p := h.holds.head.trans (not_not.mp hreg)
      by_cases hlast : l.pTail = some p <;>
        simp [LinkList.simpleStep, simpleLinkListDel, hfirst, hcell, nodeDestroy, hlast] at hstep
  | set mem p d =>
    cases p with
    | none => cases hop
    | some p =>
      rw [Sequence.simpleStep, ite_none_right_eq_some, some.injEq] at hop
      obtain ⟨hlive, hs⟩ := hop
      rw [Sequence.SimpleRegular, not_or, not_or, not_not, Bool.not_eq_false] at hreg
      obtain ⟨hle, rfl, hone⟩ := hreg
      obtain ⟨as, x, bs, heq, hp⟩ := h.split hlive
      obtain ⟨rfl, rfl⟩ : as = [] ∧ bs = [] := by
        rw [heq, length_append, length_cons] at hone
        exact ⟨eq_nil_of_length_eq_zero (by omega),
          eq_nil_of_length_eq_zero (by omega)⟩
      have hd : d ≠ [] := by
        rintro rfl
        exact hle ⟨(p, x), by simp [heq], rfl, Nat.zero_le _⟩
      have hlong : ¬ d.length ≤ x.length := fun h => hle ⟨(p, x), by simp [heq], rfl, h⟩
      have hcell : l.heap p = some ⟨none, x⟩ := heap_eq (heq ▸ h.holds)
      have hfirst : l.pHead = some p := (heq ▸ h.holds).head
      have hlast : l.pTail = some p := (heq ▸ h.holds).tail
      have hpf : p ≠ l.fresh := Nat.ne_of_lt (h.holds.lt (p, x) (by simp [heq]))
      rw [if_neg hd, if_neg hle, Sequence.replace, Sequence.insert, if_neg (by simp [hd])] at hs
      obtain ⟨rfl, rfl⟩ := Prod.mk.inj hs
      have htail : l'.pTail = some p := by
        simp [LinkList.simpleStep, simpleLinkListSet, hd, hcell, hlong, hfirst, nodeNew,
          nodeDestroy, hpf] at hstep
        rw [← hstep, hlast]
      have hmade : l'.pTail = some s.made := by
        rw [href.tail, heq]
        simp [lastOr]
      rw [htail, ← h.fresh] at hmade
      exact hpf (some.inj hmade)
  | headInsert | tailInsert | len | head | tail | next | find | clear | get | print =>
    exact hreg trivial

end SimpleList

/-- `new_simple_link_list`. -/
def newSimpleList : SimpleList := ⟨fun _ => none, 0, none, none, 0⟩

theorem stands_newSimpleList : newSimpleList.Stands ⟨[], 0⟩ :=
  ⟨⟨nodup_nil, rfl, rfl, trivial, nofun⟩, rfl⟩

/-- The list goes the way of the sequence, step by step, exactly as long as all calls are
regular. -/
theorem simpleLinkList_refines_iff {ops : List SimpleOp} {s : Sequence} {os : List Out}
    (h : Run.run Sequence.simpleStep ⟨[], 0⟩ ops = some (s, os)) :
    (∀ bs, bs <+: ops → ∀ u ou, Run.run Sequence.simpleStep ⟨[], 0⟩ bs = some (u, ou) →
      ∃ l, Run.run simpleStep newSimpleList bs = some (l, ou) ∧ l.Refines u.elems) ↔
      Run.Along Sequence.simpleStep Sequence.SimpleRegular ⟨[], 0⟩ ops :=
  Run.refines_iff_along (fun _ _ hr => hr.refines)
    (fun _ _ _ _ _ hr hop hreg => hr.simpleStep hop hreg)
    (fun _ _ _ _ _ _ hr hop hstep href => hr.regular hop hstep href) stands_newSimpleList h

/-- Three elements, longer data for the first and for the last, shorter data for one, and one taken
out from between the others. -/
theorem simpleLinkList_refines_sample :
    ∃ l, Run.run simpleStep newSimpleList
        [.tailInsert true [1, 2], .tailInsert true [3], .headInsert true [4],
          .set true (some 1) [5, 6], .set true (some 2) [7, 8], .set true (some 0) [9],
          .del (some 0)] = some (l, List.replicate 7 (.ret .noErr)) ∧
      l.Refines [(4, [7, 8]), (3, [5, 6])] := by
  have hrun : Run.run Sequence.simpleStep ⟨[], 0⟩
      [.tailInsert true [1, 2], .tailInsert true [3], .headInsert true [4],
        .set true (some 1) [5, 6], .set true (some 2) [7, 8], .set true (some 0) [9],
        .del (some 0)] =
      some (⟨[(4, [7, 8]), (3, [5, 6])], 5⟩, List.replicate 7 (.ret .noErr)) := by
    decide
  exact (simpleLinkList_refines_iff hrun).mpr (by decide) _ (List.prefix_refl _) _ _ hrun

/-- The only element, taken out with an error. -/
theorem not_simpleLinkList_refines :
    ¬ ∀ (ops : List SimpleOp) (s : Sequence) (os : List Out),
      Run.run Sequence.simpleStep ⟨[], 0⟩ ops = some (s, os) →
      ∃ l, Run.run simpleStep newSimpleList ops = some (l, os) ∧ l.Refines s.elems := by
  intro h
  obtain ⟨l, hrun, -⟩ := h [.headInsert true [1], .del (some 0)] ⟨[], 1⟩
    [.ret .noErr, .ret .noErr] (by decide)
  have herr : (Run.run simpleStep newSimpleList [.headInsert true [1], .del (some 0)]).map
      Prod.snd = some [.ret .noErr, .ret .generalErr] := rfl
  rw [hrun] at herr
  cases herr

end Honyar.LinkList
