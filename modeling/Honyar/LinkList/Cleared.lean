import Honyar.LinkList.Simple
import Honyar.MsgQueue.Cleared

/-!
# Lists that were cleared

The clear functions give every block back and leave the ends of the list where they were.  A
cleared list is then told from one that was just made by the first pointer it hands out, unless
there was nothing to clear.
-/

namespace Honyar.LinkList

open Option

variable {l l' : LinkedList}
variable {ω : Type} {step : LinkedList → ω → Option (LinkedList × List Out)}

theorem doubleLinkListClear_of_head_none (h : l.list.head = none) :
    doubleLinkListClear l = some (l, .noErr) := by
  rw [doubleLinkListClear, h, LinkedList.clearFrom_none]
  rfl

theorem doubleLinkListClear_ends (h : doubleLinkListClear l = some (l', .noErr)) :
    l'.list.head = l.list.head ∧ (l'.list.head = none → l' = l) := by
  obtain ⟨l₁, hclear, h⟩ := bind_eq_some_iff.mp h
  obtain ⟨rfl, -⟩ := Prod.mk.inj (some.inj h)
  have hends := LinkedList.clearFrom_ends hclear
  refine ⟨hends.1, fun hnone => ?_⟩
  rw [← hends.1, hnone, LinkedList.clearFrom_none] at hclear
  exact (some.inj hclear).symm

theorem alike_next {a : ω} (hstep : ∀ l, step l a = seen l ((doubleLinkListNext l none).map .ptr))
    (h : Run.Alike step l l.madeBeside) : l.list.head = none := by
  have hemits := h.emits a
  rw [hstep, hstep] at hemits
  have hptr : ([.ptr l.list.head] : List Out) = [.ptr none] := some.inj hemits
  exact Out.ptr.inj (List.cons.inj hptr).1

theorem alike_len {a : ω} (hstep : ∀ l, step l a = seen l (some (.num l.iListLen)))
    (h : Run.Alike step l l.madeBeside) : l.iListLen = 0 := by
  have hemits := h.emits a
  rw [hstep, hstep] at hemits
  have hnum : ([.num l.iListLen] : List Out) = [.num 0] := some.inj hemits
  exact Out.num.inj (List.cons.inj hnum).1

theorem cleared_alike (hhead : l.list.head = none) (htail : l.list.tail = none)
    (hlen : l.iListLen = 0) :
    ∃ l', doubleLinkListClear l = some (l', .noErr) ∧ Run.Alike step l' l'.madeBeside := by
  refine ⟨l, doubleLinkListClear_of_head_none hhead, ?_⟩
  rw [LinkedList.madeBeside_eq hhead htail hlen]
  exact Run.Alike.refl l

theorem double_cleared_iff (l : LinkedList) :
    (∃ l', doubleLinkListClear l = some (l', .noErr) ∧ Run.Alike doubleStep l' l'.madeBeside) ↔
      l.list.head = none ∧ l.list.tail = none ∧ l.iListLen = 0 := by
  constructor
  · rintro ⟨l', hclear, halike⟩
    have hhead : l'.list.head = none := alike_next (a := .next none) (fun _ => rfl) halike
    obtain ⟨-, hsame⟩ := doubleLinkListClear_ends hclear
    obtain rfl := hsame hhead
    refine ⟨hhead, ?_, alike_len (a := .len) (fun _ => rfl) halike⟩
    have hprev := halike.emits (.prev none)
    have hptr : ([.ptr l'.list.tail] : List Out) = [.ptr none] := some.inj hprev
    exact Out.ptr.inj (List.cons.inj hptr).1
  · rintro ⟨hhead, htail, hlen⟩
    exact cleared_alike hhead htail hlen

theorem tailInsert_head {m m' : DoubleList Data} {t : Nat} {pData : Data} (ht : m.tail = some t)
    (h : m.tailInsert pData = some m') : m'.head = m.head := by
  rw [DoubleList.tailInsert, ht] at h
  obtain ⟨m₁, hfirst, h⟩ := bind_eq_some_iff.mp h
  obtain ⟨m₂, hsecond, h⟩ := bind_eq_some_iff.mp h
  obtain ⟨n₁, -, rfl⟩ := map_eq_some_iff.mp hfirst
  obtain ⟨n₂, -, rfl⟩ := map_eq_some_iff.mp hsecond
  rw [← some.inj h]
  rfl

theorem order_tail_eq_none (hhead : l.list.head = none)
    (h : Run.Alike orderStep l l.madeBeside) : l.list.tail = none := by
  by_contra hne
  obtain ⟨t, ht⟩ := ne_none_iff_exists'.mp hne
  have hmade : orderStep l.madeBeside (.append true [0]) =
      some (⟨{ l.list.alloc [0] with head := some l.list.fresh, tail := some l.list.fresh }, 1⟩,
        [.ret .noErr]) := rfl
  have hemits := h.emits (.append true [0])
  rw [hmade] at hemits
  obtain ⟨⟨l₁, o⟩, hstep, -⟩ := map_eq_some_iff.mp hemits
  have hnext := (h.next hstep hmade).emits (.next none)
  have hptr : ([.ptr l₁.list.head] : List Out) = [.ptr (some l.list.fresh)] :=
    some.inj hnext
  -- the first block is the one it was, and there was none
  obtain ⟨⟨l₂, r⟩, happend, hl₁⟩ := map_eq_some_iff.mp hstep
  obtain ⟨rfl, -⟩ := Prod.mk.inj hl₁
  obtain ⟨m, hinsert, hl₂⟩ := bind_eq_some_iff.mp happend
  obtain ⟨rfl, -⟩ := Prod.mk.inj (some.inj hl₂)
  rw [tailInsert_head ht hinsert, hhead] at hptr
  cases Out.ptr.inj (List.cons.inj hptr).1

theorem order_cleared_iff (l : LinkedList) :
    (∃ l', orderLinkListClear l = some (l', .noErr) ∧ Run.Alike orderStep l' l'.madeBeside) ↔
      l.list.head = none ∧ l.list.tail = none ∧ l.iListLen = 0 := by
  constructor
  · rintro ⟨l', hclear, halike⟩
    have hhead : l'.list.head = none := alike_next (a := .next none) (fun _ => rfl) halike
    obtain ⟨-, hsame⟩ := doubleLinkListClear_ends hclear
    obtain rfl := hsame hhead
    exact ⟨hhead, order_tail_eq_none hhead halike, alike_len (a := .len) (fun _ => rfl) halike⟩
  · rintro ⟨hhead, htail, hlen⟩
    exact cleared_alike hhead htail hlen

/-! ## The simple list -/

variable {u u' : SimpleList}

theorem SimpleList.clearFrom_ends {n : Nat} {p : Option Nat}
    (h : SimpleList.clearFrom n p u = some u') : u'.pHead = u.pHead := by
  induction n generalizing p u with
  | zero =>
    cases p with
    | none => rw [← some.inj h]
    | some p => cases h
  | succ n ih =>
    cases p with
    | none => rw [← some.inj h]
    | some p =>
      obtain ⟨c, -, h⟩ := bind_eq_some_iff.mp h
      obtain ⟨u₁, hfree, h⟩ := bind_eq_some_iff.mp h
      obtain ⟨d, -, rfl⟩ := map_eq_some_iff.mp hfree
      have hends := ih h
      exact hends

theorem SimpleList.clearFrom_none (n : Nat) (u : SimpleList) :
    SimpleList.clearFrom n none u = some u := by
  cases n <;> rfl

theorem SimpleList.madeBeside_eq (hhead : u.pHead = none) (htail : u.pTail = none)
    (hlen : u.iListLen = 0) : u.madeBeside = u := by
  obtain ⟨heap, fresh, pHead, pTail, iListLen⟩ := u
  obtain rfl : pHead = none := hhead
  obtain rfl : pTail = none := htail
  obtain rfl : iListLen = 0 := hlen
  rfl

theorem simple_tail_eq_none (hhead : u.pHead = none)
    (h : Run.Alike simpleStep u u.madeBeside) : u.pTail = none := by
  by_contra hne
  obtain ⟨t, ht⟩ := ne_none_iff_exists'.mp hne
  have hmade : simpleStep u.madeBeside (.tailInsert true [0]) =
      some ({ u.madeBeside.nodeNew none [0] with pHead := some u.fresh, pTail := some u.fresh },
        [.ret .noErr]) := rfl
  have hemits := h.emits (.tailInsert true [0])
  rw [hmade] at hemits
  obtain ⟨⟨u₁, o⟩, hstep, -⟩ := map_eq_some_iff.mp hemits
  have hnext := (h.next hstep hmade).emits (.next none)
  have hptr : ([.ptr u₁.pHead] : List Out) = [.ptr (some u.fresh)] := some.inj hnext
  obtain ⟨⟨u₂, r⟩, hinsert, hu₁⟩ := map_eq_some_iff.mp hstep
  obtain ⟨rfl, -⟩ := Prod.mk.inj hu₁
  rw [simpleLinkListTailInsert, if_neg (by decide), if_neg (by decide), ht] at hinsert
  obtain ⟨u₃, hwrite, hu₂⟩ := bind_eq_some_iff.mp hinsert
  obtain ⟨rfl, -⟩ := Prod.mk.inj (some.inj hu₂)
  obtain ⟨n, -, rfl⟩ := map_eq_some_iff.mp hwrite
  have hkept : u.pHead = some u.fresh := Out.ptr.inj (List.cons.inj hptr).1
  rw [hhead] at hkept
  cases hkept

/-- A cleared simple list is like one just made exactly if it was. -/
theorem simple_cleared_iff (u : SimpleList) :
    (∃ u', simpleLinkListClear u = some (u', .noErr) ∧ Run.Alike simpleStep u' u'.madeBeside) ↔
      u.pHead = none ∧ u.pTail = none ∧ u.iListLen = 0 := by
  constructor
  · rintro ⟨u', hclear, halike⟩
    obtain ⟨u₁, hloop, h⟩ := bind_eq_some_iff.mp hclear
    obtain ⟨rfl, -⟩ := Prod.mk.inj (some.inj h)
    have hnext := halike.emits (.next none)
    have hptr : ([.ptr u₁.pHead] : List Out) = [.ptr none] := some.inj hnext
    have hhead : u₁.pHead = none := Out.ptr.inj (List.cons.inj hptr).1
    rw [← SimpleList.clearFrom_ends hloop, hhead, SimpleList.clearFrom_none] at hloop
    obtain rfl := some.inj hloop
    have hlen := halike.emits .len
    have hnum : ([.num u.iListLen] : List Out) = [.num 0] := some.inj hlen
    exact ⟨hhead, simple_tail_eq_none hhead halike, Out.num.inj (List.cons.inj hnum).1⟩
  · rintro ⟨hhead, htail, hlen⟩
    refine ⟨u, ?_, ?_⟩
    · rw [simpleLinkListClear, hhead, SimpleList.clearFrom_none]
      rfl
    · rw [SimpleList.madeBeside_eq hhead htail hlen]
      exact Run.Alike.refl u

/-! ## All of them -/

open MsgQueue (newMsgQueue msgQueueClear callStep)

/-- A cleared container is like one just made exactly where there was nothing to clear: no run tells
them apart, and so none comes upon a block that was given back. -/
theorem cleared_iff (l : LinkedList) (u : SimpleList) (calls : List MsgQueue.Call)
    (q : MsgQueue.MsgQueue) (rs : List MsgQueue.Result) :
    ((∃ l', doubleLinkListClear l = some (l', .noErr) ∧
        Run.Alike doubleStep l' l'.madeBeside) ↔
      l.list.head = none ∧ l.list.tail = none ∧ l.iListLen = 0) ∧
    ((∃ l', orderLinkListClear l = some (l', .noErr) ∧
        Run.Alike orderStep l' l'.madeBeside) ↔
      l.list.head = none ∧ l.list.tail = none ∧ l.iListLen = 0) ∧
    ((∃ u', simpleLinkListClear u = some (u', .noErr) ∧
        Run.Alike simpleStep u' u'.madeBeside) ↔
      u.pHead = none ∧ u.pTail = none ∧ u.iListLen = 0) ∧
    (Run.run callStep newMsgQueue calls = some (q, rs) →
      ((∃ q', msgQueueClear q = some (q', .noErr) ∧
          Run.Alike callStep q' (MsgQueue.madeBeside q')) ↔ q.types.head = none)) :=
  ⟨double_cleared_iff l, order_cleared_iff l, simple_cleared_iff u,
    fun h => MsgQueue.queue_cleared_iff h⟩

/-- `new_double_link_list`, before anything else. -/
def newDoubleLinkList : LinkedList := ⟨DoubleList.empty, 0⟩

/-- `new_simple_link_list`, before anything else. -/
def newSimpleLinkList : SimpleList := ⟨fun _ => none, 0, none, none, 0⟩

/-- A message comes and goes, and an hour later another type is looked for. -/
def idleHour : List MsgQueue.Call :=
  [.op (.push ⟨0, 0, true, true⟩ 1 [1]), .op (.pop ⟨0, 0, true, true⟩ (-1) 8),
    .len ⟨3600, 3600, false, true⟩ 2]

/-- A list whose only block went, and a queue whose only entry went. -/
theorem cleared_sample :
    (∃ l os, Run.run doubleStep newDoubleLinkList [.tailInsert true [1], .del (some 0)] =
        some (l, os) ∧
      ∃ l', doubleLinkListClear l = some (l', .noErr) ∧ Run.Alike doubleStep l' l'.madeBeside) ∧
    ∃ q rs, Run.run callStep newMsgQueue idleHour = some (q, rs) ∧
      ∃ q', msgQueueClear q = some (q', .noErr) ∧
        Run.Alike callStep q' (MsgQueue.madeBeside q') :=
  ⟨⟨_, _, rfl, (cleared_iff _ newSimpleLinkList [] newMsgQueue []).1.mpr ⟨rfl, rfl, rfl⟩⟩,
    ⟨_, _, rfl, ((cleared_iff newDoubleLinkList newSimpleLinkList idleHour _ _).2.2.2 rfl).mpr rfl⟩⟩

/-- A list and a queue that were cleared with something in them: the next insertion and the next
look for a type come upon a block that was given back. -/
theorem cleared_dangling :
    (∃ l os l', Run.run doubleStep newDoubleLinkList [.tailInsert true [1]] = some (l, os) ∧
      doubleLinkListClear l = some (l', .noErr) ∧ doubleStep l' (.tailInsert true [2]) = none ∧
        (doubleStep l'.madeBeside (.tailInsert true [2])).map Prod.snd = some [.ret .noErr] ∧
          ¬ Run.Alike doubleStep l' l'.madeBeside) ∧
    ∃ q rs q', Run.run callStep newMsgQueue [.op (.push ⟨0, 0, true, true⟩ 1 [1])] = some (q, rs) ∧
      msgQueueClear q = some (q', .noErr) ∧ callStep q' (.len ⟨0, 0, true, true⟩ 1) = none ∧
        (callStep (MsgQueue.madeBeside q') (.len ⟨0, 0, true, true⟩ 1)).map Prod.snd =
          some [.len 0] ∧ ¬ Run.Alike callStep q' (MsgQueue.madeBeside q') := by
  refine ⟨⟨_, _, _, rfl, rfl, rfl, rfl, fun h => ?_⟩, ⟨_, _, _, rfl, rfl, rfl, rfl, fun h => ?_⟩⟩
  · have hemits := h.emits (.tailInsert true [2])
    cases hemits
  · have hemits := h.emits (.len ⟨0, 0, true, true⟩ 1)
    cases hemits

end Honyar.LinkList
