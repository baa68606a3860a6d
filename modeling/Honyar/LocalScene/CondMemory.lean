import Honyar.Lib.Chain
import Honyar.LocalScene.CondStore
import Honyar.LocalScene.Statements

/-!
# Condition lists in memory

`cond_add` and `cond_del` as they go through pointers: the conditions of a set are blocks that
point at each other, in one memory for the sets of all lists, and a set has a pointer to the first
of them.  A list at an address is of one logic and one type, which the two functions go by.

`cond_del` is called with a list and a pointer, and takes the set from the pointer; nothing in it
compares the list with the one the pointer was made for.  The functions of `scene_list.c` look the
pointer up by the text of the condition and the scene alone, and call the list they are named
after.

The second half says which list without pointers the records in memory stand for, and that the
two functions do to it what the model of the lists says.

`none` is memory the source may not touch.  Memory is allocated, and the queue of the database
takes every statement.
-/

namespace Honyar.LocalScene

open Chain (IsChain)
open DoubleList (firstOr lastOr)
open Option List

/-! ## Records -/

/-- `time_cond_node_t`, `event_cond_node_t`, without the links. -/
structure CondRecord where
  iCondIndex : Int
  acCondType : Kind
  stCond : Cond acCondType

/-- The condition nodes of all lists. -/
abbrev CondHeap := Chain.Heap CondRecord

/-- `cond_list_node_t` with its `cond_set_t`. -/
structure CondListNode where
  addr : Nat
  iCondSetIndex : Nat
  uiCondTrue : BitVec 32
  ucCondCount : Nat
  pstCond : Option Nat

/-- `cond_info_t`. -/
structure CondInfo where
  acId : CText
  acLogic : Logic
  acCondType : Kind

/-- `cond_list_class_t`. -/
structure CondListClass extends CondInfo where
  ucInitFlag : Bool
  stList : List CondListNode
  iNodeNum : Int
  uiCondSetTrue : BitVec 32
  iCount : Int

/-- The pointers of a `ptr_info_t` to a condition. -/
structure PtrInfo where
  pstCondList : Nat
  pCondSetNode : Nat
  pCondNode : Nat
deriving DecidableEq

/-- The lists at their addresses, the conditions, the first address that `calloc` has not
returned yet, the statements that wait for the database, and the pointers that are filed: those
`cond_add` has made and `cond_del` has not got. -/
structure CondMemory where
  lists : Nat → CondListClass
  heap : CondHeap
  fresh : Nat
  pstDbExecQueue : List CText
  ptrs : List PtrInfo

/-! ## Chains of conditions -/

/-- Links a new node behind the others of its set, and gives it the index behind the last one's;
`calloc` left 0. -/
def linkCond (heap : CondHeap) (fuel : Nat) (pstCond : Option Nat) (pNew : Nat) :
    Option (CondHeap × Option Nat) := do
  let (heap, pstCond) ← Chain.link heap fuel pstCond pNew
  let c ← heap pNew
  match c.prev with
  | none => return (heap, pstCond)
  | some p => do
    let d ← heap p
    let heap ← Chain.write heap pNew fun c =>
      { c with data := { c.data with iCondIndex := d.data.iCondIndex + 1 } }
    return (heap, pstCond)

/-- `p->iCondIndex--`. -/
def CondRecord.down (c : CondRecord) : CondRecord := { c with iCondIndex := c.iCondIndex - 1 }

/-- The indices from a node on go down by one, unless it is the last of several. -/
def downFrom (heap : CondHeap) (fuel : Nat) (p : Nat) : Option CondHeap := do
  let c ← heap p
  if c.prev ≠ none ∧ c.next = none then some heap
  else Chain.mapFrom CondRecord.down fuel (some p) heap

/-- Takes a node out of its set: the only one, the first, the last or one in between. -/
def cutCond (heap : CondHeap) (fuel : Nat) (pstCond : Option Nat) (p : Nat) :
    Option (CondHeap × Option Nat) := do
  let heap ← downFrom heap fuel p
  Chain.unlink heap pstCond p

/-! ## Lists of sets -/

/-- The set `new_node` allocates. -/
def CondListNode.new (addr : Nat) : CondListNode where
  addr := addr
  iCondSetIndex := 0
  uiCondTrue := 0
  ucCondCount := 0
  pstCond := none

/-- The loop of `cond_list_update_index`, from its counter on. -/
def CondListNode.numberFrom : Nat → List CondListNode → List CondListNode
  | _, [] => []
  | i, n :: ns => { n with iCondSetIndex := i } :: numberFrom (i + 1) ns

namespace CondListClass

/-- `new_cond_list`. -/
def newCondList (pstCondInfo : CondInfo) : CondListClass where
  toCondInfo := pstCondInfo
  ucInitFlag := false
  stList := []
  iNodeNum := 0
  uiCondSetTrue := match pstCondInfo.acLogic with | .or => 0 | .and => 1
  iCount := 0

/-- The sets a walk from `first` meets: `first` is `NULL` when the link list counts no node. -/
def walk (x : CondListClass) : List CondListNode := if x.iNodeNum = 0 then [] else x.stList

/-- The set at an address. -/
def set? (x : CondListClass) (a : Nat) : Option CondListNode := x.stList.find? fun n => n.addr == a

/-- Writes through a pointer to a set. -/
def modifySet (x : CondListClass) (a : Nat) (f : CondListNode → CondListNode) : CondListClass :=
  { x with stList := x.stList.map fun n => if n.addr = a then f n else n }

/-- `cond_list_update_index`. -/
def updateIndex (x : CondListClass) : CondListClass :=
  if x.iNodeNum = 0 then x else { x with stList := CondListNode.numberFrom 0 x.stList }

/-- `inst_tail` or `inst_head` of a new set, and `cond_list_update_index`. -/
def instSet (x : CondListClass) (addr : Nat) : CondListClass :=
  updateIndex { x with
    stList := x.acCondType.instSet x.stList (.new addr)
    iNodeNum := x.iNodeNum + 1 }

/-- `tail` in a list of time conditions, `first` in one of events. -/
def instAt (x : CondListClass) : Option CondListNode :=
  match x.acCondType with
  | .time => x.stList.getLast?
  | .event => x.walk.head?

/-- One condition less; the list gets its default word when it was the last. -/
def countDown (x : CondListClass) : CondListClass :=
  { x with
    iCount := x.iCount - 1
    uiCondSetTrue :=
      if 0 = x.iCount - 1 then (match x.acLogic with | .and => 1 | .or => 0)
      else x.uiCondSetTrue }

/-- `REMOVE_NODE`. -/
def unlink (x : CondListClass) (a : Nat) : CondListClass :=
  { x with stList := x.stList.filter (·.addr != a) }

/-- What a call for the list puts into the queue: nothing while the list is read back. -/
def queued (x : CondListClass) (call : SqlCall) : List CText :=
  if x.ucInitFlag then [] else [(call.sql x.acId x.acLogic).queued]

end CondListClass

/-- `cond_add_db`. -/
def SqlCall.condAdd : {k : Kind} → Cond k → SqlCall
  | .time => .timeCondAdd
  | .event => .eventCondAdd

/-- `cond_del_db`. -/
def SqlCall.condDel : {k : Kind} → Cond k → SqlCall
  | .time => .timeCondDel
  | .event => .eventCondDel

/-! ## The operations -/

namespace CondMemory

/-- Writes to a list. -/
def modifyList (m : CondMemory) (a : Nat) (f : CondListClass → CondListClass) : CondMemory :=
  { m with lists := Function.update m.lists a (f (m.lists a)) }

/-- A new condition in a set of the list `x`, which is the one at `this` up to a set more. -/
def addCond (m : CondMemory) (this : Nat) (x : CondListClass) (pstNode : CondListNode)
    (c : Cond x.acCondType) : Option (CondMemory × PtrInfo) := do
  let pNew := m.fresh + 1
  let heap := Function.update m.heap pNew (some ⟨none, none, ⟨0, x.acCondType, c⟩⟩)
  let (heap, pstCond) ← linkCond heap (m.fresh + 2) pstNode.pstCond pNew
  let y := x.modifySet pstNode.addr fun n =>
    { n with pstCond := pstCond, ucCondCount := n.ucCondCount + 1 }
  let z : CondListClass :=
    { y with
      iCount := x.iCount + 1
      uiCondSetTrue := if 1 = x.iCount + 1 then 0 else x.uiCondSetTrue }
  return ({ m with
    lists := Function.update m.lists this z
    heap := heap
    fresh := m.fresh + 2
    pstDbExecQueue := m.pstDbExecQueue ++ x.queued (.condAdd c) }, ⟨this, pstNode.addr, pNew⟩)

/-- `cond_add`, that is `time_cond_add` or `event_cond_add`: the pointer to the condition, or
`SceneAddErr`.  `pstCondInfo` is read as the record of the type the list has. -/
def condAdd (m : CondMemory) (this : Nat) (pstCondInfo : (k : Kind) → Cond k) :
    Option (CondMemory × Except ErrNo PtrInfo) :=
  let x := m.lists this
  match x.walk.find? fun n => n.ucCondCount < 32 with
  | some n => (m.addCond this x n (pstCondInfo _)).map fun r => (r.1, .ok r.2)
  | none =>
    if x.iNodeNum ≥ 32 then some (m, .error .sceneAddErr)
    else do
      let y := x.instSet m.fresh
      let n ← y.instAt
      let r ← m.addCond this y n (pstCondInfo _)
      return (r.1, .ok r.2)

/-- `cond_del`, that is `time_cond_del` or `event_cond_del`.  A node of the other type is not what
the list takes it for; and where another list loses its last set, that list keeps a tail pointer to
the freed node. -/
def condDel (m : CondMemory) (this : Nat) (p : PtrInfo) : Option CondMemory := do
  let pstNode ← (m.lists p.pstCondList).set? p.pCondSetNode
  let c ← m.heap p.pCondNode
  if c.data.acCondType ≠ (m.lists this).acCondType then none
  else
    let sql := (m.lists this).queued (.condDel c.data.stCond)
    if 1 = pstNode.ucCondCount then
      let (heap, _) ← Chain.freeFrom (fun u _ => u) m.fresh (some p.pCondNode) m.heap ()
      if p.pstCondList ≠ this ∧ (m.lists p.pstCondList).stList.getLast?.map CondListNode.addr =
          some pstNode.addr then none
      else
        let m := { m with heap := heap, pstDbExecQueue := m.pstDbExecQueue ++ sql }
        let m := m.modifyList this CondListClass.countDown
        let m := m.modifyList p.pstCondList fun x => x.unlink pstNode.addr
        return m.modifyList this fun x =>
          CondListClass.updateIndex { x with iNodeNum := x.iNodeNum - 1 }
    else
      let (heap, pstCond) ← cutCond m.heap m.fresh pstNode.pstCond p.pCondNode
      let m := { m with heap := heap, pstDbExecQueue := m.pstDbExecQueue ++ sql }
      let m := m.modifyList p.pstCondList fun x => x.modifySet pstNode.addr fun n =>
        { n with pstCond := pstCond, ucCondCount := n.ucCondCount - 1 }
      return m.modifyList this fun x => { x with iCount := x.iCount - 1 }

end CondMemory

variable {l : Logic} {k : Kind} {heap heap' : CondHeap} {fuel : Nat}

/-! ## Sets in memory -/

/-- The block of a condition. -/
def CondNode.item (c : CondNode k) : Nat × CondRecord := (c.addr, ⟨c.iCondIndex, k, c.stCond⟩)

@[simp] theorem map_fst_item (cs : List (CondNode k)) :
    (cs.map CondNode.item).map Prod.fst = cs.map CondNode.addr := by
  rw [List.map_map]
  rfl

@[simp] theorem map_addr_down (cs : List (CondNode k)) :
    (cs.map CondNode.down).map CondNode.addr = cs.map CondNode.addr := by
  rw [List.map_map]
  rfl

namespace CondSetNode

variable {n : CondSetNode k}

/-- The blocks of a set. -/
def items (n : CondSetNode k) : List (Nat × CondRecord) := n.pstCond.map CondNode.item

/-- The record of a set. -/
def node (n : CondSetNode k) : CondListNode where
  addr := n.addr
  iCondSetIndex := n.iCondSetIndex
  uiCondTrue := n.uiCondTrue
  ucCondCount := n.ucCondCount
  pstCond := firstOr none n.items

/-- The conditions of a set are linked in memory. -/
def InMemory (n : CondSetNode k) (heap : CondHeap) : Prop :=
  IsChain heap (firstOr none n.items) n.items

@[simp] theorem map_fst_items (n : CondSetNode k) :
    n.items.map Prod.fst = n.pstCond.map CondNode.addr := map_fst_item _

@[simp] theorem length_items (n : CondSetNode k) : n.items.length = n.pstCond.length :=
  length_map _

theorem items_addNode (a : Nat) (c : Cond k) :
    (n.addNode a c).items = n.items ++ [(a, ⟨n.nextIndex, k, c⟩)] := by
  rw [items, addNode, map_append]
  rfl

theorem InMemory.congr (h : n.InMemory heap)
    (heq : ∀ a ∈ n.pstCond.map CondNode.addr, heap' a = heap a) : n.InMemory heap' :=
  IsChain.congr h fun a ha => heq a (by rwa [map_fst_items] at ha)

theorem InMemory.of_bare {m : CondSetNode k} (h : n.InMemory heap) (heq : n.bare = m.bare) :
    m.InMemory heap := by
  have hbare : m.bare.InMemory heap := heq ▸ h
  exact hbare

theorem InMemory.linkCond (h : n.InMemory heap) (hn : n.pstCond.length ≤ fuel) {a : Nat}
    {c : Cond k} (ha : heap a = some ⟨none, none, ⟨0, k, c⟩⟩)
    (hnew : a ∉ n.pstCond.map CondNode.addr) :
    ∃ heap', linkCond heap fuel (firstOr none n.items) a =
        some (heap', firstOr none (n.addNode a c).items) ∧ (n.addNode a c).InMemory heap' ∧
      ∀ q, q ≠ a → q ∉ n.pstCond.map CondNode.addr → heap' q = heap q := by
  have hnew' : a ∉ n.items.map Prod.fst := by rwa [map_fst_items]
  obtain ⟨heap₁, head₁, hlink, hchain, hframe⟩ :=
    IsChain.link (n := fuel) h (by rwa [length_items]) ha ⟨rfl, rfl, rfl⟩ hnew'
  rw [map_fst_items] at hframe
  have hhead : head₁ = firstOr none (n.addNode a c).items := by
    rw [hchain.head, items_addNode, DoubleList.firstOr_append, DoubleList.firstOr_append]
    rfl
  have hblock : heap₁ a = some ⟨none, lastOr none n.items, ⟨0, k, c⟩⟩ := hchain.heap_eq
  rcases hlast : n.pstCond.eq_nil_or_concat with hnil | ⟨cs, d, hcs⟩
  · -- the first condition keeps the index it was allocated with
    have hitems : n.items = [] := by rw [items, hnil, map_nil]
    refine ⟨heap₁, ?_, ?_, hframe⟩
    · rw [hitems] at hblock
      rw [LocalScene.linkCond, hlink, bind_eq_bind, bind_some]
      simp only [hblock, hhead]
      rfl
    · rw [InMemory, ← hhead, items_addNode, nextIndex, hnil]
      exact hchain
  · -- the others go by the index of the one before
    rw [concat_eq_append] at hcs
    have hitems : n.items = cs.map CondNode.item ++ [d.item] := by
      rw [items, hcs, map_append, map_singleton]
    have hprev : lastOr none n.items = some d.addr := by
      rw [hitems]
      exact DoubleList.lastOr_concat _ _ _ _
    obtain ⟨e, hd, hdata⟩ := hchain.exists_eq (p := d.addr) (x := ⟨d.iCondIndex, k, d.stCond⟩)
      (mem_append_left _ (hitems ▸ mem_append_right _ (mem_singleton_self _)))
    obtain ⟨heap', hwrite, hchain', hframe'⟩ :=
      hchain.modify fun r => { r with iCondIndex := (d.iCondIndex : Int) + 1 }
    refine ⟨heap', ?_, ?_, fun q hq hqn => (hframe' q hq).trans (hframe q hq hqn)⟩
    · rw [hprev] at hblock
      rw [LocalScene.linkCond, hlink, bind_eq_bind, bind_some]
      simp only [hblock, hd, hdata, bind_eq_bind, bind_some, hwrite, hhead]
      rfl
    · have hindex : n.nextIndex = d.iCondIndex + 1 := by
        rw [nextIndex, hcs, getLast?_concat]
      rw [InMemory, ← hhead, items_addNode, hindex]
      exact hchain'

theorem map_down_item {as : List (CondNode k)} {i : Nat}
    (h : as.map CondNode.iCondIndex = List.range' (i + 1) as.length) :
    (as.map CondNode.item).map (fun q => (q.1, q.2.down)) =
      (as.map CondNode.down).map CondNode.item := by
  rw [List.map_map, List.map_map]
  refine map_congr_left fun c hc => ?_
  have hmem : c.iCondIndex ∈ List.range' (i + 1) as.length := h ▸ List.mem_map_of_mem hc
  have hpos : 1 ≤ c.iCondIndex := by
    have := (mem_range'_1.mp hmem).1
    omega
  simp only [Function.comp_apply, CondNode.item, CondNode.down, CondRecord.down,
    Nat.cast_sub hpos, Nat.cast_one]

theorem InMemory.cutCond (h : n.InMemory heap) (hw : n.Wf) (hn : n.pstCond.length ≤ fuel)
    {d : CondNode k} (hd : d ∈ n.pstCond) :
    ∃ heap', cutCond heap fuel (firstOr none n.items) d.addr =
        some (heap', firstOr none (n.delNode d.addr).items) ∧
      (n.delNode d.addr).InMemory heap' ∧
        ∀ q, q ∉ n.pstCond.map CondNode.addr → heap' q = heap q := by
  obtain ⟨bs, as, hsplit, -, hindex, htake, hdrop⟩ := hw.split hd
  set bs' := bs.map CondNode.item with hbs
  set as' := as.map CondNode.item with has
  have hitems : n.items = bs' ++ d.item :: as' := by
    rw [items, hsplit, map_append, map_cons]
  have hrest : (n.delNode d.addr).items = bs' ++ (as.map CondNode.down).map CondNode.item := by
    rw [items, delNode_eq, htake, hdrop, map_append]
  have hkeys : (bs' ++ d.item :: as').map Prod.fst = n.pstCond.map CondNode.addr := by
    rw [← hitems, map_fst_items]
  have hchain : IsChain heap (firstOr none n.items) (bs' ++ d.item :: as') := hitems ▸ h
  have hblock : heap d.addr = some ⟨firstOr none as', lastOr none bs', d.item.2⟩ := hchain.heap_eq
  -- the indices from the condition on, if they are moved
  obtain ⟨heap₁, x, hmoved, hchain₁, hframe₁⟩ : ∃ heap₁ x,
      downFrom heap fuel d.addr = some heap₁ ∧ IsChain heap₁ (firstOr none n.items)
        (bs' ++ (d.addr, x) :: (as.map CondNode.down).map CondNode.item) ∧
      ∀ q, q ∉ n.pstCond.map CondNode.addr → heap₁ q = heap q := by
    rw [downFrom, hblock, bind_eq_bind, bind_some]
    split_ifs with hlast
    · have hnil : as = [] := by
        cases as with
        | nil => rfl
        | cons b as => cases hlast.2
      subst hnil
      exact ⟨heap, d.item.2, rfl, hchain, fun _ _ => rfl⟩
    · have hlen : (d.item :: as').length ≤ fuel := by
        rw [hsplit, length_append, length_cons] at hn
        rw [length_cons, has, length_map]
        omega
      obtain ⟨heap₁, hmap, hchain₁, hframe⟩ := hchain.mapFrom hlen CondRecord.down
      refine ⟨heap₁, d.item.2.down, hmap, ?_, fun q hq => hframe q fun hmem => hq ?_⟩
      · rwa [map_cons, has, map_down_item hindex] at hchain₁
      · rw [← hkeys, map_append]
        exact mem_append_right _ hmem
  obtain ⟨heap', head', hunlink, hchain', hframe'⟩ := hchain₁.unlink
  have hhead : head' = firstOr none (n.delNode d.addr).items := by rw [hrest, hchain'.head]
  refine ⟨heap', ?_, ?_, fun q hq => (hframe' q fun hmem => hq ?_).trans (hframe₁ q hq)⟩
  · rw [LocalScene.cutCond, hmoved, bind_eq_bind, bind_some, hunlink, hhead]
  · rw [InMemory, ← hhead, hrest]
    exact hchain'
  · rw [map_append, map_cons, map_fst_item, map_fst_item, map_addr_down] at hmem
    rw [hsplit, map_append, map_cons]
    exact hmem

theorem length_le_of_lt {a : Nat} (hw : (n.pstCond.map CondNode.addr).Nodup)
    (hlt : ∀ c ∈ n.pstCond, c.addr < a) : n.pstCond.length ≤ a := by
  have hsub : n.pstCond.map CondNode.addr ⊆ List.range a := by
    intro q hq
    obtain ⟨c, hc, rfl⟩ := List.mem_map.mp hq
    exact mem_range.mpr (hlt c hc)
  simpa using (hw.subperm hsub).length_le

end CondSetNode

/-! ## Lists -/

theorem numberFrom_map (i : Nat) (ns : List (CondSetNode k)) :
    CondListNode.numberFrom i (ns.map CondSetNode.node) =
      (updateIndexFrom i ns).map CondSetNode.node := by
  induction ns generalizing i with
  | nil => rfl
  | cons n ns ih =>
    rw [map_cons, CondListNode.numberFrom, ih, updateIndexFrom, map_cons]
    rfl

theorem CondListNode.map_ucCondCount_numberFrom (i : Nat) (ns : List CondListNode) :
    (numberFrom i ns).map CondListNode.ucCondCount = ns.map CondListNode.ucCondCount := by
  induction ns generalizing i with
  | nil => rfl
  | cons n ns ih => rw [numberFrom, map_cons, ih, map_cons]

theorem map_iCondSetIndex_updateIndexFrom (i : Nat) (ns : List (CondSetNode k)) :
    (updateIndexFrom i ns).map CondSetNode.iCondSetIndex = List.range' i ns.length := by
  induction ns generalizing i with
  | nil => rfl
  | cons n ns ih => rw [updateIndexFrom, map_cons, ih, length_cons, range'_succ]

theorem Kind.map_instSet {α β : Type} (k : Kind) (f : α → β) (xs : List α) (x : α) :
    (k.instSet xs x).map f = k.instSet (xs.map f) (f x) := by
  cases k with
  | time => exact map_append
  | event => rfl

namespace CondList

variable {y y' : CondList l k} {acId : CText} {ucInitFlag : Bool} {a s t : Nat} {n : CondSetNode k}

/-- The record of a list. -/
def toClass (y : CondList l k) (acId : CText) (ucInitFlag : Bool) : CondListClass where
  acId := acId
  acLogic := l
  acCondType := k
  ucInitFlag := ucInitFlag
  stList := y.stList.map CondSetNode.node
  iNodeNum := y.iNodeNum
  uiCondSetTrue := y.uiCondSetTrue
  iCount := y.iCount

theorem walk_toClass : (y.toClass acId ucInitFlag).walk = y.walk.map CondSetNode.node := by
  rw [CondListClass.walk, walk, apply_ite (List.map CondSetNode.node)]
  rfl

theorem find?_walk_toClass :
    ((y.toClass acId ucInitFlag).walk.find? fun n => decide (n.ucCondCount < 32)) =
      (y.walk.find? fun n => decide (n.ucCondCount < 32)).map CondSetNode.node := by
  rw [walk_toClass, find?_map]
  rfl

theorem set?_toClass (a : Nat) :
    (y.toClass acId ucInitFlag).set? a = (y.set? a).map CondSetNode.node := by
  rw [CondListClass.set?, toClass, find?_map]
  rfl

theorem updateIndex_toClass :
    (y.toClass acId ucInitFlag).updateIndex = y.updateIndex.toClass acId ucInitFlag := by
  rw [CondListClass.updateIndex, updateIndex,
    apply_ite (fun z : CondList l k => z.toClass acId ucInitFlag)]
  congr 1
  simp only [toClass, numberFrom_map]

theorem instSet_toClass (a : Nat) :
    (y.toClass acId ucInitFlag).instSet a = (y.instSet (.new a)).toClass acId ucInitFlag := by
  rw [instSet, ← updateIndex_toClass, CondListClass.instSet]
  congr 1
  simp only [toClass, Kind.map_instSet]
  rfl

theorem modifySet_toClass {f : CondListNode → CondListNode} {g : CondSetNode k → CondSetNode k}
    (h : ∀ n ∈ y.stList, n.addr = a → f n.node = (g n).node) :
    (y.toClass acId ucInitFlag).modifySet a f = (y.modifySet a g).toClass acId ucInitFlag := by
  simp only [CondListClass.modifySet, modifySet, toClass, List.map_map]
  congr 1
  refine map_congr_left fun n hn => ?_
  by_cases ha : n.addr = a
  · simp only [Function.comp_apply, if_pos ha, ← h n hn ha]
    exact if_pos ha
  · simp only [Function.comp_apply, if_neg ha]
    exact if_neg ha

theorem countDown_toClass :
    (y.toClass acId ucInitFlag).countDown = y.countDown.toClass acId ucInitFlag := by
  cases l <;> rfl

theorem unlink_toClass (a : Nat) :
    (y.toClass acId ucInitFlag).unlink a = (y.unlink a).toClass acId ucInitFlag := by
  simp only [CondListClass.unlink, unlink, toClass, List.filter_map]
  rfl

theorem instAt_toClass (acId : CText) (ucInitFlag : Bool) (hnum : y.iNodeNum + 1 ≠ 0) (a : Nat) :
    ∃ n ∈ (y.instSet (.new a)).stList, n.addr = a ∧
      ((y.instSet (.new a)).toClass acId ucInitFlag).instAt = some n.node := by
  have hnum' : (y.instSet (.new a)).iNodeNum ≠ 0 := by
    rw [instSet, iNodeNum_updateIndex]
    exact hnum
  have hlist : (y.instSet (.new a)).stList =
      updateIndexFrom 0 (k.instSet y.stList (CondSetNode.new a)) := by
    rw [instSet, updateIndex, if_neg hnum]
  rw [hlist]
  cases k with
  | time =>
    rw [Kind.instSet, updateIndexFrom_append]
    refine ⟨_, mem_append_right _ (mem_singleton_self _), rfl, ?_⟩
    rw [CondListClass.instAt]
    simp only [toClass, hlist, Kind.instSet, updateIndexFrom_append, updateIndexFrom,
      map_append, map_singleton, getLast?_concat]
  | event =>
    refine ⟨_, mem_cons_self, rfl, ?_⟩
    have hfirst : ((y.instSet (.new a)).toClass acId ucInitFlag).instAt =
        ((y.instSet (.new a)).toClass acId ucInitFlag).walk.head? := rfl
    rw [hfirst, walk_toClass, walk, if_neg hnum', hlist]
    rfl

theorem withoutSet_toClass (a : Nat) :
    CondListClass.updateIndex { ((y.toClass acId ucInitFlag).countDown.unlink a) with
      iNodeNum := y.iNodeNum - 1 } = (y.withoutSet a).toClass acId ucInitFlag := by
  rw [countDown_toClass, unlink_toClass]
  exact updateIndex_toClass (y := { y.countDown.unlink a with iNodeNum := y.iNodeNum - 1 })

/-! ### Where the conditions are -/

/-- The set at `s` has a condition at `a`. -/
def HasAt (y : CondList l k) (s a : Nat) : Prop :=
  ∃ n ∈ y.stList, n.addr = s ∧ a ∈ n.pstCond.map CondNode.addr

theorem hasAt_iff_mem_entries : y.HasAt s a ↔ ∃ c, (⟨l, s, a⟩, c) ∈ y.entries := by
  constructor
  · rintro ⟨n, hn, rfl, ha⟩
    obtain ⟨c, hc, rfl⟩ := List.mem_map.mp ha
    exact ⟨c.stCond, mem_entries.mpr ⟨n, hn, c, hc, rfl⟩⟩
  · rintro ⟨c, hc⟩
    obtain ⟨n, hn, d, hd, heq⟩ := mem_entries.mp hc
    obtain ⟨heq, -⟩ := Prod.mk.inj heq
    obtain ⟨-, rfl, rfl⟩ := CondPtr.mk.inj heq
    exact ⟨n, hn, rfl, List.mem_map_of_mem hd⟩

theorem HasAt.lt {heap : Nat} (h : y.HasAt s a) (hb : y.Below heap) : a < heap := by
  obtain ⟨n, hn, -, ha⟩ := h
  obtain ⟨c, hc, rfl⟩ := List.mem_map.mp ha
  exact (hb n hn).2 c hc

theorem condAdd_hasAt {heap : Nat} {c : Cond k} {p : CondPtr k} (hy : y.Placed heap)
    (h : y.condAdd heap c = some (y', p)) :
    y'.HasAt s a ↔ s = p.pCondSetNode ∧ a = p.pCondNode ∨ y.HasAt s a := by
  obtain ⟨hperm, -⟩ := condAdd_entries hy h
  have hp : p.acLogic = l := by
    rw [condAdd] at h
    split at h
    · simp only [some.injEq, Prod.mk.injEq] at h
      rw [← h.2]
    · split at h
      · cases h
      · simp only [some.injEq, Prod.mk.injEq] at h
        rw [← h.2]
  rw [hasAt_iff_mem_entries, hasAt_iff_mem_entries]
  simp only [hperm.mem_iff, mem_cons, Prod.mk.injEq, exists_or]
  refine or_congr ⟨?_, ?_⟩ Iff.rfl
  · rintro ⟨-, rfl, -⟩
    exact ⟨rfl, rfl⟩
  · rintro ⟨rfl, rfl⟩
    exact ⟨c, by rw [← hp], rfl⟩

theorem hasAt_of_entries_filter {d : CondNode k}
    (h : y'.entries = y.entries.filter fun q => q.1 ≠ ⟨l, n.addr, d.addr⟩) :
    y'.HasAt s a ↔ y.HasAt s a ∧ ¬ (s = n.addr ∧ a = d.addr) := by
  rw [hasAt_iff_mem_entries, hasAt_iff_mem_entries, h]
  simp only [mem_filter, decide_eq_true_eq, ne_eq, CondPtr.mk.injEq, true_and,
    exists_and_right]

theorem hasAt_instSet (b : Nat) : (y.instSet (.new b)).HasAt s a ↔ y.HasAt s a := by
  have hentries : (y.instSet (.new b)).entries = _ := (entries_of_bare_eq (bare_updateIndex _)).1
  rw [hasAt_iff_mem_entries, hasAt_iff_mem_entries, hentries]
  refine exists_congr fun c => ?_
  rw [((k.perm_instSet y.stList (CondSetNode.new b)).flatMap_right _).mem_iff, flatMap_cons]
  rfl

/-! ### Well-formed lists -/

namespace Wf

theorem condAdd_eq_none_iff (hw : y.Wf) (heap : Nat) (c : Cond k) :
    y.condAdd heap c = none ↔
      y.stList.length = 32 ∧ ∀ n ∈ y.stList, n.pstCond.length = 32 := by
  rw [condAdd, walk_eq hw.size]
  cases hfind : y.stList.find? fun n => decide (n.ucCondCount < 32) with
  | some n =>
    refine iff_of_false (fun h => by cases h) fun h => ?_
    have hn := mem_of_find?_eq_some hfind
    have hroom : n.ucCondCount < 32 := by simpa using find?_some hfind
    rw [(hw.sets n hn).count, h.2 n hn] at hroom
    exact Nat.lt_irrefl _ hroom
  | none =>
    have hfull : ∀ n ∈ y.stList, n.pstCond.length = 32 := by
      intro n hn
      have hroom : ¬ n.ucCondCount < 32 := by simpa using find?_eq_none.mp hfind n hn
      have hcount := (hw.sets n hn).count
      have hle := (hw.sets n hn).le
      omega
    have hsize := hw.size
    have hle := hw.le
    rw [and_iff_left hfull]
    dsimp only
    split
    · exact iff_of_true rfl (by omega)
    · exact iff_of_false (fun h => by cases h) (by omega)

/-- A list stays well formed without the only condition of a set. -/
theorem withoutSet (hw : y.Wf) (hn : n ∈ y.stList) (hone : n.ucCondCount = 1) :
    (y.withoutSet n.addr).Wf := by
  obtain ⟨ns, ms, hsplit⟩ := append_of_mem hn
  have haddr := hw.addr
  have hsize := hw.size
  have hle := hw.le
  have hcount := hw.count
  have hlen : n.pstCond.length = 1 := (hw.sets n hn).count.symm.trans hone
  rw [hsplit] at haddr hsize hle hcount
  rw [length_append, length_cons] at hsize hle
  rw [map_append, map_cons, sum_append, sum_cons, hlen] at hcount
  have hrest : y.stList.filter (·.addr != n.addr) = ns ++ ms := by
    rw [hsplit]
    exact Keyed.filter_ne_split haddr
  have hlist : (y.withoutSet n.addr).stList = updateIndexFrom 0 (ns ++ ms) := by
    rw [CondList.withoutSet, updateIndex]
    split
    · rename_i hzero
      have hzero' : y.iNodeNum - 1 = 0 := hzero
      have hnil : ns ++ ms = [] := length_eq_zero_iff.mp (by rw [length_append]; omega)
      show y.stList.filter (·.addr != n.addr) = _
      rw [hrest, hnil]
      rfl
    · show updateIndexFrom 0 (y.stList.filter (·.addr != n.addr)) = _
      rw [hrest]
  have hlength : (y.withoutSet n.addr).stList.length = (ns ++ ms).length := by
    rw [hlist]
    simpa using congrArg List.length (map_iCondSetIndex_updateIndexFrom 0 (ns ++ ms))
  have hfields {β : Type} {g : CondSetNode k → β}
      (hg : ∀ n i, g { n with iCondSetIndex := i } = g n) :
      (y.withoutSet n.addr).stList.map g = (ns ++ ms).map g := by
    rw [hlist, map_updateIndexFrom hg]
  refine ⟨?_, ?_, ?_, ?_, ?_, fun m hm => ?_⟩
  · rw [hlength, hlist, map_iCondSetIndex_updateIndexFrom, range_eq_range']
  · have hnum : (y.withoutSet n.addr).iNodeNum = y.iNodeNum - 1 := by
      rw [CondList.withoutSet, iNodeNum_updateIndex]
    rw [hnum, hlength, length_append]
    omega
  · rw [hlength, length_append]
    omega
  · rw [iCount_withoutSet, hfields fun _ _ => rfl, map_append, sum_append]
    omega
  · rw [hfields fun _ _ => rfl]
    rw [map_append, map_cons] at haddr
    rw [map_append]
    exact haddr.sublist ((sublist_cons_self _ _).append_left _)
  · have hbare : m.bare ∈ (ns ++ ms).map CondSetNode.bare :=
      hfields (g := CondSetNode.bare) (fun _ _ => rfl) ▸ List.mem_map_of_mem hm
    obtain ⟨z, hz, heq⟩ := List.mem_map.mp hbare
    have hzy : z ∈ y.stList := by
      rw [hsplit]
      exact ((sublist_cons_self _ _).append_left _).subset hz
    rw [← m.bare_wf, ← heq, z.bare_wf]
    exact hw.sets z hzy

end Wf

theorem Placed.withoutSet {heap : Nat} (hy : y.Placed heap) (a : Nat) :
    (y.withoutSet a).Placed heap := by
  have hunlink : y.Shrinks (y.countDown.unlink a) :=
    .trans (y := y.countDown) (.of_stList_eq rfl) (.unlink _ a)
  have hcount : (y.countDown.unlink a).Shrinks
      { y.countDown.unlink a with iNodeNum := y.iNodeNum - 1 } := .of_stList_eq rfl
  exact ((hunlink.trans hcount).trans (.updateIndex _)).placed hy

theorem Placed.without {heap : Nat} {d : CondNode k} (hy : y.Placed heap) (hw : y.Wf)
    (hn : n ∈ y.stList) (hd : d ∈ n.pstCond) (hne : n.ucCondCount ≠ 1) :
    (y.without n.addr d).Placed heap := by
  refine ⟨(hw.without hn hd hne).chained, fun m hm => ?_⟩
  rcases mem_modifySet.mp hm with ⟨n', hn', -, rfl⟩ | ⟨hm, -⟩
  · refine ⟨(hy.below n' hn').1, fun c hc => ?_⟩
    obtain ⟨c', hc', heq, -⟩ := CondSetNode.mem_delNode hc
    exact heq ▸ (hy.below n' hn').2 c' hc'
  · exact hy.below m hm

end CondList

end Honyar.LocalScene
