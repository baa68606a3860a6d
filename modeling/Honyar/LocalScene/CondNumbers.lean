import Honyar.LocalScene.CondMemory

/-!
# The numbers and links of the condition lists

Calls of `cond_add` and `cond_del` for the lists of one memory, in any order.  As long as every
condition is deleted through its own list, the sets of each list are numbered from 0 and at most
32, each holds 1 to 32 conditions that are numbered from 0, counted and linked both ways, and the
list is full with 32 sets of 32.  A deletion through another list counts down a list that loses
nothing.
-/

namespace Honyar.LocalScene

open Chain (IsChain)
open DoubleList (firstOr lastOr)
open Option List Function CondList

variable {l : Logic} {k : Kind}

namespace CondMemory

variable {m m' : CondMemory} {this : Nat} {acId : CText} {ucInitFlag : Bool}

/-! ## The operations on the list that is in memory -/

theorem addCond_eq (this : Nat) (acId : CText) (ucInitFlag : Bool) {z : CondList l k}
    (hnodup : (z.stList.map CondSetNode.addr).Nodup)
    (hmem : ∀ n ∈ z.stList, n.InMemory m.heap)
    (howner : ∀ s t a, z.HasAt s a → z.HasAt t a → s = t)
    (hlt : ∀ s a, z.HasAt s a → a < m.fresh) {n : CondSetNode k} (hn : n ∈ z.stList)
    (c : Cond k) :
    ∃ m', m.addCond this (z.toClass acId ucInitFlag) n.node c =
        some (m', ⟨this, n.addr, m.fresh + 1⟩) ∧
      m'.lists = Function.update m.lists this
        ((z.addCond n.addr (m.fresh + 1) c).toClass acId ucInitFlag) ∧
      m'.fresh = m.fresh + 2 ∧ m'.ptrs = m.ptrs ∧
      (∀ n' ∈ (z.addCond n.addr (m.fresh + 1) c).stList, n'.InMemory m'.heap) ∧
      ∀ q < m.fresh, ¬ z.HasAt n.addr q → m'.heap q = m.heap q := by
  have hbelow : ∀ n' ∈ z.stList, ∀ a ∈ n'.pstCond.map CondNode.addr, a < m.fresh :=
    fun n' hn' a ha => hlt n'.addr a ⟨n', hn', rfl, ha⟩
  set heap₀ : CondHeap :=
    update m.heap (m.fresh + 1) (some ⟨none, none, ⟨0, k, c⟩⟩) with hheap₀
  have hnew : heap₀ (m.fresh + 1) = some ⟨none, none, ⟨0, k, c⟩⟩ := update_self ..
  have hold : ∀ a, a < m.fresh → heap₀ a = m.heap a := fun a ha =>
    update_of_ne (by omega) _ _
  have hmem₀ : ∀ n' ∈ z.stList, n'.InMemory heap₀ := fun n' hn' =>
    (hmem n' hn').congr fun a ha => hold a (hbelow n' hn' a ha)
  have hlen : n.pstCond.length ≤ m.fresh + 2 := by
    have hchain := (hmem n hn).nodup
    rw [CondSetNode.map_fst_items] at hchain
    have := CondSetNode.length_le_of_lt hchain fun d hd =>
      hbelow n hn d.addr (List.mem_map_of_mem hd)
    omega
  have hnotMem : m.fresh + 1 ∉ n.pstCond.map CondNode.addr := fun ha => by
    have := hbelow n hn _ ha
    omega
  obtain ⟨heap', hlink, hchain, hframe⟩ := (hmem₀ n hn).linkCond hlen hnew hnotMem
  have hrecord : (z.toClass acId ucInitFlag).modifySet n.addr (fun x =>
      { x with
        pstCond := firstOr none (n.addNode (m.fresh + 1) c).items
        ucCondCount := x.ucCondCount + 1 }) =
      (z.modifySet n.addr fun n => n.addNode (m.fresh + 1) c).toClass acId ucInitFlag := by
    refine modifySet_toClass fun n' hn' ha => ?_
    obtain rfl := Keyed.eq_of_key_eq hnodup hn' hn ha
    rfl
  refine ⟨{ m with
    lists := update m.lists this
      ((z.addCond n.addr (m.fresh + 1) c).toClass acId ucInitFlag)
    heap := heap'
    fresh := m.fresh + 2
    pstDbExecQueue :=
      m.pstDbExecQueue ++ (z.toClass acId ucInitFlag).queued (.condAdd c) },
    ?_, rfl, rfl, rfl, fun n' hn' => ?_, fun q hq hnot => ?_⟩
  · refine (bind_eq_some_iff.mpr ⟨_, hlink, ?_⟩)
    simp only [show n.node.addr = n.addr from rfl, hrecord]
    rfl
  · rcases mem_modifySet.mp hn' with ⟨n₀, hn₀, ha, rfl⟩ | ⟨hn', ha⟩
    · obtain rfl := Keyed.eq_of_key_eq hnodup hn₀ hn ha
      exact hchain
    · refine (hmem₀ n' hn').congr fun a hmem => hframe a ?_ fun hna => ha ?_
      · have := hbelow n' hn' a hmem
        omega
      · exact howner _ _ a ⟨n', hn', rfl, hmem⟩ ⟨n, hn, rfl, hna⟩
  · exact (hframe q (by omega) fun hna => hnot ⟨n, hn, rfl, hna⟩).trans (hold q hq)

/-! ## The lists of a memory -/

variable {info : Nat → CondInfo}
variable {ys : (a : Nat) → CondList (info a).acLogic (info a).acCondType}

/-- Every list of the memory is well formed, its conditions are linked in blocks of their own,
and the pointers that are filed lead to them. -/
structure Laid (m : CondMemory) (info : Nat → CondInfo)
    (ys : (a : Nat) → CondList (info a).acLogic (info a).acCondType) : Prop where
  record : ∀ a, ∃ b, m.lists a = (ys a).toClass (info a).acId b
  wf : ∀ a, (ys a).Wf
  placed : ∀ a, (ys a).Placed m.fresh
  memory : ∀ a, ∀ n ∈ (ys a).stList, n.InMemory m.heap
  owner : ∀ a b s t q, (ys a).HasAt s q → (ys b).HasAt t q → a = b ∧ s = t
  filed : ∀ p ∈ m.ptrs, (ys p.pstCondList).HasAt p.pCondSetNode p.pCondNode
  nodup : (m.ptrs.map PtrInfo.pCondNode).Nodup

/-- A list is written, with a condition more in a new block or with conditions less. -/
theorem Laid.replace (h : m.Laid info ys) {y : CondList (info this).acLogic (info this).acCondType}
    {b : Bool} {t : Nat}
    (hlists : m'.lists = Function.update m.lists this (y.toClass (info this).acId b))
    (hwf : y.Wf) (hplaced : y.Placed m'.fresh) (hle : m.fresh ≤ m'.fresh)
    (hmem : ∀ n ∈ y.stList, n.InMemory m'.heap)
    (hframe : ∀ q < m.fresh, (∀ s, ¬ (ys this).HasAt s q) → m'.heap q = m.heap q)
    (hhas : ∀ s q, y.HasAt s q → (ys this).HasAt s q ∨ s = t ∧ q = m.fresh + 1)
    (hfiled : ∀ p ∈ m'.ptrs, p ∈ m.ptrs ∧ p.pstCondList ≠ this ∨
      p.pstCondList = this ∧ y.HasAt p.pCondSetNode p.pCondNode)
    (hnodup : (m'.ptrs.map PtrInfo.pCondNode).Nodup) :
    m'.Laid info (Function.update ys this y) := by
  have hlt : ∀ a s q, (ys a).HasAt s q → q < m.fresh := fun a s q hq =>
    CondList.HasAt.lt hq (h.placed a).below
  have hold : ∀ a s q, (update ys this y a).HasAt s q →
      (ys a).HasAt s q ∨ a = this ∧ s = t ∧ q = m.fresh + 1 := by
    intro a s q hq
    by_cases ha : a = this
    · subst ha
      rw [update_self] at hq
      exact (hhas s q hq).imp_right fun hnew => ⟨rfl, hnew⟩
    · rw [update_of_ne ha] at hq
      exact .inl hq
  have hall {P : (a : Nat) → CondList (info a).acLogic (info a).acCondType → Prop}
      (hthis : P this y) (hother : ∀ a, a ≠ this → P a (ys a)) (a : Nat) :
      P a (update ys this y a) := by
    by_cases ha : a = this
    · subst ha
      rw [update_self]
      exact hthis
    · rw [update_of_ne ha]
      exact hother a ha
  refine ⟨?_, ?_, ?_, ?_, ?_, fun p hp => ?_, hnodup⟩
  · rw [hlists]
    refine hall (P := fun a z => ∃ b, update m.lists this _ a = z.toClass (info a).acId b)
      ⟨b, update_self ..⟩ fun a ha => ?_
    rw [update_of_ne ha]
    exact h.record a
  · exact hall (P := fun _ z => z.Wf) hwf fun a _ => h.wf a
  · exact hall (P := fun _ z => z.Placed m'.fresh) hplaced fun a _ => (h.placed a).mono hle
  · refine hall (P := fun _ z => ∀ n ∈ z.stList, n.InMemory m'.heap) hmem fun a ha n hn => ?_
    refine (h.memory a n hn).congr fun q hq => ?_
    have hq' : (ys a).HasAt n.addr q := ⟨n, hn, rfl, hq⟩
    exact hframe q (hlt _ _ _ hq') fun s hs => ha (h.owner _ _ _ _ _ hq' hs).1
  · intro a b s t q hs ht
    rcases hold a s q hs with hs' | ⟨ha, hs', hq⟩ <;>
      rcases hold b t q ht with ht' | ⟨hb, ht', hq'⟩
    · exact h.owner a b s t q hs' ht'
    · have := hlt a s q hs'
      omega
    · have := hlt b t q ht'
      omega
    · exact ⟨ha.trans hb.symm, hs'.trans ht'.symm⟩
  · rcases hfiled p hp with ⟨hp, hne⟩ | ⟨heq, hhas⟩
    · rw [update_of_ne hne]
      exact h.filed p hp
    · obtain ⟨a, s, q⟩ := p
      obtain rfl : a = this := heq
      rw [update_self]
      exact hhas

/-! ## One call -/

theorem Laid.condAdd (h : m.Laid info ys) (this : Nat) (c : (k : Kind) → Cond k) :
    (∃ y p m', (ys this).condAdd m.fresh (c _) = some (y, p) ∧
      m.condAdd this c = some (m', .ok ⟨this, p.pCondSetNode, p.pCondNode⟩) ∧
      Laid { m' with ptrs := ⟨this, p.pCondSetNode, p.pCondNode⟩ :: m'.ptrs } info
        (update ys this y)) ∨
    (ys this).condAdd m.fresh (c _) = none ∧
      m.condAdd this c = some (m, .error .sceneAddErr) := by
  obtain ⟨b, hx⟩ := h.record this
  have hlt : ∀ s q, (ys this).HasAt s q → q < m.fresh := fun s q hq =>
    CondList.HasAt.lt hq (h.placed this).below
  -- the condition is put into the set `n` of the list, which has a set more or is as it was
  have hput : ∀ (z : CondList (info this).acLogic (info this).acCondType) (n : CondSetNode _),
      n ∈ z.stList → (z.stList.map CondSetNode.addr).Nodup →
      (∀ n ∈ z.stList, n.InMemory m.heap) → (∀ s q, z.HasAt s q ↔ (ys this).HasAt s q) →
      (ys this).condAdd m.fresh (c _) =
        some (z.addCond n.addr (m.fresh + 1) (c _), ⟨(info this).acLogic, n.addr, m.fresh + 1⟩) →
      m.condAdd this c = (m.addCond this (z.toClass (info this).acId b) n.node (c _)).map
        (fun r => (r.1, .ok r.2)) →
      ∃ y p m', (ys this).condAdd m.fresh (c _) = some (y, p) ∧
        m.condAdd this c = some (m', .ok ⟨this, p.pCondSetNode, p.pCondNode⟩) ∧
        Laid { m' with ptrs := ⟨this, p.pCondSetNode, p.pCondNode⟩ :: m'.ptrs } info
          (update ys this y) := by
    intro z n hn hnodup hmem hsame heq hcall
    obtain ⟨m', hadd, hlists, hfresh, hptrs, hmem', hframe⟩ := addCond_eq this (info this).acId b
      hnodup hmem
      (fun s t a hs ht => (h.owner _ _ _ _ _ ((hsame s a).mp hs) ((hsame t a).mp ht)).2)
      (fun s a hs => hlt s a ((hsame s a).mp hs)) hn (c _)
    refine ⟨_, _, m', heq, hcall.trans (congrArg (Option.map _) hadd), ?_⟩
    have hhas {s q : Nat} := CondList.condAdd_hasAt (s := s) (a := q) (h.placed this) heq
    refine h.replace (t := n.addr) hlists
      (CondList.condAdd_wf (h.wf this) (h.placed this).below heq)
      (hfresh ▸ (CondList.condAdd_placed (h.placed this) heq).1)
      (by rw [show _ = m'.fresh from rfl, hfresh]; omega) hmem' (fun q hq hnot => ?_)
      (fun s q hq => (hhas.mp hq).symm) (fun p hp => ?_) ?_
    · exact hframe q hq fun hq' => hnot _ ((hsame _ _).mp hq')
    · rcases mem_cons.mp hp with rfl | hp
      · exact .inr ⟨rfl, hhas.mpr (.inl ⟨rfl, rfl⟩)⟩
      · rw [hptrs] at hp
        by_cases hthis : p.pstCondList = this
        · have hfiled := h.filed p hp
          subst hthis
          exact .inr ⟨rfl, hhas.mpr (.inr hfiled)⟩
        · exact .inl ⟨hp, hthis⟩
    · rw [map_cons, nodup_cons, hptrs]
      refine ⟨fun hmem => ?_, h.nodup⟩
      obtain ⟨p, hp, heq⟩ := List.mem_map.mp hmem
      have hold := CondList.HasAt.lt (h.filed p hp) (h.placed _).below
      have hnew : p.pCondNode = m.fresh + 1 := heq
      omega
  cases hfind : (ys this).walk.find? fun n => decide (n.ucCondCount < 32) with
  | some n =>
    have hn : n ∈ (ys this).stList := by
      have hmem := mem_of_find?_eq_some hfind
      rwa [CondList.walk_eq (h.wf this).size] at hmem
    refine .inl (hput (ys this) n hn (h.wf this).addr (h.memory this) (fun _ _ => Iff.rfl) ?_ ?_)
    · rw [CondList.condAdd, hfind]
    · rw [CondMemory.condAdd]
      simp only [hx, CondList.find?_walk_toClass, hfind, map_some]
      rw [hx]
  | none =>
    by_cases hnum : (ys this).iNodeNum ≥ 32
    · refine .inr ⟨?_, ?_⟩
      · rw [CondList.condAdd, hfind]
        exact if_pos hnum
      · rw [CondMemory.condAdd]
        simp only [hx, CondList.find?_walk_toClass, hfind, map_none]
        exact if_pos hnum
    · have hsize := (h.wf this).size
      obtain ⟨n, hn, hna, hat⟩ := CondList.instAt_toClass (info this).acId b
        (y := ys this) (by omega) m.fresh
      have hsets : (((ys this).instSet (.new m.fresh)).stList.map CondSetNode.bare).Perm
          ((CondSetNode.new m.fresh :: (ys this).stList).map CondSetNode.bare) := by
        rw [CondList.instSet, CondList.bare_updateIndex]
        exact (Kind.perm_instSet ..).map _
      refine .inl (hput ((ys this).instSet (.new m.fresh)) n hn ?_ ?_
        (fun _ _ => CondList.hasAt_instSet _) ?_ ?_)
      · have haddrs := hsets.map CondSetNode.addr
        rw [List.map_map, List.map_map] at haddrs
        exact haddrs.nodup_iff.mpr (nodup_cons.mpr
          ⟨(h.placed this).below.addr_notMem, (h.wf this).addr⟩)
      · intro n' hn'
        obtain ⟨n₀, hn₀, hbare⟩ := List.mem_map.mp
          (hsets.mem_iff.mp (List.mem_map_of_mem hn'))
        rcases mem_cons.mp hn₀ with rfl | hn₀
        · exact .of_bare (n := .new m.fresh) Chain.isChain_nil hbare
        · exact (h.memory this n₀ hn₀).of_bare hbare
      · rw [CondList.condAdd, hfind]
        simp only [if_neg hnum, hna]
      · rw [CondMemory.condAdd]
        simp only [hx, CondList.find?_walk_toClass, hfind, map_none]
        rw [hx, CondList.instSet_toClass, hat, map_eq_bind]
        exact if_neg hnum

theorem Laid.found (h : m.Laid info ys) {p : PtrInfo} (hp : p ∈ m.ptrs) :
    ∃ n ∈ (ys p.pstCondList).stList, ∃ d ∈ n.pstCond, ∃ e, n.addr = p.pCondSetNode ∧
      d.addr = p.pCondNode ∧ (m.lists p.pstCondList).set? p.pCondSetNode = some n.node ∧
      m.heap p.pCondNode = some e ∧ e.data.acCondType = (info p.pstCondList).acCondType := by
  obtain ⟨n, hn, hna, hd⟩ := h.filed p hp
  obtain ⟨d, hd, hda⟩ := List.mem_map.mp hd
  obtain ⟨b, hx⟩ := h.record p.pstCondList
  obtain ⟨e, he, hdata⟩ := (h.memory _ n hn).exists_eq (List.mem_map_of_mem hd)
  refine ⟨n, hn, d, hd, e, hna, hda, ?_, hda ▸ he, by rw [hdata]⟩
  rw [hx, set?_toClass, (h.wf _).set?_eq_some.mpr ⟨hn, hna⟩, map_some]

/-- A list without the condition of a pointer, which is filed no more. -/
theorem Laid.erase (h : m.Laid info ys) {p : PtrInfo} (hp : p ∈ m.ptrs)
    {y : CondList (info p.pstCondList).acLogic (info p.pstCondList).acCondType} {b : Bool}
    (hlists : m'.lists = Function.update m.lists p.pstCondList
      (y.toClass (info p.pstCondList).acId b))
    (hfresh : m'.fresh = m.fresh) (hptrs : m'.ptrs = m.ptrs) (hwf : y.Wf)
    (hplaced : y.Placed m.fresh) (hmem : ∀ n ∈ y.stList, n.InMemory m'.heap)
    (hframe : ∀ q, (∀ s, ¬ (ys p.pstCondList).HasAt s q) → m'.heap q = m.heap q)
    (hhas : ∀ s q, y.HasAt s q ↔ (ys p.pstCondList).HasAt s q ∧
      ¬ (s = p.pCondSetNode ∧ q = p.pCondNode)) :
    Laid { m' with ptrs := m'.ptrs.erase p } info (update ys p.pstCondList y) := by
  have hnodup : m.ptrs.Nodup := h.nodup.of_map _
  refine h.replace (t := 0) hlists hwf (hfresh ▸ hplaced) hfresh.ge hmem
    (fun q _ hq => hframe q hq) (fun s q hq => .inl ((hhas s q).mp hq).1) (fun q hq => ?_) ?_
  · rw [hptrs] at hq
    obtain ⟨hne, hq⟩ := hnodup.mem_erase_iff.mp hq
    by_cases hlist : q.pstCondList = p.pstCondList
    · refine .inr ⟨hlist, (hhas _ _).mpr ⟨hlist ▸ h.filed q hq, fun heq => hne ?_⟩⟩
      exact Keyed.eq_of_key_eq h.nodup hq hp heq.2
    · exact .inl ⟨hq, hlist⟩
  · rw [hptrs]
    exact (erase_sublist.map _).nodup h.nodup

theorem Laid.condDel (h : m.Laid info ys) {p : PtrInfo} (hp : p ∈ m.ptrs) :
    ∃ y m', m.condDel p.pstCondList p = some m' ∧
      Laid { m' with ptrs := m'.ptrs.erase p } info (update ys p.pstCondList y) := by
  obtain ⟨n, hn, d, hd, e, hna, hda, hset, he, htype⟩ := h.found hp
  obtain ⟨b, hx⟩ := h.record p.pstCondList
  have hw := h.wf p.pstCondList
  have hplaced := h.placed p.pstCondList
  have hchained := hplaced.toChained
  have hsame : ¬ e.data.acCondType ≠ (m.lists p.pstCondList).acCondType := by
    rw [hx]
    exact not_not.mpr htype
  have hlen : n.pstCond.length ≤ m.fresh :=
    CondSetNode.length_le_of_lt (hw.sets n hn).addr fun c hc => (hplaced.below n hn).2 c hc
  have hcut : ∀ a ∈ n.pstCond.map CondNode.addr, (ys p.pstCondList).HasAt n.addr a :=
    fun a ha => ⟨n, hn, rfl, ha⟩
  set sql := (m.lists p.pstCondList).queued (.condDel e.data.stCond) with hsql
  by_cases hone : n.ucCondCount = 1
  · have hsingle : n.pstCond = [d] := by
      obtain ⟨c, hc⟩ := length_eq_one_iff.mp ((hw.sets n hn).count.symm.trans hone)
      rw [hc, mem_singleton] at hd
      rw [hc, hd]
    have hchain := h.memory _ n hn
    rw [CondSetNode.InMemory, CondSetNode.items, hsingle] at hchain
    obtain ⟨heap', hfree, hframe⟩ := hchain.freeFrom (n := m.fresh)
      (by rw [length_map]; exact hsingle ▸ hlen) (fun u _ => u) ()
    have hfree' : Chain.freeFrom (fun u _ => u) m.fresh (some p.pCondNode) m.heap () =
        some (heap', ()) := hda ▸ hfree
    have hcalc : m.condDel p.pstCondList p = some { m with
        lists := update m.lists p.pstCondList
          (((ys p.pstCondList).withoutSet n.addr).toClass (info p.pstCondList).acId b)
        heap := heap'
        pstDbExecQueue := m.pstDbExecQueue ++ sql } := by
      rw [CondMemory.condDel, hset]
      simp only [he, bind_eq_bind, bind_some, if_neg hsame, hfree',
        show n.node.ucCondCount = 1 from hone, if_true, modifyList, update_self,
        update_idem, ne_eq, not_true_eq_false, false_and, if_false, ← hsql]
      rw [hx, ← withoutSet_toClass]
      rfl
    refine ⟨_, _, hcalc, h.erase hp rfl rfl rfl (hw.withoutSet hn hone) (hplaced.withoutSet _)
      (fun n' hn' => ?_) (fun q hq => hframe q ?_) fun s q => ?_⟩
    · obtain ⟨n₀, hn₀, hbare⟩ := List.mem_map.mp
        (bare_updateIndex _ ▸ List.mem_map_of_mem (f := CondSetNode.bare) hn')
      obtain ⟨hn₀, hne⟩ := mem_filter.mp hn₀
      refine ((h.memory _ n₀ hn₀).congr fun a ha => hframe a fun hmem => ?_).of_bare hbare
      obtain rfl : a = d.addr := mem_singleton.mp hmem
      have hsame := (h.owner _ _ _ _ _ ⟨n₀, hn₀, rfl, ha⟩ (hcut _ (List.mem_map_of_mem hd))).2
      simp [hsame] at hne
    · intro hmem
      obtain rfl : q = d.addr := mem_singleton.mp hmem
      exact hq _ (hcut _ (List.mem_map_of_mem hd))
    · rw [hasAt_of_entries_filter (entries_withoutSet hchained hn hd hone),
        hna, hda]
  · obtain ⟨heap', hcutCond, hmem, hframe⟩ :=
      (h.memory _ n hn).cutCond (hw.sets n hn) hlen hd
    have hcalc : m.condDel p.pstCondList p = some { m with
        lists := update m.lists p.pstCondList
          (((ys p.pstCondList).without n.addr d).toClass (info p.pstCondList).acId b)
        heap := heap'
        pstDbExecQueue := m.pstDbExecQueue ++ sql } := by
      rw [CondMemory.condDel, hset]
      have hrecord : ((ys p.pstCondList).toClass (info p.pstCondList).acId b).modifySet n.addr
          (fun x => { x with
            pstCond := firstOr none (n.delNode d.addr).items
            ucCondCount := x.ucCondCount - 1 }) =
          ((ys p.pstCondList).modifySet n.addr fun n => n.delNode d.addr).toClass
            (info p.pstCondList).acId b := by
        refine modifySet_toClass fun n' hn' ha => ?_
        obtain rfl := Keyed.eq_of_key_eq hw.addr hn' hn ha
        rfl
      have hone' : ¬ 1 = n.node.ucCondCount := fun heq => hone heq.symm
      have hcut' : LocalScene.cutCond m.heap m.fresh n.node.pstCond p.pCondNode =
        some (heap', firstOr none (n.delNode d.addr).items) := hda ▸ hcutCond
      simp only [he, bind_eq_bind, bind_some, if_neg hsame, if_neg hone', hcut',
        modifyList, update_self, update_idem, ← hsql]
      rw [hx]
      simp only [show n.node.addr = n.addr from rfl, hrecord]
      rfl
    refine ⟨_, _, hcalc, h.erase hp rfl rfl rfl (hw.without hn hd hone)
      (hplaced.without hw hn hd hone) (fun n' hn' => ?_) (fun q hq => hframe q ?_) fun s q => ?_⟩
    · rcases mem_modifySet.mp hn' with ⟨n₀, hn₀, ha, rfl⟩ | ⟨hn', ha⟩
      · obtain rfl := Keyed.eq_of_key_eq hw.addr hn₀ hn ha
        exact hmem
      · refine (h.memory _ n' hn').congr fun a ha' => hframe a fun hmem => ha ?_
        exact (h.owner _ _ _ _ a ⟨n', hn', rfl, ha'⟩ (hcut a hmem)).2
    · exact fun hmem => hq _ (hcut q hmem)
    · rw [hasAt_of_entries_filter (entries_without hchained hn hd), hna, hda]

/-- A deletion through another list counts that list down, and takes nothing from it. -/
theorem condDel_foreign {p : PtrInfo} (hne : p.pstCondList ≠ this)
    (h : m.condDel this p = some m') :
    (m'.lists this).iCount = (m.lists this).iCount - 1 ∧
      (m'.lists this).stList.map CondListNode.ucCondCount =
        (m.lists this).stList.map CondListNode.ucCondCount := by
  simp only [CondMemory.condDel, bind_eq_bind, bind_eq_some_iff] at h
  obtain ⟨n, -, e, -, h⟩ := h
  split at h
  · cases h
  split at h
  · obtain ⟨⟨heap', u⟩, -, h⟩ := bind_eq_some_iff.mp h
    dsimp only at h
    split at h
    · cases h
    · obtain rfl := some.inj h
      simp only [modifyList, update_self, update_of_ne (Ne.symm hne)]
      rw [CondListClass.updateIndex]
      split
      · exact ⟨rfl, rfl⟩
      · exact ⟨rfl, CondListNode.map_ucCondCount_numberFrom ..⟩
  · obtain ⟨⟨heap', pstCond⟩, -, h⟩ := bind_eq_some_iff.mp h
    obtain rfl := some.inj h
    simp only [modifyList, update_self, update_of_ne (Ne.symm hne), true_and]

/-! ## The structure of a list -/

/-- The list at an address in memory: its sets are numbered from 0, the chains `css` of at most
32 sets are linked both ways, numbered from 0 and counted, `iCount` counts all conditions, and an
addition fails exactly when there are 32 sets of 32. -/
structure Structured (m : CondMemory) (a : Nat) (css : List (List (Nat × CondRecord))) :
    Prop where
  index : (m.lists a).stList.map CondListNode.iCondSetIndex =
    List.range (m.lists a).stList.length
  le : (m.lists a).stList.length ≤ 32
  sets : List.Forall₂ (fun n cs => IsChain m.heap n.pstCond cs ∧
      cs.map (fun q => q.2.iCondIndex) = (List.range cs.length).map Int.ofNat ∧
      1 ≤ cs.length ∧ cs.length ≤ 32 ∧ n.ucCondCount = cs.length) (m.lists a).stList css
  count : (m.lists a).iCount = (css.map List.length).sum
  full : ∀ c, ∃ m' r, m.condAdd a c = some (m', r) ∧
    ((∃ e, r = .error e) ↔ css.length = 32 ∧ ∀ cs ∈ css, cs.length = 32)

theorem Structured.iCount_eq {a : Nat} {css : List (List (Nat × CondRecord))}
    (h : m.Structured a css) :
    (m.lists a).iCount = ((m.lists a).stList.map CondListNode.ucCondCount).sum := by
  have hcounts : (m.lists a).stList.map CondListNode.ucCondCount = css.map List.length := by
    rw [← forall₂_eq_eq_eq, forall₂_map_left_iff, forall₂_map_right_iff]
    exact h.sets.imp fun _ _ hset => hset.2.2.2.2
  rw [h.count, hcounts]

theorem Laid.structured (h : m.Laid info ys) (a : Nat) :
    m.Structured a ((ys a).stList.map CondSetNode.items) := by
  obtain ⟨b, hx⟩ := h.record a
  have hw := h.wf a
  have hlist : (m.lists a).stList = (ys a).stList.map CondSetNode.node := by
    rw [hx]
    rfl
  have hsets : (ys a).stList.map (fun n => n.items.length) =
      (ys a).stList.map fun n => n.pstCond.length :=
    map_congr_left fun n _ => n.length_items
  refine ⟨?_, ?_, ?_, ?_, fun c => ?_⟩
  · rw [hlist, List.map_map, length_map]
    exact hw.index
  · rw [hlist, length_map]
    exact hw.le
  · rw [hlist, forall₂_map_left_iff, forall₂_map_right_iff, forall₂_same]
    intro n hn
    have hn' := hw.sets n hn
    rw [n.length_items]
    refine ⟨h.memory a n hn, ?_, hn'.pos, hn'.le, hn'.count⟩
    rw [← hn'.index, CondSetNode.items, List.map_map, List.map_map]
    rfl
  · rw [hx, List.map_map]
    exact hw.count.trans (by rw [← hsets]; rfl)
  · have hfull := hw.condAdd_eq_none_iff m.fresh (c _)
    rw [length_map, List.forall_mem_map]
    simp only [CondSetNode.length_items, ← hfull]
    rcases h.condAdd a c with ⟨y, p, m', hadd, hcall, -⟩ | ⟨hadd, hcall⟩
    · exact ⟨m', _, hcall, by simp [hadd]⟩
    · exact ⟨m, _, hcall, by simp [hadd]⟩

/-! ## Runs -/

/-- A call of `cond_add` or `cond_del`. -/
inductive Call where
  | condAdd (this : Nat) (pstCondInfo : (k : Kind) → Cond k)
  | condDel (this : Nat) (pstCondPtr : PtrInfo)

/-- A call.  The pointer an addition returns is filed, a deletion is called for a pointer that is
filed, and takes it out. -/
def call (m : CondMemory) : Call → Option (CondMemory × List (Except ErrNo PtrInfo))
  | .condAdd this c => do
    let (m, r) ← m.condAdd this c
    match r with
    | .ok p => return ({ m with ptrs := p :: m.ptrs }, [r])
    | .error _ => return (m, [r])
  | .condDel this p =>
    if p ∈ m.ptrs then do
      let m ← m.condDel this p
      return ({ m with ptrs := m.ptrs.erase p }, [])
    else some (m, [])

/-- New lists. -/
def start (info : Nat → CondInfo) : CondMemory where
  lists a := .newCondList (info a)
  heap _ := none
  fresh := 0
  pstDbExecQueue := []
  ptrs := []

/-- A condition is deleted through the list it was added to. -/
def Own (m : CondMemory) : Call → Prop
  | .condAdd _ _ => True
  | .condDel this p => p ∈ m.ptrs → p.pstCondList = this

theorem newCondList_eq (i : CondInfo) : CondListClass.newCondList i =
    (CondList.new i.acLogic i.acCondType).toClass i.acId false := by
  obtain ⟨acId, l, k⟩ := i
  cases l <;> rfl

theorem start_laid (info : Nat → CondInfo) : (start info).Laid info fun _ => .new _ _ where
  record a := ⟨false, newCondList_eq _⟩
  wf a := ⟨rfl, rfl, Nat.zero_le _, rfl, nodup_nil, by simp [new]⟩
  placed a := ⟨⟨nodup_nil, by simp [new]⟩, by simp [CondList.Below, new]⟩
  memory a n hn := by cases hn
  owner a b s t q := by
    rintro ⟨n, hn, -⟩
    cases hn
  filed p hp := by cases hp
  nodup := nodup_nil

theorem Laid.call (h : m.Laid info ys) {act : Call} (hown : m.Own act) :
    ∃ m' out zs, m.call act = some (m', out) ∧ m'.Laid info zs := by
  cases act with
  | condAdd this c =>
    rcases h.condAdd this c with ⟨y, p, m', -, hcall, hlaid⟩ | ⟨-, hcall⟩
    · exact ⟨_, _, _, by rw [CondMemory.call, hcall]; rfl, hlaid⟩
    · exact ⟨_, _, _, by rw [CondMemory.call, hcall]; rfl, h⟩
  | condDel this p =>
    by_cases hp : p ∈ m.ptrs
    · obtain rfl := hown hp
      obtain ⟨y, m', hcall, hlaid⟩ := h.condDel hp
      exact ⟨_, _, _, by rw [CondMemory.call, if_pos hp, hcall]; rfl, hlaid⟩
    · exact ⟨_, _, _, by rw [CondMemory.call, if_neg hp], h⟩

theorem Laid.own (h : m.Laid info ys) {act : Call} {out : List (Except ErrNo PtrInfo)}
    (hcall : m.call act = some (m', out)) (hm' : ∀ a, ∃ css, m'.Structured a css) : m.Own act := by
  cases act with
  | condAdd this c => trivial
  | condDel this p =>
    intro hp
    by_contra hne
    rw [CondMemory.call, if_pos hp] at hcall
    obtain ⟨m₁, hdel, heq⟩ := bind_eq_some_iff.mp hcall
    obtain ⟨rfl, -⟩ := Prod.mk.inj (some.inj heq)
    obtain ⟨hcount, hsets⟩ := condDel_foreign hne hdel
    obtain ⟨css, hcss⟩ := hm' this
    have hbefore := (h.structured this).iCount_eq
    have hafter : (m₁.lists this).iCount =
        ((m₁.lists this).stList.map CondListNode.ucCondCount).sum := hcss.iCount_eq
    rw [hsets] at hafter
    omega

/-- Every call goes through and leaves every list structured exactly when every condition is
deleted through the list it was added to. -/
theorem calls_structured_iff (info : Nat → CondInfo) (calls : List Call) :
    (∀ before, before <+: calls → ∃ m out, Run.run call (start info) before = some (m, out) ∧
      ∀ a, ∃ css, m.Structured a css) ↔ Run.Along call Own (start info) calls := by
  refine Run.goes_through_iff_along (J := fun m => ∃ ys, m.Laid info ys)
    (fun m hm a => ?_) (fun m act hm hown => ?_) (fun m act m' out hm hcall hm' => ?_)
    ⟨_, start_laid info⟩
  · obtain ⟨ys, hlaid⟩ := hm
    exact ⟨_, hlaid.structured a⟩
  · obtain ⟨ys, hlaid⟩ := hm
    obtain ⟨m', out, zs, hcall, hlaid'⟩ := hlaid.call hown
    exact ⟨m', out, hcall, zs, hlaid'⟩
  · obtain ⟨ys, hlaid⟩ := hm
    exact hlaid.own hcall hm'

end CondMemory

namespace Sample

/-- The time conditions of a scene, the `Or` list at 0 and the `And` list at 1. -/
def timeLists (a : Nat) : CondInfo := ⟨['1'], if a = 0 then .or else .and, .time⟩

/-- Two conditions of the `Or` list, of which the first is deleted through the `And` list. -/
def andDeletion : List CondMemory.Call :=
  let c : (k : Kind) → Cond k := fun
    | .time => timeCond ['t'] ['0'] ['5']
    | .event => lamp
  [.condAdd 0 c, .condAdd 0 c, .condDel 1 ⟨0, 0, 1⟩]

end Sample

open Sample in
/-- A deletion through the list of the other logic leaves a list with no condition that counts
-1. -/
theorem andDeletion_unstructured : ∃ m out,
    Run.run CondMemory.call (.start timeLists) andDeletion = some (m, out) ∧
      (m.lists 1).stList.length = 0 ∧ (m.lists 1).iCount = -1 ∧
      ¬ ∃ css, m.Structured 1 css := by
  have hcount : (Run.run CondMemory.call (.start timeLists) andDeletion).map
      (fun r => ((r.1.lists 1).stList.length, (r.1.lists 1).iCount)) = some (0, -1) := by decide
  obtain ⟨⟨m, out⟩, hrun, heq⟩ := map_eq_some_iff.mp hcount
  obtain ⟨hlen, hcount⟩ := Prod.mk.inj heq
  refine ⟨m, out, hrun, hlen, hcount, ?_⟩
  rintro ⟨css, hcss⟩
  have hsum := hcss.count
  rw [show (m.lists 1).iCount = -1 from hcount] at hsum
  omega

end Honyar.LocalScene
