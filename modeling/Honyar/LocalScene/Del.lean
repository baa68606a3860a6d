import Honyar.LocalScene.Add

/-!
# When a deletion keeps the truth words right

`cond_del` moves the conditions behind the deleted one down by one place and
leaves the word of the set as it is, so each of them then reads the bit of the
one before it.  The levels above are recomputed from that word, and are right
for what the conditions read.  A set that loses its only condition is freed, and
the callers look at it again unless the list has become empty; then they write
the neutral truth of the list and leave the scene alone, as the functions that
clear a list do with both.

For each of the three the result is the exact condition under which the
operation does what it is for.
-/

namespace Honyar.LocalScene

open Option List SceneInfo

variable {l : Logic} {k : Kind}
variable {x x' : SceneList} {a : Nat} {c : Cond k}

/-! ## Deleting from a set -/

/-- Moves a condition down by one place. -/
def CondNode.down (c : CondNode k) : CondNode k :=
  { c with iCondIndex := c.iCondIndex - 1 }

namespace CondSetNode

variable {n : CondSetNode k} {d : CondNode k}

theorem Wf.split (h : n.Wf) (hd : d ∈ n.pstCond) :
    ∃ bs as, n.pstCond = bs ++ d :: as ∧ d.iCondIndex = bs.length ∧
      as.map CondNode.iCondIndex = List.range' (bs.length + 1) as.length ∧
      n.pstCond.takeWhile (·.addr != d.addr) = bs ∧
      (n.pstCond.dropWhile (·.addr != d.addr)).drop 1 = as := by
  obtain ⟨bs, as, hn⟩ := append_of_mem hd
  have haddr := h.addr
  have hindex := h.index
  rw [hn, map_append, map_cons] at haddr
  have hbs : ∀ b ∈ bs, (b.addr != d.addr) = true := by
    intro b hb
    have := (nodup_append.mp haddr).2.2 _ (List.mem_map_of_mem hb) _ mem_cons_self
    simpa using this
  refine ⟨bs, as, hn, ?_, ?_, ?_, ?_⟩
  · have := congrArg (fun is => is[bs.length]?) hindex
    simpa [hn] using this
  · have hdrop := congrArg (List.drop (bs.length + 1)) hindex
    rw [hn, length_append, length_cons, range_eq_range', drop_range'] at hdrop
    simp only [map_append, map_cons] at hdrop
    have hlen : (List.map CondNode.iCondIndex bs ++ [d.iCondIndex]).length = bs.length + 1 := by
      simp
    rw [← singleton_append, ← append_assoc, ← hlen, drop_left] at hdrop
    rw [hdrop]
    simp
    omega
  · rw [hn, takeWhile_append_of_pos hbs]
    simp
  · rw [hn, dropWhile_append_of_pos hbs]
    simp

theorem delNode_eq (a : Nat) :
    n.delNode a = { n with
      ucCondCount := n.ucCondCount - 1
      pstCond := n.pstCond.takeWhile (·.addr != a) ++
        ((n.pstCond.dropWhile (·.addr != a)).drop 1).map CondNode.down } := rfl

/-- A set of two or more conditions stays well formed with one less. -/
theorem Wf.delNode (h : n.Wf) (hd : d ∈ n.pstCond) (hne : n.ucCondCount ≠ 1) :
    (n.delNode d.addr).Wf := by
  obtain ⟨bs, as, hn, hi, has, htake, hdrop⟩ := h.split hd
  have hlen : n.pstCond.length = bs.length + as.length + 1 := by
    rw [hn, length_append, length_cons]; omega
  have hcount := h.count
  have hle := h.le
  rw [delNode_eq, htake, hdrop]
  have hdown : (as.map CondNode.down).map CondNode.iCondIndex =
      List.range' bs.length as.length := by
    rw [List.map_map]
    have : (CondNode.iCondIndex ∘ CondNode.down : CondNode k → Nat) =
        (· - 1) ∘ CondNode.iCondIndex := rfl
    rw [this, ← List.map_map, has, map_sub_range' (by omega), Nat.add_sub_cancel]
  have hbs : bs.map CondNode.iCondIndex = List.range bs.length := by
    have := congrArg (List.take bs.length) h.index
    rw [hn] at this
    simpa [take_range, Nat.min_eq_left] using this
  refine ⟨?_, ?_, ?_, ?_, ?_⟩
  · rw [map_append, hdown, hbs, length_append, length_map, range_eq_range',
      range_eq_range', ← range'_append_1, Nat.zero_add]
  · simp only [length_append, length_map]
    omega
  · simp only [length_append, length_map]
    omega
  · simp only [length_append, length_map]
    omega
  · have haddr := h.addr
    have hsame : (as.map CondNode.down).map CondNode.addr = as.map CondNode.addr := by
      rw [List.map_map]; rfl
    rw [map_append, hsame]
    rw [hn, map_append, map_cons] at haddr
    exact haddr.sublist (List.Sublist.append_left (sublist_cons_self _ _) _)

theorem Wf.condTrue_eq {b : CondNode k} (h : n.Wf) (hb : b ∈ n.pstCond) :
    n.condTrue b.addr = n.uiCondTrue.getLsbD b.iCondIndex := by
  rw [condTrue, h.node?_eq_some.mpr ⟨hb, rfl⟩]
  rfl

/-- A condition behind the deleted one reads the bit below its own. -/
theorem Wf.condTrue_delNode (h : n.Wf) (hd : d ∈ n.pstCond) (hne : n.ucCondCount ≠ 1)
    {b : CondNode k} (hb : b ∈ n.pstCond) (hbd : b ≠ d) :
    (n.delNode d.addr).condTrue b.addr =
      n.uiCondTrue.getLsbD
        (if d.iCondIndex < b.iCondIndex then b.iCondIndex - 1 else b.iCondIndex) := by
  obtain ⟨bs, as, hn, hi, has, htake, hdrop⟩ := h.split hd
  have hw := h.delNode hd hne
  have hmem : (n.delNode d.addr).pstCond = bs ++ as.map CondNode.down := by
    rw [delNode_eq, htake, hdrop]
  rw [hn] at hb
  rcases mem_append.mp hb with hb | hb
  · have hlt : b.iCondIndex < bs.length := by
      have := congrArg (List.take bs.length) h.index
      rw [hn] at this
      have hbs : bs.map CondNode.iCondIndex = List.range bs.length := by
        simpa [take_range, Nat.min_eq_left] using this
      exact mem_range.mp (hbs ▸ List.mem_map_of_mem hb)
    rw [if_neg (by omega)]
    exact hw.condTrue_eq (by rw [hmem]; exact mem_append_left _ hb)
  · rcases mem_cons.mp hb with rfl | hb
    · exact absurd rfl hbd
    · have hge : bs.length + 1 ≤ b.iCondIndex :=
        (mem_range'_1.mp (has ▸ List.mem_map_of_mem hb)).1
      rw [if_pos (by omega)]
      exact hw.condTrue_eq (b := b.down)
        (by rw [hmem]; exact mem_append_right _ (List.mem_map_of_mem hb))

/-- The others read what they read before exactly when the ones behind the
deleted condition have its truth. -/
theorem Wf.delNode_reads_iff (h : n.Wf) (hd : d ∈ n.pstCond) (hne : n.ucCondCount ≠ 1) :
    (∀ b ∈ n.pstCond, b ≠ d → (n.delNode d.addr).condTrue b.addr = n.condTrue b.addr) ↔
      ∀ b ∈ n.pstCond, d.iCondIndex < b.iCondIndex → n.condTrue b.addr = n.condTrue d.addr := by
  have hat : ∀ i < n.pstCond.length, ∃ b ∈ n.pstCond, b.iCondIndex = i := by
    intro i hi
    refine ⟨n.pstCond[i], getElem_mem hi, ?_⟩
    have := congrArg (fun is => is[i]?) h.index
    simpa [hi] using this
  constructor
  · intro hread b hb hlt
    -- the truth is carried from each condition to the next, starting at `d`
    have hchain : ∀ j, d.iCondIndex + j < n.pstCond.length →
        n.uiCondTrue.getLsbD (d.iCondIndex + j) = n.uiCondTrue.getLsbD d.iCondIndex := by
      intro j
      induction j with
      | zero => intro _; rfl
      | succ j ih =>
        intro hj
        obtain ⟨c, hc, hci⟩ := hat _ hj
        have hcd : c ≠ d := by
          rintro rfl
          omega
        have hr := hread c hc hcd
        rw [h.condTrue_delNode hd hne hc hcd, if_pos (by omega), h.condTrue_eq hc, hci] at hr
        rw [← hr, ← ih (by omega)]
        congr 1
    have hbl := h.index_lt hb
    have := hchain (b.iCondIndex - d.iCondIndex) (by omega)
    rw [Nat.add_sub_cancel' (by omega)] at this
    rw [h.condTrue_eq hb, h.condTrue_eq hd, this]
  · intro hsame b hb hbd
    rw [h.condTrue_delNode hd hne hb hbd, h.condTrue_eq hb]
    split
    · rename_i hlt
      have hbl := h.index_lt hb
      have hb' := hsame b hb hlt
      rw [h.condTrue_eq hb, h.condTrue_eq hd] at hb'
      obtain ⟨c, hc, hci⟩ := hat (b.iCondIndex - 1) (by omega)
      by_cases hcd : d.iCondIndex < c.iCondIndex
      · have hc' := hsame c hc hcd
        rw [h.condTrue_eq hc, h.condTrue_eq hd, hci] at hc'
        rw [hc', hb']
      · have : d.iCondIndex = b.iCondIndex - 1 := by omega
        rw [← this, hb']
    · rfl

end CondSetNode

/-! ## The operation -/

/-- The condition `c` names is the one at `p`, by the hash table. -/
structure Filed (x : SceneList) (a : Nat) (s : SceneInfo) (l : Logic) (c : Cond k) (p : CondPtr k) :
    Prop where
  manual : c.isManual l = false
  found : ∃ e, ptrHashFind x.pHashTable c.hashKey s.acSceneId = some e ∧ e.pstScene = a ∧
    e.condPtr? k = some p

/-- The bit of `ucCondListTrue` each of the four functions writes when its list
has become empty. -/
def delBit : Logic → Kind → Kind
  | .and, .event => .time
  | _, k => k

theorem sceneCondDel_of_not_manual (hm : c.isManual l = false) :
    sceneCondDel x a l c = condDel x a l k (delBit l k) c.hashKey := by
  cases l <;> cases k <;>
    simp_all [sceneCondDel, sceneTimeOrCondDel, sceneEventOrCondDel, sceneTimeAndCondDel,
      sceneEventAndCondDel, delBit, Cond.hashKey, Cond.isManual]

theorem sceneCondDel_cases {r : ErrNo} (h : sceneCondDel x a l c = some (x', r)) :
    (c.isManual l = true ∧ ∃ s, x.scene? a = some s ∧
      x' = x.setScene a { s with cManualTriggerFlag := false }) ∨
    c.isManual l = false ∧ condDel x a l k (delBit l k) c.hashKey = some (x', r) := by
  by_cases hm : c.isManual l = true
  · refine .inl ⟨hm, ?_⟩
    cases k with
    | time => cases hm
    | event =>
      cases l with
      | and => simp [Cond.isManual] at hm
      | or =>
        have hm' : EventCond.isManual c = true := by simpa [Cond.isManual] using hm
        simp only [sceneCondDel, sceneEventOrCondDel, hm', if_true, bind_eq_bind,
          bind_eq_some_iff, Option.pure_def, some.injEq, Prod.mk.injEq] at h
        obtain ⟨s, hs, rfl, -⟩ := h
        exact ⟨s, hs, rfl⟩
  · have hm : c.isManual l = false := by simpa using hm
    exact .inr ⟨hm, by rw [← sceneCondDel_of_not_manual hm, h]⟩

/-- What deleting what is filed under a text does: nothing is filed there, or the condition its node
leads to is cut out of its list and the node goes. -/
theorem condDel_eq_some {s : SceneInfo} {bit : Kind} {key : CText} {r : ErrNo}
    (hs : x.scene? a = some s) (h : condDel x a l k bit key = some (x', r)) :
    (ptrHashFind x.pHashTable key s.acSceneId = none ∧ r = .notFoundErr ∧ x' = x) ∨
    ∃ e p s₁ s', ptrHashFind x.pHashTable key s.acSceneId = some e ∧ e.condPtr? k = some p ∧
      e.pstScene = a ∧ s.condDel l p = some s₁ ∧ condDelTrue s₁ l bit p = some s' ∧
      r = .noErr ∧ x' = { x.setScene a s' with
        pHashTable := ptrHashDel x.pHashTable key s.acSceneId } := by
  rw [condDel, hs, bind_eq_bind, bind_some] at h
  cases hfind : ptrHashFind x.pHashTable key s.acSceneId with
  | none =>
    rw [hfind] at h
    obtain ⟨rfl, rfl⟩ := Prod.mk.inj (some.inj h)
    exact .inl ⟨rfl, rfl, rfl⟩
  | some e =>
    rw [hfind] at h
    obtain ⟨p, hp, h⟩ := bind_eq_some_iff.mp h
    split at h
    · rename_i hea
      obtain ⟨s₁, hcut, h⟩ := bind_eq_some_iff.mp h
      obtain ⟨s', htrue, h⟩ := bind_eq_some_iff.mp h
      obtain ⟨rfl, rfl⟩ := Prod.mk.inj (some.inj h)
      exact .inr ⟨e, p, s₁, s', rfl, hp, hea, hcut, htrue, rfl, rfl⟩
    · cases h

theorem condClear_eq_some (h : condClear x a l k = some x') :
    ∃ s, x.scene? a = some s ∧
      ¬ ((s.list l k).iNodeNum ≠ 0 ∧ (s.list l k).clear.stList ≠ []) ∧
      x' = { x.setScene a (s.setList l k
          { (s.list l k).clear with iCount := 0, uiCondSetTrue := 0 }) with
        pHashTable := (s.list l k).conds.foldl (fun h c => ptrHashDel h c.hashKey s.acSceneId)
          x.pHashTable } := by
  obtain ⟨s, hs, h⟩ := bind_eq_some_iff.mp h
  dsimp only at h
  split at h
  · cases h
  · rename_i hclear
    exact ⟨s, hs, hclear, (some.inj h).symm⟩

theorem sceneCondDel_eq {s : SceneInfo} {p : CondPtr k} (hs : x.scene? a = some s)
    (h : Filed x a s l c p) :
    sceneCondDel x a l c = (s.condDel l p).bind fun s₁ =>
      (condDelTrue s₁ l (delBit l k) p).map fun s' =>
        ({ x.setScene a s' with
          pHashTable := ptrHashDel x.pHashTable c.hashKey s.acSceneId }, .noErr) := by
  obtain ⟨hm, e, hf, ha, hp⟩ := h
  rw [sceneCondDel_of_not_manual hm, condDel]
  simp only [hs, hf, hp, ha, if_true, bind_eq_bind, bind_some, Option.pure_def,
    map_eq_bind]
  rfl

theorem SceneInfo.setList_setList (s : SceneInfo) (l : Logic) (k : Kind) (x y : CondList l k) :
    (s.setList l k x).setList l k y = s.setList l k y := by
  cases l <;> cases k <;> rfl

section Inside

variable {s : SceneInfo} {p : CondPtr k} {n : CondSetNode k} {d : CondNode k}

/-- The list without a condition of a set that holds others. -/
def CondList.without (x : CondList l k) (a : Nat) (d : CondNode k) : CondList l k :=
  { x.modifySet a fun n => n.delNode d.addr with iCount := x.iCount - 1 }

theorem condDel_inside (hn : s.set? p = some n) (hd : n.node? p.pCondNode = some d)
    (hne : n.ucCondCount ≠ 1) :
    s.condDel p.acLogic p =
      some (s.setList p.acLogic k ((s.list p.acLogic k).without p.pCondSetNode d)) := by
  simp only [SceneInfo.condDel, hn, hd, bind_eq_bind, bind_some, Ne.symm hne,
    if_false, Option.pure_def, some.injEq]
  rw [SceneInfo.modifyList, SceneInfo.modifySet, SceneInfo.list_setList_self,
    SceneInfo.setList_setList]
  rfl

theorem without_stList (hw : s.Wf) (hn : s.set? p = some n) :
    ∃ ns ms, (s.list p.acLogic k).stList = ns ++ n :: ms ∧
      ((s.list p.acLogic k).without p.pCondSetNode d).stList = ns ++ n.delNode d.addr :: ms := by
  obtain ⟨hnm, hna⟩ := (hw _ k).set?_eq_some.mp hn
  obtain ⟨ns, ms, hx⟩ := append_of_mem hnm
  refine ⟨ns, ms, hx, ?_⟩
  rw [CondList.without, CondList.modifySet, ← hna]
  simp only [hx]
  exact CondList.map_write_at ns ms n _ (hx ▸ (hw _ k).addr)

theorem CondList.Wf.without {y : CondList l k} (hw : y.Wf) (hn : n ∈ y.stList)
    (hd : d ∈ n.pstCond) (hne : n.ucCondCount ≠ 1) : (y.without n.addr d).Wf := by
  obtain ⟨ns, ms, hsplit⟩ := append_of_mem hn
  have hlist : (y.without n.addr d).stList = ns ++ n.delNode d.addr :: ms := by
    rw [CondList.without, CondList.modifySet]
    simp only [hsplit]
    exact CondList.map_write_at ns ms n _ (hsplit ▸ hw.addr)
  have hdel := (hw.sets n hn).delNode hd hne
  refine hw.replace (m := n.delNode d.addr) hsplit rfl rfl hdel hlist rfl ?_
  have hcount := (hw.sets n hn).count
  have hcount' : n.ucCondCount - 1 = (n.delNode d.addr).pstCond.length := hdel.count
  have hpos := (hw.sets n hn).pos
  show y.iCount - 1 + n.pstCond.length = y.iCount + (n.delNode d.addr).pstCond.length
  omega

theorem without_wf (hw : s.Wf) (hn : s.set? p = some n) (hd : n.node? p.pCondNode = some d)
    (hne : n.ucCondCount ≠ 1) : ((s.list p.acLogic k).without p.pCondSetNode d).Wf := by
  obtain ⟨hnm, hna⟩ := (hw _ k).set?_eq_some.mp hn
  rw [← hna]
  exact (hw _ k).without hnm (((hw _ k).sets n hnm).node?_eq_some.mp hd).1 hne

theorem set?_without (hw : s.Wf) (hn : s.set? p = some n) (hd : n.node? p.pCondNode = some d)
    (hne : n.ucCondCount ≠ 1) :
    (s.setList p.acLogic k ((s.list p.acLogic k).without p.pCondSetNode d)).set? p =
      some (n.delNode d.addr) := by
  obtain ⟨ns, ms, -, hy⟩ := without_stList (d := d) hw hn
  rw [set?, list_setList_self]
  refine (without_wf hw hn hd hne).set?_eq_some.mpr ⟨by rw [hy]; simp, ?_⟩
  exact ((hw _ k).set?_eq_some.mp hn).2

theorem without_others (hw : s.Wf) (hn : s.set? p = some n) {m : CondSetNode k}
    (hm : m ∈ (s.list p.acLogic k).stList) (hne : m.addr ≠ p.pCondSetNode) :
    m ∈ ((s.list p.acLogic k).without p.pCondSetNode d).stList ∧
      m.iCondSetIndex ≠ n.iCondSetIndex := by
  obtain ⟨hnm, hna⟩ := (hw _ k).set?_eq_some.mp hn
  refine ⟨CondList.mem_modifySet.mpr (.inr ⟨hm, hne⟩), fun hi => hne ?_⟩
  rw [(hw _ k).eq_of_index hm hnm hi, hna]

theorem condTrue_without_of_ne {k' : Kind} {q : CondPtr k'}
    (h : ¬ (q.acLogic = p.acLogic ∧ k' = k ∧ (q.pCondSetNode : Nat) = p.pCondSetNode)) :
    (s.setList p.acLogic k ((s.list p.acLogic k).without p.pCondSetNode d)).condTrue q =
      s.condTrue q := by
  rw [condTrue, condTrue]
  congr 1
  by_cases hl : q.acLogic = p.acLogic ∧ k' = k
  · obtain ⟨hl, rfl⟩ := hl
    have hne : q.pCondSetNode ≠ p.pCondSetNode := fun ha => h ⟨hl, rfl, ha⟩
    have hset := set?_modifySet s p (q := q) (fun n => n.delNode d.addr) (fun _ => rfl) hl
    simp only [hne, if_false, Option.map_id'] at hset
    rw [← hset, set?, set?, hl, list_setList_self,
      list_modifySet_self]
    rfl
  · rw [set?, set?, list_setList_of_ne _ _ hl]

theorem without_off (hw : s.Wf) (hc : s.Consistent) (hn : s.set? p = some n) :
    (s.setList p.acLogic k ((s.list p.acLogic k).without p.pCondSetNode d)).ConsistentOff
      p.acLogic k n.iCondSetIndex := by
  rw [hc.off_setList_iff]
  intro m hm hne
  obtain ⟨hnm, hna⟩ := (hw _ k).set?_eq_some.mp hn
  rcases CondList.mem_modifySet.mp hm with ⟨m', hm', ha, rfl⟩ | ⟨hm, -⟩
  · obtain rfl := Keyed.eq_of_key_eq (hw _ k).addr hm' hnm (ha.trans hna.symm)
    exact absurd rfl hne
  · exact hc.set _ _ m hm

end Inside

/-- What a deletion is to leave behind: a consistent scene in which the other
conditions, and the sets they make up alone, read what they read before. -/
structure DelKeeps (s s' : SceneInfo) (p : CondPtr k) : Prop where
  consistent : s'.Consistent
  others : ∀ l' k', ∀ q ∈ s.ptrs l' k', (⟨k', q⟩ : AnyPtr) ≠ ⟨k, p⟩ →
    s'.condTrue q = s.condTrue q
  sets : ∀ l' k', ∀ n ∈ (s.list l' k').stList,
    ¬ (l' = p.acLogic ∧ k' = k ∧ n.addr = p.pCondSetNode) →
      ∃ n' ∈ (s'.list l' k').stList, n'.addr = n.addr ∧
        (s'.list l' k').setTrue n' = (s.list l' k').setTrue n

/-- When a deletion from a list that keeps other conditions leaves what it is to
leave: the set holds another condition, and the ones behind the deleted one have
its truth. -/
def DelSafe (s : SceneInfo) (p : CondPtr k) : Prop :=
  ∃ n d, s.set? p = some n ∧ n.node? p.pCondNode = some d ∧ n.ucCondCount ≠ 1 ∧
    ∀ b ∈ n.pstCond, d.iCondIndex < b.iCondIndex → n.condTrue b.addr = n.condTrue d.addr

section Keeps

variable {s : SceneInfo} {p : CondPtr k} {n : CondSetNode k} {d : CondNode k}

/-- A deletion inside a set leaves every level right for what the conditions
read; what they read is the question. -/
theorem delKeeps_inside_iff (hw : s.Wf) (hc : s.Consistent) (hn : s.set? p = some n)
    (hd : n.node? p.pCondNode = some d) (hne : n.ucCondCount ≠ 1) :
    DelKeeps s
      (condSetTrueInit (s.setList p.acLogic k ((s.list p.acLogic k).without p.pCondSetNode d))
        p.acLogic k n.iCondSetIndex ((n.delNode d.addr).truth p.acLogic)) p ↔
      ∀ b ∈ n.pstCond, d.iCondIndex < b.iCondIndex → n.condTrue b.addr = n.condTrue d.addr := by
  obtain ⟨hnm, hna⟩ := (hw _ k).set?_eq_some.mp hn
  have hnw := (hw _ k).sets n hnm
  obtain ⟨hdm, hda⟩ := hnw.node?_eq_some.mp hd
  have hwy := without_wf hw hn hd hne
  rw [← hnw.delNode_reads_iff hdm hne]
  have hset := set?_without hw hn hd hne
  -- what a pointer into the set reads
  have hread : ∀ q : CondPtr k, q.acLogic = p.acLogic → q.pCondSetNode = p.pCondSetNode →
      (condSetTrueInit (s.setList p.acLogic k ((s.list p.acLogic k).without p.pCondSetNode d))
        p.acLogic k n.iCondSetIndex ((n.delNode d.addr).truth p.acLogic)).condTrue q =
          (n.delNode d.addr).condTrue q.pCondNode ∧
        s.condTrue q = n.condTrue q.pCondNode := by
    intro q hl ha
    have hq : ∀ r : SceneInfo, r.set? q = r.set? p := by
      intro r
      rw [set?, set?, hl, ha]
    rw [condTrue, condTrue, set?_condSetTrueInit, hq, hq, hset, hn]
    exact ⟨rfl, rfl⟩
  constructor
  · intro h b hb hbd
    have hmem : (⟨p.acLogic, p.pCondSetNode, b.addr⟩ : CondPtr k) ∈ s.ptrs p.acLogic k :=
      (mem_ptrs_iff hw).mpr ⟨rfl, n, b, hn, hnw.node?_eq_some.mpr ⟨hb, rfl⟩⟩
    have hbp : (⟨k, ⟨p.acLogic, p.pCondSetNode, b.addr⟩⟩ : AnyPtr) ≠ ⟨k, p⟩ := by
      intro he
      have hba : b.addr = p.pCondNode := by
        rw [Sigma.mk.injEq] at he
        exact congrArg CondPtr.pCondNode (eq_of_heq he.2)
      exact hbd (Keyed.eq_of_key_eq hnw.addr hb hdm (hba.trans hda.symm))
    obtain ⟨h₁, h₂⟩ := hread ⟨p.acLogic, p.pCondSetNode, b.addr⟩ rfl rfl
    rw [← h₁, ← h₂]
    exact h.others _ _ _ hmem hbp
  · intro h
    refine ⟨?_, ?_, ?_⟩
    · have hmem : n.delNode d.addr ∈
          ((s.setList p.acLogic k ((s.list p.acLogic k).without p.pCondSetNode d)).list
            p.acLogic k).stList := by
        rw [list_setList_self]
        exact CondList.mem_modifySet.mpr (.inl ⟨n, hnm, hna, rfl⟩)
      have hoff := without_off (d := d) hw hc hn
      exact condSetTrueInit_consistent (hw.setList hwy) hmem hoff
    · intro l' k' q hq hqp
      by_cases hin : q.acLogic = p.acLogic ∧ k' = k ∧ q.pCondSetNode = p.pCondSetNode
      · obtain ⟨hl, rfl, ha⟩ := hin
        obtain ⟨h₁, h₂⟩ := hread q hl ha
        obtain ⟨-, m, b, hm, hb⟩ := (mem_ptrs_iff hw).mp hq
        obtain rfl : n = m := by
          rw [set?, hl, ha] at hm
          exact some.inj (hn.symm.trans hm)
        obtain ⟨hbm, hba⟩ := hnw.node?_eq_some.mp hb
        rw [h₁, h₂, ← hba]
        refine h b hbm ?_
        rintro rfl
        apply hqp
        cases q; cases p
        simp_all
      · rw [condTrue, set?_condSetTrueInit]
        exact condTrue_without_of_ne hin
    · intro l' k' m hm hne
      by_cases hl : l' = p.acLogic ∧ k' = k
      · obtain ⟨rfl, rfl⟩ := hl
        obtain ⟨hmem, hi⟩ := without_others (d := d) hw hn hm fun ha => hne ⟨rfl, rfl, ha⟩
        rw [list_condSetTrueInit_self, list_setList_self]
        exact ⟨m, hmem, rfl, Mask.getLsbD_write_of_ne _ ((hw _ k').index_lt_32 hnm) _ hi⟩
      · rw [list_condSetTrueInit_of_ne _ _ _ hl, list_setList_of_ne _ _ hl]
        exact ⟨m, hm, rfl, rfl⟩

/-- The list without a set that held one condition. -/
def CondList.withoutSet (x : CondList l k) (a : Nat) : CondList l k :=
  CondList.updateIndex { x.countDown.unlink a with iNodeNum := x.iNodeNum - 1 }

theorem condDel_last (hn : s.set? p = some n) (hd : n.node? p.pCondNode = some d)
    (hone : n.ucCondCount = 1) :
    s.condDel p.acLogic p =
      some (s.setList p.acLogic k ((s.list p.acLogic k).withoutSet n.addr)) := by
  simp only [SceneInfo.condDel, hn, hd, bind_eq_bind, bind_some, hone, if_true,
    ne_eq, not_true_eq_false, false_and, if_false, Option.pure_def, some.injEq,
    SceneInfo.modifyList, SceneInfo.list_setList_self, SceneInfo.setList_setList]
  rfl

theorem condDel_cases {s' : SceneInfo} (h : s.condDel p.acLogic p = some s') :
    ∃ n d, s.set? p = some n ∧ n.node? p.pCondNode = some d ∧
      (n.ucCondCount = 1 ∧
          s' = s.setList p.acLogic k ((s.list p.acLogic k).withoutSet n.addr) ∨
        n.ucCondCount ≠ 1 ∧
          s' = s.setList p.acLogic k ((s.list p.acLogic k).without p.pCondSetNode d)) := by
  have hdel := h
  simp only [SceneInfo.condDel, bind_eq_bind, bind_eq_some_iff] at h
  obtain ⟨n, hn, d, hd, -⟩ := h
  refine ⟨n, d, hn, hd, ?_⟩
  by_cases hone : n.ucCondCount = 1
  · rw [condDel_last hn hd hone] at hdel
    exact .inl ⟨hone, (some.inj hdel).symm⟩
  · rw [condDel_inside hn hd hone] at hdel
    exact .inr ⟨hone, (some.inj hdel).symm⟩

theorem CondList.iCount_withoutSet (x : CondList l k) (a : Nat) :
    (x.withoutSet a).iCount = x.iCount - 1 := by
  rw [withoutSet, updateIndex]
  split <;> rfl

theorem CondList.set?_withoutSet (x : CondList l k) (a : Nat) : (x.withoutSet a).set? a = none := by
  have haddr : (x.withoutSet a).stList.map CondSetNode.addr =
      (x.stList.filter (·.addr != a)).map CondSetNode.addr := by
    rw [withoutSet, updateIndex]
    split
    · rfl
    · exact map_updateIndexFrom (fun _ _ => rfl) _ _
  rw [set?, find?_eq_none]
  intro m hm
  have := haddr ▸ List.mem_map_of_mem (f := CondSetNode.addr) hm
  obtain ⟨m', hm', ha⟩ := List.mem_map.mp this
  have := (mem_filter.mp hm').2
  simpa [← ha] using this

theorem set?_condDel_last {s₁ : SceneInfo} (hn : s.set? p = some n)
    (hd : n.node? p.pCondNode = some d) (hone : n.ucCondCount = 1)
    (h : s.condDel p.acLogic p = some s₁) :
    s₁.set? p = none ∧ (s₁.list p.acLogic k).iCount = (s.list p.acLogic k).iCount - 1 := by
  rw [condDel_last hn hd hone, some.injEq] at h
  subst h
  have hna : n.addr = p.pCondSetNode := (Keyed.mem_and_key_of_find? hn).2
  rw [set?, list_setList_self, hna]
  exact ⟨CondList.set?_withoutSet _ _, CondList.iCount_withoutSet _ _⟩

end Keeps

/-- A deletion from a list that keeps other conditions succeeds and leaves what
it is to leave exactly when it is `DelSafe`. -/
theorem sceneCondDel_keeps_iff_delSafe {x : SceneList} {a : Nat} {s : SceneInfo} {c : Cond k}
    {p : CondPtr k} (hs : x.scene? a = some s) (hw : s.Wf) (hc : s.Consistent)
    (hp : p ∈ s.ptrs l k) (hfiled : Filed x a s l c p) (htwo : 2 ≤ (s.list l k).iCount) :
    (∃ x' s', sceneCondDel x a l c = some (x', .noErr) ∧ x'.scene? a = some s' ∧
      DelKeeps s s' p) ↔ DelSafe s p := by
  obtain ⟨rfl, n, d, hn, hd⟩ := (mem_ptrs_iff hw).mp hp
  have hsafe : DelSafe s p ↔ n.ucCondCount ≠ 1 ∧
      ∀ b ∈ n.pstCond, d.iCondIndex < b.iCondIndex → n.condTrue b.addr = n.condTrue d.addr := by
    constructor
    · rintro ⟨n', d', hn', hd', h⟩
      obtain rfl : n = n' := some.inj (hn.symm.trans hn')
      obtain rfl : d = d' := some.inj (hd.symm.trans hd')
      exact h
    · intro h
      exact ⟨n, d, hn, hd, h⟩
  rw [hsafe, sceneCondDel_eq hs hfiled]
  by_cases hone : n.ucCondCount = 1
  · -- the freed set is looked at: there is no result
    refine iff_of_false ?_ fun h => h.1 hone
    rintro ⟨x', s', h, -, -⟩
    obtain ⟨s₁, hs₁, h⟩ := bind_eq_some_iff.mp h
    obtain ⟨hgone, hcount⟩ := set?_condDel_last hn hd hone hs₁
    have hne : ¬ 0 = (s₁.list p.acLogic k).iCount := by omega
    simp [condDelTrue, hne, hgone] at h
  · have hwy := without_wf hw hn hd hone
    have hset := set?_without hw hn hd hone
    have hne : ¬ 0 = ((s.setList p.acLogic k
        ((s.list p.acLogic k).without p.pCondSetNode d)).list p.acLogic k).iCount := by
      rw [list_setList_self, CondList.without]
      simp only
      omega
    have hnw := (hw _ k).sets n ((hw _ k).set?_eq_some.mp hn).1
    have hword := (hnw.delNode (hnw.node?_eq_some.mp hd).1 hone).wordTrue_eq p.acLogic
    rw [condDel_inside hn hd hone, bind_some, condDelTrue]
    simp only [hne, if_false, hset, bind_eq_bind, bind_some, Option.pure_def,
      map_some, hword]
    have hidx : (n.delNode d.addr).iCondSetIndex = n.iCondSetIndex := rfl
    rw [hidx, ← delKeeps_inside_iff hw hc hn hd hone]
    constructor
    · rintro ⟨x', s', h, hs', hk⟩
      refine ⟨hone, ?_⟩
      simp only [some.injEq, Prod.mk.injEq, and_true] at h
      subst h
      obtain rfl := some.inj ((SceneList.scene?_setScene_self hs _).symm.trans hs')
      exact hk
    · rintro ⟨-, hk⟩
      exact ⟨_, _, rfl, SceneList.scene?_setScene_self hs _, hk⟩

namespace Sample

/-- Two `Or` conditions, the first of them true. -/
def twoConds : SceneList :=
  after (sceneEventOrCondAdd (after (sceneEventOrCondAdd list 0 (eventCond ['k'] ['1']))) 0
    (eventCond ['j'] []))

theorem twoConds_filed :
    Filed (k := .event) twoConds 0 (scene twoConds) .or (eventCond ['k'] ['1']) ⟨.or, 1, 2⟩ :=
  ⟨by decide, _, rfl, by decide, by decide⟩

end Sample

/-- Deleting the second of two conditions. -/
theorem sceneCondDel_keeps_iff_delSafe_sample :
    (∃ x' s', sceneEventOrCondDel Sample.twoConds 0 (Sample.eventCond ['j'] []) =
        some (x', .noErr) ∧ x'.scene? 0 = some s' ∧
        DelKeeps (k := .event) (Sample.scene Sample.twoConds) s' ⟨.or, 1, 5⟩) ↔
      DelSafe (k := .event) (Sample.scene Sample.twoConds) ⟨.or, 1, 5⟩ :=
  sceneCondDel_keeps_iff_delSafe (k := .event) (l := .or) (c := Sample.eventCond ['j'] [])
    (by decide) (by decide) (by decide) (by decide) ⟨by decide, _, rfl, by decide, by decide⟩
    (by decide)

/-- Deleting the first of two conditions gives the second its truth. -/
theorem sceneEventOrCondDel_not_keeps :
    (Sample.scene Sample.twoConds).Wf ∧ (Sample.scene Sample.twoConds).Consistent ∧
      2 ≤ ((Sample.scene Sample.twoConds).list .or .event).iCount ∧
      Filed (k := .event) Sample.twoConds 0 (Sample.scene Sample.twoConds) .or
        (Sample.eventCond ['k'] ['1']) ⟨.or, 1, 2⟩ ∧
      ∃ x' s', sceneEventOrCondDel Sample.twoConds 0 (Sample.eventCond ['k'] ['1']) =
          some (x', .noErr) ∧ x'.scene? 0 = some s' ∧
        ¬ DelKeeps (k := .event) (Sample.scene Sample.twoConds) s' ⟨.or, 1, 2⟩ := by
  refine ⟨by decide, by decide, by decide, Sample.twoConds_filed, _, _, rfl, rfl, fun h => ?_⟩
  exact absurd (h.others .or .event ⟨.or, 1, 5⟩ (by decide) (by decide)) (by decide)

/-! ## Deleting the last condition -/

/-- The scene with one of its lists empty, and neutral. -/
def SceneInfo.emptied (s : SceneInfo) (l : Logic) (k : Kind) : SceneInfo :=
  (s.setList l k (.new l k)).setListTrue l k (l = .and)

theorem CondList.Wf.ucCondCount_eq_one {x : CondList l k} {n : CondSetNode k} (hw : x.Wf)
    (hn : n ∈ x.stList) (hone : x.iCount = 1) : n.ucCondCount = 1 := by
  obtain ⟨ns, ms, hx⟩ := append_of_mem hn
  have hcount := hw.count
  rw [hx, map_append, map_cons, sum_append, sum_cons] at hcount
  have hpos := (hw.sets n hn).pos
  rw [(hw.sets n hn).count]
  omega

/-- The deletion of the last condition of a list: the list becomes neutral, its
sibling stays and the scene is what the formula says without the list, exactly
when the formula has the same value with and without it and, for
`scene_event_and_cond_del`, both `And` lists were true. -/
theorem sceneCondDel_neutral_iff {x : SceneList} {a : Nat} {s : SceneInfo} {c : Cond k}
    {p : CondPtr k} (hs : x.scene? a = some s) (hw : s.Wf) (hc : s.Consistent)
    (hp : p ∈ s.ptrs l k) (hfiled : Filed x a s l c p) (hone : (s.list l k).iCount = 1) :
    ∃ x' s', sceneCondDel x a l c = some (x', .noErr) ∧ x'.scene? a = some s' ∧
      ((s'.listTrue l k = decide (l = .and) ∧
          (∀ k', k' ≠ k → s'.listTrue l k' = s.listTrue l k') ∧
          s'.ucSceneCondTrue = (s.emptied l k).sceneTruth) ↔
        (s.sceneTruth = (s.emptied l k).sceneTruth ∧
          (l = .and → k = .event → s.listTrue .and .event = true ∧
            s.listTrue .and .time = true))) := by
  obtain ⟨rfl, n, d, hn, hd⟩ := (mem_ptrs_iff hw).mp hp
  obtain ⟨hnm, -⟩ := (hw _ k).set?_eq_some.mp hn
  have hset := (hw _ k).ucCondCount_eq_one hnm hone
  have hzero : 0 = ((s.setList p.acLogic k ((s.list p.acLogic k).withoutSet n.addr)).list
      p.acLogic k).iCount := by
    rw [list_setList_self, CondList.iCount_withoutSet, hone]; rfl
  rw [sceneCondDel_eq hs hfiled, condDel_last hn hd hset, bind_some, condDelTrue,
    if_pos hzero]
  refine ⟨_, _, rfl, SceneList.scene?_setScene_self hs _, ?_⟩
  rw [modifyList, list_setList_self, setList_setList,
    ucSceneCondTrue_setListTrue, ucSceneCondTrue_setList, hc.scene]
  by_cases hev : p.acLogic = .and ∧ k = .event
  · -- bit 0 is written where bit 1 is meant
    obtain ⟨hl, rfl⟩ := hev
    rw [hl]
    have hself : ∀ y : CondList .and .event,
        ((s.setList .and .event y).setListTrue .and .time true).listTrue .and .event =
          s.listTrue .and .event := by
      intro y
      rw [listTrue_setListTrue_of_ne _ _ (by simp), listTrue_setList]
    have hsib : ∀ y : CondList .and .event,
        ((s.setList .and .event y).setListTrue .and .time true).listTrue .and .time = true :=
      fun y => listTrue_setListTrue_self _ _ _ _
    constructor
    · rintro ⟨h₁, h₂, h₃⟩
      refine ⟨h₃, fun _ _ => ⟨?_, ?_⟩⟩
      · rw [← hself]; exact h₁
      · rw [← h₂ .time (by decide)]; exact hsib _
    · rintro ⟨h₃, h⟩
      obtain ⟨he, ht⟩ := h rfl rfl
      refine ⟨(hself _).trans he, ?_, h₃⟩
      intro k' hk'
      cases k' with
      | time => exact (hsib _).trans ht.symm
      | event => exact absurd rfl hk'
  · have hbit : delBit p.acLogic k = k := by
      cases hl : p.acLogic <;> cases k <;> first | rfl | exact absurd ⟨hl, rfl⟩ hev
    rw [hbit]
    constructor
    · rintro ⟨-, -, h₃⟩
      exact ⟨h₃, fun hl hk => absurd ⟨hl, hk⟩ hev⟩
    · rintro ⟨h₃, -⟩
      refine ⟨listTrue_setListTrue_self _ _ _ _, ?_, h₃⟩
      intro k' hk'
      rw [listTrue_setListTrue_of_ne _ _ fun h => hk' h.2, listTrue_setList]

namespace Sample

/-- One `Or` condition, which is true. -/
def oneOr : SceneList := after (sceneEventOrCondAdd list 0 (eventCond ['k'] ['1']))

/-- One `And` condition, which is false. -/
def oneAnd : SceneList := after (sceneEventAndCondAdd list 0 (eventCond ['k'] []))

end Sample

/-- Deleting the only condition, of an `Or` list. -/
theorem sceneCondDel_neutral_iff_sample :
    ∃ x' s', sceneEventOrCondDel Sample.oneOr 0 (Sample.eventCond ['k'] []) = some (x', .noErr) ∧
      x'.scene? 0 = some s' ∧
      ((s'.listTrue .or .event = false ∧
          (∀ k', k' ≠ .event → s'.listTrue .or k' = (Sample.scene Sample.oneOr).listTrue .or k') ∧
          s'.ucSceneCondTrue = ((Sample.scene Sample.oneOr).emptied .or .event).sceneTruth) ↔
        ((Sample.scene Sample.oneOr).sceneTruth =
            ((Sample.scene Sample.oneOr).emptied .or .event).sceneTruth ∧
          (Logic.or = .and → Kind.event = .event →
            (Sample.scene Sample.oneOr).listTrue .and .event = true ∧
            (Sample.scene Sample.oneOr).listTrue .and .time = true))) :=
  sceneCondDel_neutral_iff (k := .event) (l := .or) (p := ⟨.or, 1, 2⟩)
    (c := Sample.eventCond ['k'] []) (by decide) (by decide) (by decide) (by decide)
    ⟨by decide, _, rfl, by decide, by decide⟩ (by decide)

/-- Deleting the only `And` event condition leaves the list false. -/
theorem sceneEventAndCondDel_not_neutral :
    (Sample.scene Sample.oneAnd).Wf ∧ (Sample.scene Sample.oneAnd).Consistent ∧
      ((Sample.scene Sample.oneAnd).list .and .event).iCount = 1 ∧
      ∃ x' s', sceneEventAndCondDel Sample.oneAnd 0 (Sample.eventCond ['k'] []) =
          some (x', .noErr) ∧ x'.scene? 0 = some s' ∧ s'.listTrue .and .event ≠ true :=
  ⟨by decide, by decide, by decide, _, _, rfl, rfl, by decide⟩

/-! ## Clearing -/

theorem CondList.Wf.clear_stList {x : CondList l k} (hw : x.Wf) : x.clear.stList = [] := by
  have hsize := hw.size
  rw [clear, if_pos (by omega)]
  simp only [drop_eq_nil_iff]
  omega

/-- Clearing a list leaves a consistent scene exactly when the bit of the list
was neutral and the formula has the same value with and without the list. -/
theorem sceneCondClear_consistent_iff {x : SceneList} {a : Nat} {s : SceneInfo}
    (hs : x.scene? a = some s) (hw : s.Wf) (hc : s.Consistent) (l : Logic) (k : Kind) :
    ∃ x' s', sceneCondClear x a l k = some x' ∧ x'.scene? a = some s' ∧
      (s'.list l k).stList = [] ∧
      (∀ l' k', ¬ (l' = l ∧ k' = k) → s'.list l' k' = s.list l' k') ∧
      (s'.Consistent ↔
        s.listTrue l k = decide (l = .and) ∧ s.sceneTruth = (s.emptied l k).sceneTruth) := by
  have hgen : sceneCondClear x a l k = condClear x a l k := by cases l <;> cases k <;> rfl
  have hnil := (hw l k).clear_stList
  have hguard : ¬ ((s.list l k).iNodeNum ≠ 0 ∧ (s.list l k).clear.stList ≠ []) :=
    fun h => h.2 hnil
  rw [hgen, condClear]
  simp only [hs, bind_eq_bind, bind_some, if_neg hguard, Option.pure_def]
  generalize hy : ({ (s.list l k).clear with iCount := 0, uiCondSetTrue := 0 } : CondList l k) = y
  have hynil : y.stList = [] := by rw [← hy]; exact hnil
  refine ⟨_, s.setList l k y, rfl, SceneList.scene?_setScene_self hs _, ?_, ?_, ?_⟩
  · rw [list_setList_self, hynil]
  · intro l' k' h
    exact list_setList_of_ne _ _ h
  · -- with a neutral bit, the cleared scene and the ideal one have the same formula
    have hideal : s.listTrue l k = decide (l = .and) →
        (s.emptied l k).sceneTruth = (s.setList l k y).sceneTruth := by
      intro hbit
      rw [emptied, setListTrue_eq_self (by rwa [listTrue_setList]),
        ← s.setList_setList l k y]
      apply sceneTruth_setList
      rw [list_setList_self, hynil]
      rfl
    constructor
    · intro h
      have hbit : s.listTrue l k = decide (l = .and) := by
        have := h.list l k
        rwa [listTrue_setList, list_setList_self, CondList.truth, hynil,
          map_nil, Logic.fold_nil] at this
      refine ⟨hbit, ?_⟩
      rw [hideal hbit, ← h.scene, ucSceneCondTrue_setList, hc.scene]
    · rintro ⟨hbit, hscene⟩
      refine ⟨?_, ?_, ?_⟩
      · intro l' k' n hn
        by_cases h : l' = l ∧ k' = k
        · obtain ⟨rfl, rfl⟩ := h
          rw [list_setList_self, hynil] at hn
          exact absurd hn not_mem_nil
        · rw [list_setList_of_ne _ _ h] at hn ⊢
          exact hc.set l' k' n hn
      · intro l' k'
        rw [listTrue_setList]
        by_cases h : l' = l ∧ k' = k
        · obtain ⟨rfl, rfl⟩ := h
          rw [list_setList_self, CondList.truth, hynil, map_nil, Logic.fold_nil,
            hbit]
        · rw [list_setList_of_ne _ _ h, hc.list]
      · rw [ucSceneCondTrue_setList, hc.scene, hscene, hideal hbit]

/-- Clearing the list with the one condition that is true. -/
theorem sceneCondClear_consistent_iff_sample :
    ∃ x' s', sceneEventOrCondClear Sample.oneOr 0 = some x' ∧ x'.scene? 0 = some s' ∧
      (s'.list .or .event).stList = [] ∧
      (∀ l' k', ¬ (l' = .or ∧ k' = .event) →
        s'.list l' k' = (Sample.scene Sample.oneOr).list l' k') ∧
      (s'.Consistent ↔
        (Sample.scene Sample.oneOr).listTrue .or .event = false ∧
          (Sample.scene Sample.oneOr).sceneTruth =
            ((Sample.scene Sample.oneOr).emptied .or .event).sceneTruth) :=
  sceneCondClear_consistent_iff (s := Sample.scene Sample.oneOr) (by decide) (by decide)
    (by decide) .or .event

/-- A scene whose only condition is true stays true when it is cleared. -/
theorem sceneEventOrCondClear_not_consistent :
    (Sample.scene Sample.oneOr).Wf ∧ (Sample.scene Sample.oneOr).Consistent ∧
      ∃ x' s', sceneEventOrCondClear Sample.oneOr 0 = some x' ∧ x'.scene? 0 = some s' ∧
        ¬ s'.Consistent :=
  ⟨by decide, by decide, _, _, rfl, rfl, by decide⟩

end Honyar.LocalScene
