import Honyar.LocalScene.Stored

/-!
# What a deletion looks at

After `cond_del` the four deletions of scene_list.c work out the truth of the set the condition was
in, with a shift by 32 less the number of its conditions, unless the list has become empty.  A set
that loses its only condition is freed, and the list may keep others.
-/

namespace Honyar.LocalScene

open CText Option CondList

variable {l : Logic} {k : Kind}

/-! ## Deletion and consultation -/

/-- `cond_del` called with the list of logic `l`, whatever else still points to a freed set. -/
def SceneInfo.afterDel (s : SceneInfo) (l : Logic) (p : CondPtr k) : Option SceneInfo := do
  let n ← s.set? p
  let c ← n.node? p.pCondNode
  if 1 = n.ucCondCount then
    let s := s.modifyList l k CondList.countDown
    let s := s.modifyList p.acLogic k fun x => x.unlink n.addr
    return s.modifyList l k fun x => CondList.updateIndex { x with iNodeNum := x.iNodeNum - 1 }
  else
    let s := s.modifySet p fun n => n.delNode c.addr
    return s.modifyList l k fun x => { x with iCount := x.iCount - 1 }

theorem SceneInfo.condDel_eq_afterDel (s : SceneInfo) (p : CondPtr k) :
    s.condDel p.acLogic p = s.afterDel p.acLogic p := by
  simp only [condDel, afterDel, ne_eq, not_true_eq_false, false_and, if_false]

/-- The set the truth is worked out of is in its list, and the shift is by 0 to 31. -/
structure Consultable (s : SceneInfo) (p : CondPtr k) : Prop where
  set : ∃ n ∈ (s.list p.acLogic k).stList, n.addr = p.pCondSetNode ∧
    0 ≤ 32 - (n.ucCondCount : Int) ∧ 32 - (n.ucCondCount : Int) ≤ 31

/-- A deletion looks at a set of a list only. -/
structure LooksInside (x : SceneList) (a : Nat) (l : Logic) (c : Cond k) : Prop where
  inside : ∃ s p s₁, x.scene? a = some s ∧ Filed x a s l c p ∧ s.afterDel l p = some s₁ ∧
    ((s₁.list l k).iCount ≠ 0 → Consultable s₁ p)

variable {s s₁ : SceneInfo} {p : CondPtr k} {n : CondSetNode k} {d : CondNode k}

theorem SceneInfo.list_modifyList_keeps {β : Type} (g : ∀ {l : Logic}, CondList l k → β)
    (s : SceneInfo) {f : CondList l k → CondList l k} (hf : ∀ x, g (f x) = g x) (l' : Logic) :
    g ((s.modifyList l k f).list l' k) = g (s.list l' k) := by
  by_cases hl : l' = l
  · subst hl
    rw [modifyList, list_setList_self]
    exact hf _
  · rw [modifyList, list_setList_of_ne _ _ fun h => hl h.1]

theorem CondList.iCount_updateIndex (x : CondList l k) : x.updateIndex.iCount = x.iCount := by
  rw [updateIndex]
  split <;> rfl

theorem CondList.map_addr_updateIndex (x : CondList l k) :
    x.updateIndex.stList.map CondSetNode.addr = x.stList.map CondSetNode.addr := by
  rw [updateIndex]
  split
  · rfl
  · exact map_updateIndexFrom (fun _ _ => rfl) _ _

/-- The list that is called counts one condition less, whichever list the condition was in. -/
theorem SceneInfo.iCount_afterDel (h : s.afterDel l p = some s₁) :
    (s₁.list l k).iCount = (s.list l k).iCount - 1 := by
  simp only [afterDel, bind_eq_bind, bind_eq_some_iff] at h
  obtain ⟨n, hn, d, hd, h⟩ := h
  split at h
  · obtain rfl := some.inj h
    have hunlink : (((s.modifyList l k countDown).modifyList p.acLogic k
        fun x => x.unlink n.addr).list l k).iCount =
        ((s.modifyList l k countDown).list l k).iCount :=
      list_modifyList_keeps (f := fun x => x.unlink n.addr) (fun x => x.iCount) _
        (fun _ => rfl) l
    rw [modifyList, list_setList_self, iCount_updateIndex]
    refine hunlink.trans ?_
    rw [modifyList, list_setList_self]
    rfl
  · obtain rfl := some.inj h
    have hset : ((s.modifySet p fun n => n.delNode d.addr).list l k).iCount =
        (s.list l k).iCount :=
      list_modifyList_keeps (f := fun x => x.modifySet p.pCondSetNode fun n => n.delNode d.addr)
        (fun x => x.iCount) s (fun _ => rfl) l
    rw [modifyList, list_setList_self]
    exact congrArg (· - 1) hset

theorem SceneInfo.gone_afterDel (hn : s.set? p = some n) (hone : n.ucCondCount = 1)
    (h : s.afterDel l p = some s₁) :
    ∀ m ∈ (s₁.list p.acLogic k).stList, m.addr ≠ p.pCondSetNode := by
  simp only [afterDel, hn, bind_eq_bind, bind_some, bind_eq_some_iff, hone,
    if_true] at h
  obtain ⟨d, -, h⟩ := h
  obtain rfl := some.inj h
  obtain ⟨-, hna⟩ := Keyed.mem_and_key_of_find? hn
  intro m hm hma
  have hmem : m.addr ∈ _ := List.mem_map_of_mem (f := CondSetNode.addr) hm
  rw [list_modifyList_keeps
    (f := fun x : CondList l k => updateIndex { x with iNodeNum := x.iNodeNum - 1 })
    (fun x => x.stList.map CondSetNode.addr) _ (fun _ => map_addr_updateIndex _),
    modifyList, list_setList_self] at hmem
  obtain ⟨m', hm', haddr⟩ := List.mem_map.mp hmem
  have hne : m'.addr ≠ n.addr := by simpa using (List.mem_filter.mp hm').2
  exact hne (haddr.trans (hma.trans hna.symm))

theorem SceneInfo.consultable_of_ne_one {heap : Nat} (hs : s.Placed heap)
    (hn : s.set? p = some n) (hone : n.ucCondCount ≠ 1)
    (h : s.afterDel l p = some s₁) : Consultable s₁ p := by
  simp only [afterDel, hn, bind_eq_bind, bind_some, bind_eq_some_iff,
    Ne.symm hone, if_false] at h
  obtain ⟨d, -, h⟩ := h
  obtain rfl := some.inj h
  obtain ⟨hnm, hna⟩ := Keyed.mem_and_key_of_find? hn
  have hw := (hs.chained _ _).sets n hnm
  have hcount := hw.count
  have hpos := hw.pos
  have hle := hw.le
  have hmem : n.delNode d.addr ∈ ((s.modifySet p fun n => n.delNode d.addr).list p.acLogic
      k).stList := by
    rw [modifySet, list_setList_self]
    exact mem_modifySet.mpr (.inl ⟨n, hnm, hna, rfl⟩)
  have hless : (n.delNode d.addr).ucCondCount = n.ucCondCount - 1 := rfl
  refine ⟨n.delNode d.addr, ?_, hna, ?_, ?_⟩
  · rw [list_modifyList_keeps (f := fun x : CondList l k => { x with iCount := x.iCount - 1 })
      (fun x => x.stList) _ (fun _ => rfl)]
    exact hmem
  · omega
  · omega

theorem condDelTrue_isSome_iff {bit : Kind} :
    (condDelTrue s l bit p).isSome ↔ ((s.list l k).iCount ≠ 0 → (s.set? p).isSome) := by
  rw [condDelTrue]
  by_cases hzero : 0 = (s.list l k).iCount
  · rw [if_pos hzero]
    exact iff_of_true rfl fun h => absurd hzero.symm h
  · rw [if_neg hzero]
    cases s.set? p with
    | none => simp [Ne.symm hzero]
    | some n => simp

/-! ## Deletions of reachable states -/

/-- In every state the engine reaches, a deletion looks at a set of a list only, with a shift that
is defined, exactly when the set of the condition holds another one or the list becomes empty. -/
theorem sceneCondDel_looksInside_iff {y : Engine} {as : List Act} {os : List Effect}
    (hrun : Run.run Engine.step .init as = some (y, os)) {a : Nat}
    (hs : y.list.scene? a = some s) (l : Logic) (c : Cond k) (hfiled : Filed y.list a s l c p)
    (hn : s.set? p = some n) (hd : n.node? p.pCondNode = some d) :
    LooksInside y.list a l c ↔ n.ucCondCount ≠ 1 ∨ (s.list l k).iCount = 1 := by
  have hplaced : s.Placed y.list.heap :=
    (run_indexed hrun).placed _ (SceneList.mem_of_scene? hs)
  obtain ⟨s₁, hs₁⟩ : ∃ s₁, s.afterDel l p = some s₁ := by
    simp only [SceneInfo.afterDel, hn, hd, bind_eq_bind, bind_some]
    split <;> exact ⟨_, rfl⟩
  have hcount := SceneInfo.iCount_afterDel hs₁
  constructor
  · rintro ⟨s', p', s₂, hs', hfiled', hs₂, hlooks⟩
    obtain rfl := some.inj (hs.symm.trans hs')
    obtain ⟨e, he, -, hp⟩ := hfiled.found
    obtain ⟨e', he', -, hp'⟩ := hfiled'.found
    obtain rfl := some.inj (he.symm.trans he')
    obtain rfl := some.inj (hp.symm.trans hp')
    obtain rfl := some.inj (hs₁.symm.trans hs₂)
    by_cases hone : n.ucCondCount = 1
    · right
      by_contra hmany
      obtain ⟨m, hm, hma, -⟩ := hlooks (by omega)
      exact SceneInfo.gone_afterDel hn hone hs₁ m hm hma
    · exact .inl hone
  · intro h
    refine ⟨s, p, s₁, hs, hfiled, hs₁, fun hne => ?_⟩
    rcases h with hone | hempty
    · exact SceneInfo.consultable_of_ne_one hplaced hn hone hs₁
    · omega

/-- A deletion through the list of its condition is defined where it looks at a set of the list
only. -/
theorem sceneCondDel_isSome_iff {x : SceneList} {a heap : Nat} {c : Cond k}
    (hs : x.scene? a = some s) (hplaced : s.Placed heap) (hfiled : Filed x a s p.acLogic c p)
    (hn : s.set? p = some n) :
    (sceneCondDel x a p.acLogic c).isSome ↔ LooksInside x a p.acLogic c := by
  rw [sceneCondDel_eq hs hfiled, SceneInfo.condDel_eq_afterDel]
  constructor
  · intro h
    obtain ⟨x', hx'⟩ := isSome_iff_exists.mp h
    obtain ⟨s₁, hs₁, htrue⟩ := bind_eq_some_iff.mp hx'
    obtain ⟨s', hs', -⟩ := map_eq_some_iff.mp htrue
    refine ⟨s, p, s₁, hs, hfiled, hs₁, fun hne => ?_⟩
    have hset := condDelTrue_isSome_iff.mp (isSome_iff_exists.mpr ⟨s', hs'⟩) hne
    obtain ⟨m, hm⟩ := isSome_iff_exists.mp hset
    obtain ⟨hmem, hma⟩ := Keyed.mem_and_key_of_find? hm
    refine SceneInfo.consultable_of_ne_one hplaced hn (fun hone => ?_) hs₁
    exact SceneInfo.gone_afterDel hn hone hs₁ m hmem hma
  · rintro ⟨s', p', s₁, hs', hfiled', hs₁, hlooks⟩
    obtain rfl := some.inj (hs.symm.trans hs')
    obtain ⟨e, he, -, hp⟩ := hfiled.found
    obtain ⟨e', he', -, hp'⟩ := hfiled'.found
    obtain rfl := some.inj (he.symm.trans he')
    obtain rfl := some.inj (hp.symm.trans hp')
    rw [hs₁, bind_some, isSome_map, condDelTrue_isSome_iff]
    intro hne
    obtain ⟨m, hm, hma, -⟩ := hlooks hne
    rw [SceneInfo.set?, set?, List.find?_isSome]
    exact ⟨m, hm, by simpa using hma⟩

/-! ### 33 conditions -/

namespace Sample

/-- A scene, and conditions for different keys in its `Or` list. -/
def manyRun (n : Nat) : List Act :=
  .sceneAdd text :: (List.range n).map fun i =>
    .condAdd ['1'] .or .event (eventCond ['k', Char.ofNat (48 + i)] [])

def manyScene (n : Nat) : SceneInfo := scene (engineAfter (manyRun n)).list

/-- The first condition for the key `k0`. -/
def firstPtr : CondPtr .event := ⟨.or, 1, 2⟩

/-- The 33rd condition, alone in the second set that was made. -/
def lastPtr : CondPtr .event := ⟨.or, 97, 98⟩

theorem manyRun_facts : (Run.run Engine.step .init (manyRun 2) =
      some (engineAfter (manyRun 2), effectsOf (manyRun 2)) ∧
    Run.run Engine.step .init (manyRun 33) =
      some (engineAfter (manyRun 33), effectsOf (manyRun 33))) ∧
    ((manyScene 33).set? lastPtr).map CondSetNode.ucCondCount = some 1 ∧
      ((manyScene 33).node? lastPtr).isSome = true ∧
        ((manyScene 33).list .or .event).iCount = 33 := by decide +kernel

theorem manyRun_two : Run.run Engine.step .init (manyRun 2) =
    some (engineAfter (manyRun 2), effectsOf (manyRun 2)) := manyRun_facts.1.1

theorem manyRun_full : Run.run Engine.step .init (manyRun 33) =
    some (engineAfter (manyRun 33), effectsOf (manyRun 33)) := manyRun_facts.1.2

theorem lastPtr_filed : Filed (k := .event) (engineAfter (manyRun 33)).list 0 (manyScene 33) .or
    (eventCond ['k', 'P'] []) lastPtr :=
  ⟨by decide, (ptrHashFind (engineAfter (manyRun 33)).list.pHashTable
      (Cond.hashKey (k := .event) (eventCond ['k', 'P'] [])) (manyScene 33).acSceneId).get
    (by decide +kernel), (some_get _).symm, by decide +kernel, by decide +kernel⟩

theorem lastPtr_alone : ((manyScene 33).set? lastPtr).map CondSetNode.ucCondCount = some 1 ∧
    ((manyScene 33).node? lastPtr).isSome = true ∧
      ((manyScene 33).list .or .event).iCount = 33 := manyRun_facts.2

end Sample

open Sample in
theorem sceneCondDel_looksInside_two :
    LooksInside (k := .event) (engineAfter (manyRun 2)).list 0 .or (eventCond ['k', '0'] []) := by
  have htwo : ((manyScene 2).set? firstPtr).map CondSetNode.ucCondCount = some 2 := by
    decide +kernel
  have hnode : ((manyScene 2).node? firstPtr).isSome = true := by decide +kernel
  obtain ⟨n, hn, hcount⟩ := map_eq_some_iff.mp htwo
  obtain ⟨d, hd⟩ := isSome_iff_exists.mp hnode
  rw [SceneInfo.node?, hn] at hd
  have hfiled : Filed (k := .event) (engineAfter (manyRun 2)).list 0 (manyScene 2) .or
      (eventCond ['k', '0'] []) firstPtr :=
    ⟨by decide, (ptrHashFind (engineAfter (manyRun 2)).list.pHashTable
        (Cond.hashKey (k := .event) (eventCond ['k', '0'] [])) (manyScene 2).acSceneId).get
      (by decide +kernel), (some_get _).symm, by decide +kernel, by decide +kernel⟩
  exact (sceneCondDel_looksInside_iff manyRun_two (by decide +kernel) .or _ hfiled hn hd).mpr
    (.inl (by omega))

open Sample in
/-- The only condition of the second set of a list is deleted: the set is looked at after it was
freed. -/
theorem sceneCondDel_not_looksInside :
    ¬ ∀ (y : Engine) (as : List Act) (os : List Effect),
      Run.run Engine.step .init as = some (y, os) → ∀ (a : Nat) (s : SceneInfo),
      y.list.scene? a = some s → ∀ (l : Logic) (k : Kind) (c : Cond k) (p : CondPtr k),
      Filed y.list a s l c p → (s.node? p).isSome → LooksInside y.list a l c := by
  intro h
  obtain ⟨halone, hnode, hmany⟩ := lastPtr_alone
  have hs : (engineAfter (manyRun 33)).list.scene? 0 = some (manyScene 33) := by decide +kernel
  obtain ⟨s, p, s₁, hs', hfiled, hs₁, hlooks⟩ := h _ _ _ manyRun_full 0 _ hs .or .event _ _
    lastPtr_filed hnode
  obtain rfl := some.inj (hs.symm.trans hs')
  obtain ⟨e, he, -, hp⟩ := lastPtr_filed.found
  obtain ⟨e', he', -, hp'⟩ := hfiled.found
  obtain rfl := some.inj (he.symm.trans he')
  obtain rfl := some.inj (hp.symm.trans hp')
  obtain ⟨n, hn, hone⟩ := map_eq_some_iff.mp halone
  have hcount := SceneInfo.iCount_afterDel hs₁
  obtain ⟨m, hm, hma, -⟩ := hlooks (by omega)
  exact SceneInfo.gone_afterDel hn hone hs₁ m hm hma

end Honyar.LocalScene
