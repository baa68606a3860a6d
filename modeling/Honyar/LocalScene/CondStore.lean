import Honyar.LocalScene.CondTable

/-!
# The conditions over a restart

What each operation on a condition list does to the conditions it holds, and the runs after which
the table has exactly those.  The table and the lists drift apart when a condition is changed or
deleted through a list that is not its own, when the manual trigger gets a row that no list
holds, when a reader passes over a row, cuts its last value or has no room for it.
-/

namespace Honyar.LocalScene

open CText Option List SceneInfo Cond CondList SceneList

variable {l l' : Logic} {k k' : Kind} {x x' : SceneList} {a : Nat} {s s' : SceneInfo} {c d : Cond k}
variable {p : CondPtr k} {heap : Nat}
variable {y : CondList l k} {n : CondSetNode k}

/-! ## What a list holds -/

/-- The conditions of a list, in the fields they are added with. -/
def SceneInfo.held (s : SceneInfo) (l : Logic) (k : Kind) : List (Cond k) :=
  (s.list l k).entries.map fun q => q.2.passed

theorem CondList.Counted.conds_eq (hy : y.Counted) : y.conds = y.entries.map Prod.snd := by
  rw [conds, entries, walk_eq hy, map_flatMap]
  simp only [List.map_map]
  rfl

theorem CondList.counted_iff : y.Counted ↔ y.counts.1 = y.counts.2.length := by
  rw [counts, length_map]
  rfl

theorem length_fillFirst (ns : List Nat) : (fillFirst ns).length = ns.length := by
  induction ns with
  | nil => rfl
  | cons n ns ih =>
    rw [fillFirst]
    split
    · rfl
    · rw [length_cons, length_cons, ih]

theorem countsAdd_length {m m' : Int × List Nat} (h : countsAdd k m = some m')
    (hm : m.1 = m.2.length) : m'.1 = m'.2.length := by
  rw [countsAdd] at h
  split at h
  · obtain rfl := some.inj h
    rw [length_fillFirst]
    exact hm
  · split at h
    · cases h
    · obtain rfl := some.inj h
      rw [(k.perm_instSet _ _).length_eq, length_cons, hm]
      rfl

/-! ## A condition that goes -/

/-- The rows of a set. -/
def CondSetNode.rows (l : Logic) (n : CondSetNode k) : List (CondPtr k × Cond k) :=
  n.pstCond.map fun c => (⟨l, n.addr, c.addr⟩, c.stCond)

theorem CondSetNode.filter_rows (hne : n.addr ≠ p.pCondSetNode) :
    (n.rows l).filter (fun q => q.1 ≠ p) = n.rows l := by
  refine filter_eq_self.mpr fun q hq => ?_
  obtain ⟨c, -, rfl⟩ := List.mem_map.mp hq
  exact decide_eq_true fun heq => hne (congrArg CondPtr.pCondSetNode heq)

theorem CondSetNode.Wf.filter_rows (h : n.Wf) {d : CondNode k} (hd : d ∈ n.pstCond) :
    ∃ bs as, n.pstCond = bs ++ d :: as ∧ (n.delNode d.addr).pstCond = bs ++ as.map CondNode.down ∧
      (n.rows l).filter (fun q => q.1 ≠ ⟨l, n.addr, d.addr⟩) =
        (bs ++ as).map fun c => (⟨l, n.addr, c.addr⟩, c.stCond) := by
  obtain ⟨bs, as, hn, -, -, htake, hdrop⟩ := h.split hd
  refine ⟨bs, as, hn, by rw [CondSetNode.delNode_eq, htake, hdrop], ?_⟩
  have haddr := h.addr
  rw [hn, map_append, map_cons, nodup_append] at haddr
  set keep : CondNode k → Bool := fun c =>
    decide ((⟨l, n.addr, c.addr⟩ : CondPtr k) ≠ ⟨l, n.addr, d.addr⟩) with hkeep
  have hself : ¬ keep d = true := by simp [hkeep]
  have hother (c : CondNode k) (hc : c.addr ≠ d.addr) : keep c = true :=
    decide_eq_true fun heq => hc (congrArg CondPtr.pCondNode heq)
  have hbs : bs.filter keep = bs := filter_eq_self.mpr fun c hc =>
    hother c (haddr.2.2 _ (List.mem_map_of_mem hc) _ mem_cons_self)
  have has : as.filter keep = as := filter_eq_self.mpr fun c hc => hother c fun heq =>
    (nodup_cons.mp haddr.2.1).1 (heq ▸ List.mem_map_of_mem hc)
  rw [CondSetNode.rows, List.filter_map, hn]
  show List.map _ ((bs ++ d :: as).filter keep) = _
  rw [filter_append, filter_cons_of_neg hself, hbs, has]

theorem CondList.entries_eq (y : CondList l k) : y.entries = y.stList.flatMap (·.rows l) := rfl

theorem CondList.entries_withoutSet (hy : y.Chained) (hn : n ∈ y.stList) {d : CondNode k}
    (hd : d ∈ n.pstCond) (hone : n.ucCondCount = 1) :
    (y.withoutSet n.addr).entries = y.entries.filter fun q => q.1 ≠ ⟨l, n.addr, d.addr⟩ := by
  have hbare : (y.withoutSet n.addr).stList.map CondSetNode.bare =
      (y.stList.filter (·.addr != n.addr)).map CondSetNode.bare := bare_updateIndex _
  obtain ⟨hentries, -⟩ := entries_of_bare_eq hbare
  have hrows : ∀ m ∈ y.stList, (m.rows l).filter (fun q => q.1 ≠ ⟨l, n.addr, d.addr⟩) =
      if m.addr != n.addr then m.rows l else [] := by
    intro m hm
    by_cases hma : m.addr = n.addr
    · obtain rfl := Keyed.eq_of_key_eq hy.addr hm hn hma
      have hw := hy.sets m hm
      have hsingle : m.pstCond = [d] := by
        obtain ⟨b, hb⟩ := length_eq_one_iff.mp (hw.count.symm.trans hone)
        have hmem := hd
        rw [hb, mem_singleton] at hmem
        rw [hb, hmem]
      rw [CondSetNode.rows, hsingle]
      simp
    · rw [if_pos (by simpa using hma)]
      exact CondSetNode.filter_rows hma
  have hflat (ns : List (CondSetNode k)) : (ns.filter (·.addr != n.addr)).flatMap (·.rows l) =
      ns.flatMap fun m => if m.addr != n.addr then m.rows l else [] := by
    induction ns with
    | nil => rfl
    | cons m ns ih =>
      rw [filter_cons, flatMap_cons, ← ih]
      split <;> rfl
  rw [hentries, entries_eq, filter_flatMap]
  exact (hflat y.stList).trans (flatMap_congr fun m hm => (hrows m hm).symm)

theorem CondList.rows_without (hy : y.Chained) (hn : n ∈ y.stList) {d : CondNode k}
    (hd : d ∈ n.pstCond) {m : CondSetNode k} (hm : m ∈ y.stList) :
    (if m.addr = n.addr then m.delNode d.addr else m).rows l =
      (m.rows l).filter (fun q => q.1 ≠ ⟨l, n.addr, d.addr⟩) := by
  by_cases hma : m.addr = n.addr
  · obtain rfl := Keyed.eq_of_key_eq hy.addr hm hn hma
    obtain ⟨bs, as, -, hdel, hfilter⟩ := (hy.sets m hm).filter_rows (l := l) hd
    rw [if_pos rfl, hfilter, CondSetNode.rows, hdel, map_append, map_append,
      List.map_map]
    rfl
  · rw [if_neg hma]
    exact (CondSetNode.filter_rows hma).symm

theorem CondList.entries_without (hy : y.Chained) (hn : n ∈ y.stList) {d : CondNode k}
    (hd : d ∈ n.pstCond) :
    (y.without n.addr d).entries = y.entries.filter fun q => q.1 ≠ ⟨l, n.addr, d.addr⟩ := by
  rw [entries_eq, entries_eq, filter_flatMap, without, modifySet, flatMap_map]
  exact flatMap_congr fun m hm => rows_without hy hn hd hm

theorem SceneInfo.condDel_entries (hs : s.Placed heap) (h : s.condDel p.acLogic p = some s') :
    (s'.list p.acLogic k).entries = (s.list p.acLogic k).entries.filter (fun q => q.1 ≠ p) ∧
      ∀ l' k', ¬ (l' = p.acLogic ∧ k' = k) → s'.list l' k' = s.list l' k' := by
  obtain ⟨n, d, hn, hd, hcases⟩ := condDel_cases h
  obtain ⟨hnm, hna⟩ := Keyed.mem_and_key_of_find? hn
  have hchained := hs.chained p.acLogic k
  obtain ⟨hdm, hda⟩ := (hchained.sets n hnm).node?_eq_some.mp hd
  have hp : p = ⟨p.acLogic, n.addr, d.addr⟩ := by
    rw [hna, hda]
  rcases hcases with ⟨hone, rfl⟩ | ⟨-, rfl⟩
  · refine ⟨?_, fun l' k' hne => list_setList_of_ne _ _ hne⟩
    rw [list_setList_self, entries_withoutSet hchained hnm hdm hone, ← hp]
  · refine ⟨?_, fun l' k' hne => list_setList_of_ne _ _ hne⟩
    rw [list_setList_self, ← hna, entries_without hchained hnm hdm, ← hp]

/-! ## The operations -/

theorem Indexed.ptr_eq_iff (hx : Indexed x) (hs : x.scene? a = some s)
    {q r : CondPtr k × Cond k} (hq : q ∈ (s.list l k).entries) (hr : r ∈ (s.list l k).entries) :
    q.1 = r.1 ↔ q.2.identity = r.2.identity := by
  constructor
  · intro h
    have hplaced := hx.placed _ (mem_of_scene? hs)
    rw [Keyed.eq_of_key_eq (hplaced l k).entries_nodup hq hr h]
  · intro h
    rw [hx.eq_of_hashKey_eq hs hq hr (hashKey_of_identity_eq h)]

/-- What an operation leaves besides the list it is about. -/
structure Leaves (s s' : SceneInfo) (l : Logic) (k : Kind) : Prop where
  acSceneId : s'.acSceneId = s.acSceneId
  counted : s'.Counted
  others : ∀ l' k', ¬ (l' = l ∧ k' = k) → s'.held l' k' = s.held l' k'

/-- An addition that is aimed changes the condition of its identity, or appends one. -/
theorem sceneCondAdd_held (hx : Indexed x) (hs : x.scene? a = some s) (hcount : s.Counted)
    (hm : c.isManual l = false) (hfits : c.Fits) (haimed : AddAimed x s l c)
    (h : sceneCondAdd x a l c = some (x', .noErr)) :
    ∃ s', x'.scene? a = some s' ∧ Leaves s s' l k ∧
      ((∃ e, ptrHashFind x.pHashTable c.hashKey s.acSceneId = some e ∧ s'.held l k =
          (s.held l k).map fun d => if d.identity = c.identity then c.passed else d) ∨
        ptrHashFind x.pHashTable c.hashKey s.acSceneId = none ∧
          (s.list l k).condAdd x.heap c ≠ none ∧
          (s'.held l k).Perm (c.passed :: s.held l k)) := by
  obtain ⟨s', hs', hstores⟩ := (addStores_iff hx hs hfits hm h).mpr haimed
  obtain ⟨s'', hs'', hid, -, -, hcases⟩ := sceneCondAdd_entries hx hs hm h
  obtain rfl := some.inj (hs'.symm.trans hs'')
  have hleaves (hnum : (s'.list l k).counts.1 = (s'.list l k).counts.2.length) :
      Leaves s s' l k := by
    refine ⟨hid, fun l' k' => ?_, fun l' k' hne => ?_⟩
    · by_cases hl : l' = l ∧ k' = k
      · obtain ⟨rfl, rfl⟩ := hl
        exact counted_iff.mpr hnum
      · rw [hstores.others l' k' hl]
        exact hcount l' k'
    · rw [held, hstores.others l' k' hne]
      rfl
  have hnum := counted_iff.mp (hcount l k)
  rcases hcases with ⟨e, p, hfind, hp, -, -, hcounts, hentries⟩ |
    ⟨e, p, hfind, -, -, -, -, -, hcounts, hperm⟩ | ⟨e, -, -, -, hbad, -⟩
  · refine ⟨s', hs', hleaves (by rwa [hcounts]), .inl ⟨e, hfind, ?_⟩⟩
    -- the condition that is written is the one with the identity
    obtain ⟨p', d, hp', hl, hd, hsame⟩ := haimed e hfind
    obtain rfl := some.inj (hp.symm.trans hp')
    have hchained := (hx.placed _ (mem_of_scene? hs)).chained
    have hmem : (p, d.stCond) ∈ (s.list l k).entries :=
      (mem_entries_iff hchained).mpr ⟨hl, d, hd, rfl⟩
    rw [held, held, hentries, List.map_map, List.map_map]
    refine map_congr_left fun q hq => ?_
    have hiff : q.1 = p ↔ q.2.identity = c.identity := by
      rw [hx.ptr_eq_iff hs hq hmem, sameId_iff.mp hsame]
    simp only [Function.comp_apply, identity_passed]
    by_cases hqp : q.1 = p
    · rw [if_pos hqp, if_pos (hiff.mp hqp)]
      exact (passed_set_iff hfits).mpr (sameId_iff.mpr (hiff.mp hqp))
    · rw [if_neg hqp, if_neg fun h => hqp (hiff.mpr h)]
  · refine ⟨s', hs', hleaves (countsAdd_length hcounts hnum), .inr ⟨hfind, fun hfull => ?_, ?_⟩⟩
    · rw [countsAdd_of_condAdd hfull] at hcounts
      cases hcounts
    · exact hperm.map _
  · cases hbad

/-- A deletion through the list of the condition takes the condition of an identity away. -/
theorem sceneCondDel_held (hx : Indexed x) (hs : x.scene? a = some s) (hcount : s.Counted)
    (hm : c.isManual l = false)
    (haimed : ∀ e, ptrHashFind x.pHashTable c.hashKey s.acSceneId = some e →
      ∀ p ∈ e.condPtr? k, p.acLogic = l)
    (h : sceneCondDel x a l c = some (x', .noErr)) :
    ∃ e p d s', ptrHashFind x.pHashTable c.hashKey s.acSceneId = some e ∧
      e.condPtr? k = some p ∧ s.node? p = some d ∧ x'.scene? a = some s' ∧ Leaves s s' l k ∧
      s'.held l k = (s.held l k).filter fun b => ¬ b.identity = d.stCond.identity := by
  rcases sceneCondDel_cases h with ⟨hm', -⟩ | ⟨-, hdel⟩
  · rw [hm] at hm'
    cases hm'
  have hplaced := hx.placed _ (mem_of_scene? hs)
  obtain ⟨-, hr, -⟩ | ⟨e, p, s₁, s', hfind, hp, -, hcut, htrue, -, rfl⟩ := condDel_eq_some hs hdel
  · cases hr
  · obtain rfl : p.acLogic = l := haimed e hfind p hp
    obtain ⟨hentries, hothers⟩ := condDel_entries hplaced hcut
    obtain ⟨hcount₁, -⟩ := condDel_counted hplaced hcount (.inl rfl) hcut
    have htruth := condDelTrue_eraseTruth htrue
    have hwords (l' : Logic) (k' : Kind) : s'.held l' k' = s₁.held l' k' :=
      congrArg (List.map _) (entries_of_eraseTruth_eq htruth).1
    -- the condition that was deleted
    obtain ⟨n, d, hn, hd, -⟩ := condDel_cases hcut
    have hnode : s.node? p = some d := by
      rw [node?, hn]
      exact hd
    have hmem : (p, d.stCond) ∈ (s.list p.acLogic k).entries :=
      (mem_entries_iff hplaced.chained).mpr ⟨rfl, d, hnode, rfl⟩
    refine ⟨e, p, d, s', hfind, hp, hnode, scene?_setScene_self hs _,
      ⟨?_, ?_, fun l' k' hne => ?_⟩, ?_⟩
    · exact (congrArg acSceneId htruth).trans
        (condDel_shrinks hplaced hcut).1.acSceneId
    · exact (SceneInfo.Frames.of_eraseTruth_eq htruth).counted hcount₁
    · rw [hwords, held, hothers l' k' hne]
      rfl
    · rw [hwords, held, held, hentries, List.filter_map]
      refine congrArg (List.map _) (filter_congr fun q hq => ?_)
      rw [Function.comp_apply, identity_passed]
      exact decide_eq_decide.mpr (not_congr (hx.ptr_eq_iff hs hq hmem))

theorem sceneCondClear_held (hs : x.scene? a = some s) (hcount : s.Counted)
    (h : sceneCondClear x a l k = some x') :
    ∃ s', x'.scene? a = some s' ∧ Leaves s s' l k ∧ s'.held l k = [] := by
  have hclear : condClear x a l k = some x' := by cases l <;> cases k <;> exact h
  obtain ⟨hnil, hnum⟩ := (hcount l k).clear
  obtain ⟨t, ht, -, rfl⟩ := condClear_eq_some hclear
  obtain rfl : s = t := some.inj (hs.symm.trans ht)
  refine ⟨_, scene?_setScene_self hs _, ⟨acSceneId_setList .., ?_,
    fun l' k' hne => ?_⟩, ?_⟩
  · refine hcount.setList ?_
    show (s.list l k).clear.iNodeNum = (s.list l k).clear.stList.length
    rw [hnil, hnum]
    rfl
  · rw [held, list_setList_of_ne _ _ hne]
    rfl
  · rw [held, list_setList_self, entries, hnil]
    rfl

/-! ## The table beside the lists -/

/-- The rows of a list are those of conditions that can be read back, and these are the ones
held. -/
structure Kept (id : CText) (l : Logic) (k : Kind) (rows : List CondRow) (held : List (Cond k))
    (cs : List (Cond k)) : Prop where
  shows : Shows id l k rows cs
  perm : (cs.map Cond.passed).Perm held
  room : cs.length ≤ condMaxNum
  fits : ∀ c ∈ cs, c.Fits
  keyFits : ∀ c ∈ cs, c.KeyFits
  legible : ∀ c ∈ cs, c.Legible
  notManual : ∀ c ∈ cs, c.isManual l = false

/-- The table and the lists of the scene `a` have the same conditions. -/
structure Mirrored (a : Nat) (id : CText) (st : SceneList × List CondRow) (s : SceneInfo) : Prop
    where
  indexed : Indexed st.1
  scene : st.1.scene? a = some s
  acSceneId : s.acSceneId = id
  counted : s.Counted
  kept : ∀ l k, ∃ cs : List (Cond k), Kept id l k st.2 (s.held l k) cs

/-- What an addition is given fits its arrays. -/
def CondOp.Fits : CondOp → Prop
  | .add _ _ c => c.KeyFits ∧ c.Fits
  | _ => True

/-- The operation does the same to the table as to the lists, and to no row that is not read
back. -/
def CondOp.Faithful (a : Nat) (st : SceneList × List CondRow) : CondOp → Prop
  | .add l k c => ∀ s, st.1.scene? a = some s →
      if c.isManual l then s.cManualTriggerFlag = true
      else c.Legible ∧ AddAimed st.1 s l c ∧
        (ptrHashFind st.1.pHashTable c.hashKey s.acSceneId = none →
          (s.list l k).conds.length < condMaxNum)
  | .del l k c => ∀ s, st.1.scene? a = some s → c.isManual l = false →
      ∀ e, ptrHashFind st.1.pHashTable c.hashKey s.acSceneId = some e →
        ∀ p ∈ e.condPtr? k, p.acLogic = l
  | .clear _ _ => True

variable {id : CText} {rows rows' : List CondRow} {cs : List (Cond k)} {held : List (Cond k)}
variable {st st' : SceneList × List CondRow} {os : List ErrNo}

theorem Cond.isManual_of_sameId (h : d.SameId c) : d.isManual l = c.isManual l := by
  cases k with
  | time => rfl
  | event =>
    have hkey : EventCond.acKey d = EventCond.acKey c := h.2
    simp only [isManual, EventCond.isManual, hkey]

theorem Mirrored.length_conds (h : Mirrored a id st s) (hkept : Kept id l k st.2 (s.held l k) cs) :
    (s.list l k).conds.length = cs.length := by
  have hlen := hkept.perm.length_eq
  rw [held, length_map, length_map] at hlen
  rw [(h.counted l k).conds_eq, length_map, hlen]

theorem Kept.add (h : Kept id l k rows held cs) (hroom : cs.length < condMaxNum) (hfits : c.Fits)
    (hkey : c.KeyFits) (hlegible : c.Legible) (hm : c.isManual l = false)
    (hadd : condAddDb id l c rows = some rows') {held' : List (Cond k)}
    (hheld : held'.Perm (c.passed :: held)) : Kept id l k rows' held' (cs ++ [c]) where
  shows := h.shows.add hadd
  perm := by
    rw [map_append, map_singleton]
    exact (perm_append_singleton _ _).trans ((h.perm.cons _).trans hheld.symm)
  room := by
    rw [length_append, length_singleton]
    exact hroom
  fits := forall_mem_append.mpr ⟨h.fits, forall_mem_singleton.mpr hfits⟩
  keyFits := forall_mem_append.mpr ⟨h.keyFits, forall_mem_singleton.mpr hkey⟩
  legible := forall_mem_append.mpr ⟨h.legible, forall_mem_singleton.mpr hlegible⟩
  notManual := forall_mem_append.mpr ⟨h.notManual, forall_mem_singleton.mpr hm⟩

theorem Kept.set (h : Kept id l k rows held cs) (hfits : c.Fits) (hkey : c.KeyFits)
    (hlegible : c.Legible) (hm : c.isManual l = false)
    (hset : condSetDb id l c rows = some rows') :
    Kept id l k rows' (held.map fun d => if d.identity = c.identity then c.passed else d)
      (cs.map fun d => if d.SameId c then c else d) := by
  have hall (P : Cond k → Prop) (hP : ∀ d ∈ cs, P d) (hc : P c) :
      ∀ d ∈ cs.map fun d => if d.SameId c then c else d, P d := by
    intro d hd
    obtain ⟨b, hb, rfl⟩ := List.mem_map.mp hd
    split
    · exact hc
    · exact hP b hb
  refine ⟨h.shows.set hset, ?_, by rw [length_map]; exact h.room, hall _ h.fits hfits,
    hall _ h.keyFits hkey, hall _ h.legible hlegible, hall _ h.notManual hm⟩
  have hperm := h.perm.map fun d => if d.identity = c.identity then c.passed else d
  refine .trans (.of_eq ?_) hperm
  rw [List.map_map, List.map_map]
  refine map_congr_left fun d _ => ?_
  simp only [Function.comp_apply, sameId_iff, identity_passed]
  split <;> rfl

theorem Kept.filter (h : Kept id l k rows held cs) {P : Cond k → Bool}
    (hshows : Shows id l k rows' (cs.filter P)) {held' : List (Cond k)}
    (hperm : ((cs.filter P).map Cond.passed).Perm held') :
    Kept id l k rows' held' (cs.filter P) where
  shows := hshows
  perm := hperm
  room := (length_filter_le _ _).trans h.room
  fits c hc := h.fits c (mem_of_mem_filter hc)
  keyFits c hc := h.keyFits c (mem_of_mem_filter hc)
  legible c hc := h.legible c (mem_of_mem_filter hc)
  notManual c hc := h.notManual c (mem_of_mem_filter hc)

theorem Kept.left (h : Kept id l k rows held cs) (hshows : Shows id l k rows' cs) :
    Kept id l k rows' held cs :=
  ⟨hshows, h.perm, h.room, h.fits, h.keyFits, h.legible, h.notManual⟩

/-! ## One operation -/

theorem Mirrored.update (h : Mirrored a id st s) (hx' : Indexed x') (hs' : x'.scene? a = some s')
    (hleaves : Leaves s s' l k)
    (hother : ∀ l' k' (cs' : List (Cond k')), ¬ (l' = l ∧ k' = k) → Shows id l' k' st.2 cs' →
      Shows id l' k' rows' cs')
    (hkept : ∃ cs, Kept id l k rows' (s'.held l k) cs) : Mirrored a id (x', rows') s' := by
  refine ⟨hx', hs', hleaves.acSceneId.trans h.acSceneId, hleaves.counted, fun l' k' => ?_⟩
  by_cases hl : l' = l ∧ k' = k
  · obtain ⟨rfl, rfl⟩ := hl
    exact hkept
  · obtain ⟨cs', hcs'⟩ := h.kept l' k'
    exact ⟨cs', by rw [hleaves.others l' k' hl]; exact hcs'.left (hother l' k' cs' hl hcs'.shows)⟩

theorem Mirrored.setManual (h : Mirrored a id st s) (b : Bool)
    (hrows : ∀ l' k' (cs' : List (Cond k')), (∀ c ∈ cs', c.isManual l' = false) →
      Shows id l' k' st.2 cs' → Shows id l' k' rows' cs') :
    Mirrored a id (st.1.setScene a { s with cManualTriggerFlag := b }, rows')
      { s with cManualTriggerFlag := b } := by
  have hlist := list_setManual s b
  refine ⟨setManual_indexed h.indexed h.scene b, scene?_setScene_self h.scene _,
    h.acSceneId, fun l' k' => by rw [hlist]; exact h.counted l' k', fun l' k' => ?_⟩
  obtain ⟨cs, hcs⟩ := h.kept l' k'
  refine ⟨cs, ?_⟩
  rw [held, hlist]
  exact hcs.left (hrows l' k' cs hcs.notManual hcs.shows)

theorem Shows.del_manual {cs' : List (Cond k')} (h : Shows id l' k' rows cs')
    (hnot : ∀ d ∈ cs', d.isManual l' = false) (hm : c.isManual l = true)
    (hdel : condDelDb id l c rows = some rows') : Shows id l' k' rows' cs' := by
  by_cases hl : l' = l ∧ k' = k
  · obtain ⟨rfl, rfl⟩ := hl
    refine h.del_absent (fun d hd hsame => ?_) hdel
    rw [← isManual_of_sameId hsame, hnot d hd] at hm
    cases hm
  · exact h.del_other hl hdel

theorem Mirrored.add (h : Mirrored a id st s) (hm : c.isManual l = false) (hfits : c.Fits)
    (hkey : c.KeyFits) (hfaithful : (CondOp.add l k c).Faithful a st)
    (hrows : sceneCondAddDb st.1 a l c st.2 = some rows')
    (hadd : sceneCondAdd st.1 a l c = some (x', .noErr)) :
    ∃ s', Mirrored a id (x', rows') s' := by
  have hfaithful := hfaithful s h.scene
  rw [hm, if_neg Bool.false_ne_true] at hfaithful
  obtain ⟨hlegible, haimed, hroom⟩ := hfaithful
  obtain ⟨s', hs', hleaves, hcases⟩ :=
    sceneCondAdd_held h.indexed h.scene h.counted hm hfits haimed hadd
  have hx' := sceneCondAdd_indexed h.indexed hadd
  obtain ⟨cs, hcs⟩ := h.kept l k
  rw [sceneCondAddDb, h.scene, bind_eq_bind, bind_some, hm,
    if_neg Bool.false_ne_true, h.acSceneId] at hrows
  rw [h.acSceneId] at hcases hroom
  rcases hcases with ⟨e, hfind, hheld⟩ | ⟨hfind, hfull, hheld⟩
  · rw [hfind] at hrows
    have hset := hcs.set hfits hkey hlegible hm hrows
    rw [← hheld] at hset
    exact ⟨s', h.update hx' hs' hleaves (fun _ _ _ hne hs => hs.set_other hne hrows) ⟨_, hset⟩⟩
  · rw [hfind] at hrows
    dsimp only at hrows
    rw [if_neg hfull] at hrows
    have hlen : cs.length < condMaxNum := by
      rw [← h.length_conds hcs]
      exact hroom hfind
    have hadd := hcs.add hlen hfits hkey hlegible hm hrows hheld
    exact ⟨s', h.update hx' hs' hleaves (fun _ _ _ hne hs => hs.add_other hne hrows) ⟨_, hadd⟩⟩

theorem Mirrored.del (h : Mirrored a id st s) (hm : c.isManual l = false)
    (hfaithful : (CondOp.del l k c).Faithful a st)
    (hrows : sceneCondDelDb st.1 a l c st.2 = some rows')
    (hdel : sceneCondDel st.1 a l c = some (x', .noErr)) :
    ∃ s', Mirrored a id (x', rows') s' := by
  obtain ⟨e, p, d, s', hfind, hp, hd, hs', hleaves, hheld⟩ :=
    sceneCondDel_held h.indexed h.scene h.counted hm (hfaithful s h.scene hm) hdel
  obtain ⟨cs, hcs⟩ := h.kept l k
  rw [sceneCondDelDb, h.scene, bind_eq_bind, bind_some, hm,
    if_neg Bool.false_ne_true, hfind] at hrows
  dsimp only at hrows
  rw [hp, bind_eq_bind, bind_some, hd, bind_eq_bind, bind_some,
    h.acSceneId] at hrows
  refine ⟨s', h.update (sceneCondDel_indexed h.indexed hdel) hs' hleaves
    (fun _ _ _ hne hs => hs.del_other hne hrows) ⟨_, hcs.filter (hcs.shows.del hrows) ?_⟩⟩
  have hperm := hcs.perm.filter fun b => ¬ b.identity = d.stCond.identity
  rw [hheld]
  refine .trans (.of_eq ?_) hperm
  rw [List.filter_map]
  refine congrArg (List.map _) (filter_congr fun b _ => ?_)
  simp only [Function.comp_apply, sameId_iff, identity_passed]

theorem Mirrored.clear (h : Mirrored a id st s)
    (hrows : sceneCondClearDb st.1 a l k st.2 = some rows')
    (hclear : sceneCondClear st.1 a l k = some x') : ∃ s', Mirrored a id (x', rows') s' := by
  obtain ⟨s', hs', hleaves, hheld⟩ := sceneCondClear_held h.scene h.counted hclear
  obtain ⟨cs, hcs⟩ := h.kept l k
  rw [sceneCondClearDb, h.scene, bind_eq_bind, bind_some, h.acSceneId] at hrows
  obtain ⟨rows₁, hall, hlast⟩ := bind_eq_some_iff.mp hrows
  -- every condition of the list is named
  have hnil : cs.filter (fun d => ∀ c ∈ (s.list l k).conds, ¬ d.SameId c) = [] := by
    refine filter_eq_nil_iff.mpr fun d hd hnone => ?_
    have hmem : d.passed ∈ s.held l k := hcs.perm.subset (List.mem_map_of_mem hd)
    obtain ⟨q, hq, heq⟩ := List.mem_map.mp hmem
    have hcond : q.2 ∈ (s.list l k).conds := by
      rw [(h.counted l k).conds_eq]
      exact List.mem_map_of_mem hq
    refine of_decide_eq_true hnone q.2 hcond (sameId_iff.mpr ?_)
    rw [← identity_passed d, ← heq, identity_passed]
  have hshows : Shows id l k rows₁ ([] : List (Cond k)) := hnil ▸ hcs.shows.delAll hall
  have hempty : Kept id l k rows₁ (s'.held l k) ([] : List (Cond k)) :=
    ⟨hshows, by rw [hheld, map_nil], Nat.zero_le _, by simp, by simp, by simp, by simp⟩
  have hupdate : Mirrored a id (x', rows₁) s' :=
    h.update (sceneCondClear_indexed h.indexed hclear) hs' hleaves
      (fun _ _ _ hne hs => hs.delAll_other hne hall) ⟨[], hempty⟩
  -- and then the manual trigger
  split at hlast
  · refine ⟨s', hupdate.indexed, hupdate.scene, hupdate.acSceneId, hupdate.counted,
      fun l' k' => ?_⟩
    obtain ⟨cs', hcs'⟩ := hupdate.kept l' k'
    have hm : isManual .or (k := .event) manualCond = true := by decide
    exact ⟨cs', hcs'.left (hcs'.shows.del_manual hcs'.notManual hm hlast)⟩
  · obtain rfl := some.inj hlast
    exact ⟨s', hupdate⟩

theorem Mirrored.step {op : CondOp} (h : Mirrored a id st s) (hfits : op.Fits)
    (hfaithful : op.Faithful a st) (hstep : CondOp.step a st op = some (st', os))
    (hok : ∀ r ∈ os, r = .noErr) : ∃ s', Mirrored a id st' s' := by
  cases op with
  | add l k c =>
    obtain ⟨rows', hrows, hstep⟩ := bind_eq_some_iff.mp hstep
    obtain ⟨⟨x', r⟩, hadd, hstep⟩ := bind_eq_some_iff.mp hstep
    obtain ⟨rfl, rfl⟩ := Prod.mk.inj (some.inj hstep)
    obtain rfl : r = .noErr := hok r (mem_singleton_self r)
    cases hm : c.isManual l with
    | false => exact h.add hm hfits.2 hfits.1 hfaithful hrows hadd
    | true =>
      have hflag := hfaithful s h.scene
      rw [if_pos hm] at hflag
      rw [sceneCondAdd_manual h.scene hm] at hadd
      obtain ⟨rfl, -⟩ := Prod.mk.inj (some.inj hadd)
      rw [sceneCondAddDb, h.scene, bind_eq_bind, bind_some, if_pos hm,
        if_pos hflag] at hrows
      obtain rfl := some.inj hrows
      exact ⟨_, h.setManual true fun _ _ _ _ hs => hs⟩
  | del l k c =>
    obtain ⟨rows', hrows, hstep⟩ := bind_eq_some_iff.mp hstep
    obtain ⟨⟨x', r⟩, hdel, hstep⟩ := bind_eq_some_iff.mp hstep
    obtain ⟨rfl, rfl⟩ := Prod.mk.inj (some.inj hstep)
    obtain rfl : r = .noErr := hok r (mem_singleton_self r)
    cases hm : c.isManual l with
    | false => exact h.del hm hfaithful hrows hdel
    | true =>
      rcases sceneCondDel_cases hdel with ⟨-, t, ht, rfl⟩ | ⟨hm', -⟩
      · obtain rfl := some.inj (h.scene.symm.trans ht)
        rw [sceneCondDelDb, h.scene, bind_eq_bind, bind_some, if_pos hm,
          h.acSceneId] at hrows
        refine ⟨_, h.setManual false fun l' k' cs' hnot hs => ?_⟩
        split at hrows
        · exact hs.del_manual hnot hm hrows
        · obtain rfl := some.inj hrows
          exact hs
      · rw [hm] at hm'
        cases hm'
  | clear l k =>
    obtain ⟨rows', hrows, hstep⟩ := bind_eq_some_iff.mp hstep
    obtain ⟨x', hclear, hstep⟩ := bind_eq_some_iff.mp hstep
    obtain ⟨rfl, -⟩ := Prod.mk.inj (some.inj hstep)
    exact h.clear hrows hclear

/-! ## Runs -/

/-- Every list of the scene is read back from the table. -/
def ReadsBack (s : SceneInfo) (rows : List CondRow) : Prop :=
  ∀ l k, ∃ ds, condGetListDb s.acSceneId l k rows condMaxNum = some ds ∧
    (ds.map Cond.passed).Perm ((s.list l k).conds.map Cond.passed)

theorem Mirrored.readsBack (h : Mirrored a id st s) : ReadsBack s st.2 := by
  intro l k
  obtain ⟨cs, hcs⟩ := h.kept l k
  obtain ⟨ds, hread, hds⟩ := hcs.shows.read hcs.room hcs.keyFits hcs.fits hcs.legible
  refine ⟨ds, h.acSceneId ▸ hread, ?_⟩
  rw [hds, (h.counted l k).conds_eq, List.map_map]
  exact hcs.perm

theorem mirrored_empty (hx : Indexed x) (hs : x.scene? a = some s)
    (hempty : ∀ l k, (s.list l k).counts = (0, [])) (hrows : ∀ row ∈ rows, row.id ≠ s.acSceneId) :
    Mirrored a s.acSceneId (x, rows) s := by
  refine ⟨hx, hs, rfl, fun l k => counted_iff.mpr (by rw [hempty]; rfl), fun l k => ?_⟩
  have hheld : s.held l k = [] := by
    have hsets : (s.list l k).stList = [] :=
      map_eq_nil_iff.mp (congrArg Prod.snd (hempty l k))
    rw [held, entries, hsets]
    rfl
  have hshows : Shows s.acSceneId l k rows ([] : List (Cond k)) := by
    refine filter_eq_nil_iff.mpr fun row hrow hof => hrows row hrow ?_
    rw [CondRow.isOf, decide_eq_true_eq] at hof
    exact hof.1
  exact ⟨[], hshows, by rw [hheld, map_nil], Nat.zero_le _, by simp, by simp, by simp,
    by simp⟩

theorem run_mirrored {ops : List CondOp} (h : Mirrored a id st s)
    (hrun : Run.run (CondOp.step a) st ops = some (st', os)) (hok : ∀ r ∈ os, r = .noErr)
    (hfits : ∀ op ∈ ops, op.Fits)
    (hfaithful : Run.Along (CondOp.step a) (CondOp.Faithful a) st ops) :
    ∃ s', Mirrored a id st' s' := by
  induction ops generalizing st s os with
  | nil =>
    obtain ⟨rfl, -⟩ := Prod.mk.inj (some.inj hrun)
    exact ⟨s, h⟩
  | cons op ops ih =>
    obtain ⟨st₁, os₁, os', hstep, hrest, rfl⟩ := Run.run_cons.mp hrun
    obtain ⟨hop, hops⟩ := forall_mem_cons.mp hfits
    obtain ⟨hok₁, hok'⟩ := forall_mem_append.mp hok
    obtain ⟨s₁, hs₁⟩ := h.step hop hfaithful.1 hstep hok₁
    exact ih hs₁ hrest hok' hops (hfaithful.2 _ hstep)

theorem CondOp.faithful_new (hs : st.1.scene? a = some s) (hm : c.isManual l = false)
    (hlegible : c.Legible) (hnone : ptrHashFind st.1.pHashTable c.hashKey s.acSceneId = none)
    (hroom : (s.list l k).conds.length < condMaxNum) : (CondOp.add l k c).Faithful a st := by
  intro t ht
  obtain rfl := some.inj (hs.symm.trans ht)
  rw [hm, if_neg Bool.false_ne_true]
  refine ⟨hlegible, fun e he => ?_, fun _ => hroom⟩
  rw [hnone] at he
  cases he

namespace Sample

/-- An event, last seen with `last`, and a time. -/
def condOps (last : CText) : List CondOp :=
  [.add .or .event (eventCond ['k'] last), .add .and .time (timeCond ['t'] ['0'] ['5'])]

/-- What the operations leave, of a scene that has nothing yet. -/
def stored (ops : List CondOp) : SceneList × List CondRow :=
  ((Run.run (CondOp.step 0) ((engineAfter emptyRun).list, []) ops).map Prod.fst).getD (.init, [])

theorem condOps_fits (last : CText) (h : last.length ≤ valueMaxLen) :
    ∀ op ∈ condOps last, op.Fits := by
  have hevent : EventCond.Fits (eventCond ['k'] last) := by
    obtain ⟨htype, htime, hvalue, hactive, -⟩ : EventCond.Fits lamp := lamp_fits
    exact ⟨htype, htime, hvalue, hactive, h⟩
  have htime : TimeCond.Fits (timeCond ['t'] ['0'] ['5']) :=
    ⟨by decide, by decide, by decide, by decide, by decide, by decide, by decide, by decide⟩
  intro op hop
  rcases mem_cons.mp hop with rfl | hop
  · exact ⟨⟨Nat.le_of_ble_eq_true rfl, Nat.le_of_ble_eq_true rfl⟩, hevent⟩
  · obtain rfl := mem_singleton.mp hop
    exact ⟨Nat.le_of_ble_eq_true rfl, htime⟩

theorem emptyRun_empty (l : Logic) (k : Kind) :
    ((scene (engineAfter emptyRun).list).list l k).counts = (0, []) := by
  cases l <;> cases k <;> decide

theorem run_emptyRun : Run.run Engine.step .init emptyRun =
    some (engineAfter emptyRun, effectsOf emptyRun) := by decide

theorem condOps_faithful : Run.Along (CondOp.step 0) (CondOp.Faithful 0)
    ((engineAfter emptyRun).list, []) (condOps ['5']) := by
  refine ⟨CondOp.faithful_new (s := scene (engineAfter emptyRun).list) (by decide) (by decide)
    ⟨by decide, by decide⟩ (by decide) (by decide), fun x hx => ⟨?_, fun _ _ => trivial⟩⟩
  have hstep : CondOp.step 0 ((engineAfter emptyRun).list, [])
      (.add .or .event (eventCond ['k'] ['5'])) =
        some (stored [.add .or .event (eventCond ['k'] ['5'])], [.noErr]) := by decide
  obtain rfl := some.inj (hstep.symm.trans hx)
  exact CondOp.faithful_new (k := .time) (l := .and)
    (s := scene (stored [.add .or .event (eventCond ['k'] ['5'])]).1) (by decide) (by decide)
    (show TimeCond.acTimeKey _ ≠ [] by decide) (by decide) (by decide)

end Sample

end Honyar.LocalScene
