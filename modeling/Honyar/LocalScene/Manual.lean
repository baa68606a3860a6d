import Honyar.LocalScene.CondStore
import Honyar.LocalScene.Filing

/-!
# The manual trigger and its row

A condition with the key `Manual` is no node of a list: an addition sets a flag of the scene and
inserts a row, a deletion clears the flag and deletes the row of its own `DevId`, and a clearing
deletes the row of sixteen zeros and leaves the flag.  What the three operations do to flag and
rows is a machine of its own (`OrOp.next`), beside which ordinary conditions, the lists and the
other scenes do not matter.
-/

namespace Honyar.LocalScene

open CText Option List SceneList SceneInfo CondRow CondList

/-! ## The operations -/

/-- A call for the `Or` list of events of a scene, with the address of the scene. -/
inductive OrOp where
  | add (a : Nat) (c : EventCond)
  | del (a : Nat) (c : EventCond)
  | clear (a : Nat) (iClearDbFlag : Int)

/-- The scene that is meant. -/
def OrOp.scene : OrOp → Nat
  | .add a _ => a
  | .del a _ => a
  | .clear a _ => a

/-- `scene_event_or_cond_add`, `_del` and `_clear`, in memory and in the table. -/
def OrOp.step (st : SceneList × List CondRow) :
    OrOp → Option ((SceneList × List CondRow) × List ErrNo)
  | .add a c => CondOp.step a st (@CondOp.add .or .event c)
  | .del a c => CondOp.step a st (@CondOp.del .or .event c)
  | .clear a iClearDbFlag =>
    if iClearDbFlag = 1 then CondOp.step a st (.clear .or .event)
    else do
      let x ← sceneCondClear st.1 a .or .event
      return ((x, st.2), [.noErr])

/-! ## The row -/

/-- A row of the manual trigger of a scene. -/
def CondRow.isManual (id : CText) (row : CondRow) : Bool :=
  row.isOf id .or .event ∧ row.key = some jsonValueKeyManual

/-- The rows of the manual trigger of a scene. -/
def manualRows (id : CText) (rows : List CondRow) : List CondRow :=
  rows.filter (CondRow.isManual id)

variable {id id' : CText} {rows rows' : List CondRow} {c d : EventCond}

theorem EventCond.isManual_iff : c.isManual = true ↔ c.acKey = jsonValueKeyManual := by
  have hkey : jsonValueKeyManual.take keyMaxLen = jsonValueKeyManual := by decide
  rw [isManual, strncmpEq_iff, hkey]
  constructor
  · intro h
    have hlen := congrArg List.length h
    have hshort : c.acKey.length ≤ keyMaxLen := by
      simp only [length_take, jsonValueKeyManual, keyMaxLen, length_cons,
        length_nil] at hlen ⊢
      omega
    rwa [take_of_length_le hshort] at h
  · intro h
    rw [h, hkey]

theorem Cond.isManual_or (c : EventCond) : Cond.isManual .or (k := .event) c = c.isManual := rfl

theorem CondRow.isManual_iff {row : CondRow} :
    row.isManual id = true ↔ row.isOf id .or .event = true ∧ row.key = some jsonValueKeyManual := by
  rw [isManual, decide_eq_true_eq]

theorem CondRow.isManual_of_isFor {row : CondRow} (hrow : row.isManual id = true)
    (hof : row.isOf id' .or .event = true) (hfor : @CondRow.isFor .event c row = true) :
    id' = id ∧ c.isManual = true := by
  obtain ⟨hof', hkey⟩ := isManual_iff.mp hrow
  rw [isOf, decide_eq_true_eq] at hof hof'
  rw [isFor, decide_eq_true_eq] at hfor
  refine ⟨hof.1.symm.trans hof'.1, EventCond.isManual_iff.mpr ?_⟩
  exact some.inj (hfor.2.symm.trans hkey)

theorem CondRow.isManual_row :
    (@Cond.row id' .or .event c).isManual id = true ↔ id' = id ∧ c.isManual = true := by
  rw [isManual_iff, isOf_row, EventCond.isManual_iff]
  constructor
  · rintro ⟨⟨hid, -, -⟩, hkey⟩
    exact ⟨hid, some.inj hkey⟩
  · rintro ⟨hid, hkey⟩
    exact ⟨⟨hid, rfl, rfl⟩, congrArg some hkey⟩

/-! ## Statements about other rows -/

theorem manualRows_add (hother : ¬ (id' = id ∧ c.isManual = true))
    (h : @condAddDb .event id' .or c rows = some rows') :
    manualRows id rows' = manualRows id rows := by
  rw [statement_eq h, manualRows, filter_append, filter_singleton,
    Bool.eq_false_iff.mpr fun hrow => hother (isManual_row.mp hrow)]
  exact append_nil _

theorem manualRows_set (hother : ¬ (id' = id ∧ c.isManual = true))
    (h : @condSetDb .event id' .or c rows = some rows') :
    manualRows id rows' = manualRows id rows := by
  rw [statement_eq h, manualRows, manualRows]
  set change : CondRow → CondRow := fun row =>
    if row.isOf id' .or .event = true ∧ @CondRow.isFor .event c row = true then
      @CondRow.set .event c row
    else row with hchange
  have hsame (row : CondRow) : (change row).isManual id = row.isManual id := by
    rw [hchange]
    dsimp only
    split <;> rfl
  have hfilter : (rows.map change).filter (isManual id) =
      (rows.filter (isManual id)).map change := by
    rw [List.filter_map]
    exact congrArg (List.map change) (filter_congr fun row _ => hsame row)
  refine hfilter.trans ((map_congr_left fun row hrow => if_neg fun h => ?_).trans
    (List.map_id _))
  exact hother (isManual_of_isFor (mem_filter.mp hrow).2 h.1 h.2)

theorem manualRows_del (hother : ¬ (id' = id ∧ c.isManual = true))
    (h : @condDelDb .event id' .or c rows = some rows') :
    manualRows id rows' = manualRows id rows := by
  rw [statement_eq h, manualRows, filter_comm]
  refine filter_eq_self.mpr fun row hrow => decide_eq_true fun h => ?_
  exact hother (isManual_of_isFor (mem_filter.mp hrow).2 h.1 h.2)

theorem manualRows_delAll {cs : List EventCond}
    (hother : ∀ c ∈ cs, ¬ (id' = id ∧ c.isManual = true))
    (h : cs.foldlM (fun rows c => @condDelDb .event id' .or c rows) rows = some rows') :
    manualRows id rows' = manualRows id rows := by
  induction cs generalizing rows with
  | nil =>
    obtain rfl : rows = rows' := some.inj h
    rfl
  | cons c cs ih =>
    rw [foldlM_cons] at h
    obtain ⟨rows₁, hc, hrest⟩ := bind_eq_some_iff.mp h
    obtain ⟨hhead, htail⟩ := forall_mem_cons.mp hother
    exact (ih htail hrest).trans (manualRows_del hhead hc)

theorem manualRows_del_self (hm : c.isManual = true)
    (h : @condDelDb .event id .or c rows = some rows') :
    manualRows id rows' = (manualRows id rows).filter (·.devId ≠ some c.acDevId) := by
  rw [statement_eq h, manualRows, filter_comm]
  refine filter_congr fun row hrow => decide_eq_decide.mpr (not_congr ?_)
  obtain ⟨hof, hkey⟩ := isManual_iff.mp (mem_filter.mp hrow).2
  rw [isFor, decide_eq_true_eq, hkey, EventCond.isManual_iff.mp hm]
  exact ⟨fun h => h.2.1, fun h => ⟨hof, h, rfl⟩⟩

/-! ## The other scenes -/

section

variable {l : Logic} {k : Kind} {x x' : SceneList} {a b : Nat} {r : ErrNo} {e : PtrNode}

theorem scene?_condTrueInit_of_ne {t : Bool} (h : x.condTrueInit k e t = some x')
    (hne : b ≠ e.pstScene) : x'.scene? b = x.scene? b := by
  simp only [SceneList.condTrueInit, bind_eq_bind, bind_eq_some_iff,
    Option.pure_def, some.injEq] at h
  obtain ⟨p, -, s, -, s', -, rfl⟩ := h
  exact SceneList.scene?_setScene_of_ne hne _

theorem scene?_fileCond_of_ne {c : Cond k} (hx : Indexed x)
    (h : fileCond x a l c = some (x', r, e)) (hne : b ≠ a) :
    e.pstScene = a ∧ x'.scene? b = x.scene? b := by
  cases hs : x.scene? a with
  | none =>
    rw [fileCond, hs] at h
    cases h
  | some s =>
    rcases fileCond_cases hs h with ⟨p, t, d, hfind, -, ht, -, -, rfl⟩ |
      ⟨z, p, -, -, -, rfl, rfl⟩ | ⟨-, -, -, rfl, rfl⟩
    · have ha := hx.pstScene_eq hs hfind ht
      exact ⟨ha, scene?_setScene_of_ne (ha ▸ hne) _⟩
    · exact ⟨rfl, scene?_setScene_of_ne hne _⟩
    · exact ⟨rfl, rfl⟩

theorem scene?_sceneCondAdd_of_ne {c : Cond k} (hx : Indexed x)
    (h : sceneCondAdd x a l c = some (x', r)) (hne : b ≠ a) : x'.scene? b = x.scene? b := by
  rcases sceneCondAdd_cases h with ⟨-, s, -, rfl⟩ | ⟨-, x₁, e, hfile, hrest⟩
  · exact scene?_setScene_of_ne hne _
  · obtain ⟨ha, hscene⟩ := scene?_fileCond_of_ne hx hfile hne
    rcases hrest with ⟨-, rfl⟩ | ⟨-, ⟨t, htrue⟩ | ⟨s, -, rfl⟩⟩
    · exact hscene
    · exact (scene?_condTrueInit_of_ne htrue (ha ▸ hne)).trans hscene
    · exact (scene?_setScene_of_ne hne _).trans hscene

theorem scene?_sceneCondDel_of_ne {c : Cond k} (h : sceneCondDel x a l c = some (x', r))
    (hne : b ≠ a) : x'.scene? b = x.scene? b := by
  rcases sceneCondDel_cases h with ⟨-, s, -, rfl⟩ | ⟨-, hdel⟩
  · exact scene?_setScene_of_ne hne _
  · obtain ⟨s, hs, -⟩ := bind_eq_some_iff.mp hdel
    obtain ⟨-, -, rfl⟩ | ⟨e, p, s₁, s', -, -, -, -, -, -, rfl⟩ := condDel_eq_some hs hdel
    · rfl
    · exact scene?_setScene_of_ne hne _

theorem sceneCondClear_eq (h : sceneCondClear x a l k = some x') :
    ∃ s, x.scene? a = some s ∧ x'.stList = (x.setScene a (s.setList l k
      { (s.list l k).clear with iCount := 0, uiCondSetTrue := 0 })).stList := by
  have hclear : condClear x a l k = some x' := by cases l <;> cases k <;> exact h
  obtain ⟨s, hs, -, rfl⟩ := condClear_eq_some hclear
  exact ⟨s, hs, rfl⟩

theorem scene?_sceneCondClear_of_ne (h : sceneCondClear x a l k = some x') (hne : b ≠ a) :
    x'.scene? b = x.scene? b := by
  obtain ⟨s, -, hlist⟩ := sceneCondClear_eq h
  rw [scene?, hlist]
  exact scene?_setScene_of_ne hne _

end

/-! ## Flag and rows -/

/-- What an operation does to the flag of a scene and to the rows of its manual trigger. -/
def OrOp.next (a : Nat) (id : CText) (m : Bool × List CondRow) : OrOp → Bool × List CondRow
  | .add b c =>
    if b = a ∧ c.isManual = true ∧ m.1 = false then
      (true, m.2 ++ [@Cond.row id .or .event c])
    else m
  | .del b c =>
    if b = a ∧ c.isManual = true ∧ m.1 = true then
      (false, m.2.filter (·.devId ≠ some c.acDevId))
    else m
  | .clear b iClearDbFlag =>
    if b = a ∧ iClearDbFlag = 1 ∧ m.1 = true then
      (true, m.2.filter (·.devId ≠ some manualCond.acDevId))
    else m

/-- The scene has events in its `Or` list only, and none of them is the manual trigger. -/
structure Plain (a : Nat) (id : CText) (x : SceneList) (s : SceneInfo) : Prop where
  indexed : Indexed x
  scene : x.scene? a = some s
  acSceneId : s.acSceneId = id
  and : (s.list .and .event).entries = []
  or : ∀ q ∈ (s.list .or .event).entries, EventCond.isManual q.2 = false

/-- The flag and the rows. -/
def manualState (s : SceneInfo) (rows : List CondRow) : Bool × List CondRow :=
  (s.cManualTriggerFlag, manualRows s.acSceneId rows)

section

variable {a b : Nat} {x x' : SceneList} {s s' t : SceneInfo} {st st' : SceneList × List CondRow}
variable {os : List ErrNo} {r : ErrNo}

theorem Indexed.acSceneId_ne (hx : Indexed x) (hs : x.scene? a = some s)
    (ht : x.scene? b = some t) (hne : b ≠ a) : t.acSceneId ≠ s.acSceneId := by
  intro heq
  refine hne (congrArg SceneNode.addr (Keyed.eq_of_key_eq hx.ids (mem_of_scene? ht)
    (mem_of_scene? hs) ?_))
  exact congrArg (List.take indexMaxLen) heq

theorem Plain.setManual (h : Plain a id x s) (t : Bool) :
    Plain a id (x.setScene a { s with cManualTriggerFlag := t })
      { s with cManualTriggerFlag := t } where
  indexed := setManual_indexed h.indexed h.scene t
  scene := scene?_setScene_self h.scene _
  acSceneId := h.acSceneId
  and := by
    rw [list_setManual]
    exact h.and
  or := by
    rw [list_setManual]
    exact h.or

theorem Plain.node (h : Plain a id x s) {p : CondPtr .event} {d : CondNode .event}
    (hd : s.node? p = some d) :
    p.acLogic = .or ∧ EventCond.isManual d.stCond = false := by
  have hchained := (h.indexed.placed _ (mem_of_scene? h.scene)).chained
  have hmem : (p, d.stCond) ∈ (s.list p.acLogic .event).entries :=
    (mem_entries_iff hchained).mpr ⟨rfl, d, hd, rfl⟩
  cases hl : p.acLogic with
  | and =>
    rw [hl, h.and] at hmem
    cases hmem
  | or =>
    rw [hl] at hmem
    exact ⟨rfl, h.or _ hmem⟩

theorem Plain.add (h : Plain a id x s) (hm : c.isManual = false)
    (hadd : sceneCondAdd x a .or (k := .event) c = some (x', r)) :
    ∃ s', Plain a id x' s' ∧ s'.cManualTriggerFlag = s.cManualTriggerFlag := by
  have hm' : Cond.isManual .or (k := .event) c = false := hm
  obtain ⟨s', hs', hid, hflag, -, hcases⟩ := sceneCondAdd_entries h.indexed h.scene hm' hadd
  have hne : ¬ (Logic.and = Logic.or ∧ Kind.event = Kind.event) := fun h => by cases h.1
  have hkeys := (sceneCondAdd_others h.indexed h.scene hm' hadd hs' hne).1
  refine ⟨s', ⟨sceneCondAdd_indexed h.indexed hadd, hs', hid.trans h.acSceneId, ?_, ?_⟩, hflag⟩
  · rw [SceneInfo.keys, SceneInfo.keys, h.and] at hkeys
    exact map_eq_nil_iff.mp hkeys
  · rcases hcases with ⟨e, p, -, -, -, -, -, hentries⟩ | ⟨e, p, -, -, -, -, -, -, -, hperm⟩ |
      ⟨-, -, -, -, -, -, -, rfl⟩
    · intro q hq
      rw [hentries] at hq
      obtain ⟨q', hq', rfl⟩ := List.mem_map.mp hq
      split
      · exact h.or q' hq'
      · exact h.or q' hq'
    · intro q hq
      rcases mem_cons.mp (hperm.mem_iff.mp hq) with rfl | hq
      · exact hm
      · exact h.or q hq
    · exact h.or

theorem SceneInfo.node?_of_condDel {l : Logic} {k : Kind} {p : CondPtr k}
    (h : s.condDel l p = some s') : ∃ d, s.node? p = some d := by
  obtain ⟨n, hn, h⟩ := bind_eq_some_iff.mp h
  obtain ⟨d, hd, -⟩ := bind_eq_some_iff.mp h
  exact ⟨d, by rw [node?, hn]; exact hd⟩

theorem SceneInfo.cManualTriggerFlag_condDel {k : Kind} {p : CondPtr k}
    (h : s.condDel p.acLogic p = some s') : s'.cManualTriggerFlag = s.cManualTriggerFlag := by
  obtain ⟨n, d, -, -, ⟨-, rfl⟩ | ⟨-, rfl⟩⟩ := condDel_cases h
  · exact cManualTriggerFlag_setList ..
  · exact cManualTriggerFlag_setList ..

theorem Plain.del (h : Plain a id x s) (hm : c.isManual = false)
    (hdel : sceneCondDel x a .or (k := .event) c = some (x', r)) :
    ∃ s', Plain a id x' s' ∧ s'.cManualTriggerFlag = s.cManualTriggerFlag := by
  have hx' := sceneCondDel_indexed h.indexed hdel
  rcases sceneCondDel_cases hdel with ⟨hm', -⟩ | ⟨-, hdel⟩
  · rw [Cond.isManual_or, hm] at hm'
    cases hm'
  obtain ⟨-, -, rfl⟩ | ⟨e, p, s₁, s₂, -, -, -, hcut, htrue, -, rfl⟩ :=
    condDel_eq_some h.scene hdel
  · exact ⟨s, h, rfl⟩
  · have hplaced := h.indexed.placed _ (mem_of_scene? h.scene)
    obtain ⟨d, hd⟩ := SceneInfo.node?_of_condDel hcut
    have hl := (h.node hd).1
    rw [← hl] at hcut
    obtain ⟨hentries, hothers⟩ := SceneInfo.condDel_entries hplaced hcut
    have htruth := SceneInfo.condDelTrue_eraseTruth htrue
    have hwords (l : Logic) : (s₂.list l .event).entries = (s₁.list l .event).entries :=
      (entries_of_eraseTruth_eq htruth).1
    refine ⟨s₂, ⟨hx', scene?_setScene_self h.scene _, ?_, ?_, ?_⟩, ?_⟩
    · exact (congrArg SceneInfo.acSceneId htruth).trans
        ((SceneInfo.condDel_shrinks hplaced hcut).1.acSceneId.trans h.acSceneId)
    · rw [hwords, hothers .and .event (by rw [hl]; exact fun h => by cases h.1)]
      exact h.and
    · rw [hwords, ← hl, hentries, hl]
      exact fun q hq => h.or q (mem_of_mem_filter hq)
    · have hflag : s₂.cManualTriggerFlag = s₁.cManualTriggerFlag :=
        show s₂.eraseTruth.cManualTriggerFlag = s₁.eraseTruth.cManualTriggerFlag by rw [htruth]
      exact hflag.trans (SceneInfo.cManualTriggerFlag_condDel hcut)

theorem Plain.clear (h : Plain a id x s) (hclear : sceneCondClear x a .or .event = some x') :
    ∃ s', Plain a id x' s' ∧ s'.cManualTriggerFlag = s.cManualTriggerFlag := by
  obtain ⟨t, ht, hlist⟩ := sceneCondClear_eq hclear
  obtain rfl := some.inj (h.scene.symm.trans ht)
  set y : CondList .or .event :=
    { (s.list .or .event).clear with iCount := 0, uiCondSetTrue := 0 }
  refine ⟨s.setList .or .event y, ⟨sceneCondClear_indexed h.indexed hclear, ?_,
    (acSceneId_setList ..).trans h.acSceneId, ?_, ?_⟩,
    cManualTriggerFlag_setList ..⟩
  · rw [scene?, hlist]
    exact scene?_setScene_self h.scene _
  · rw [list_setList_of_ne _ _ fun h => by cases h.1]
    exact h.and
  · rw [list_setList_self]
    intro q hq
    obtain ⟨n, hn, c, hc, rfl⟩ := mem_entries.mp hq
    exact h.or _ (mem_entries.mpr ⟨n, mem_of_mem_drop hn, c, hc, rfl⟩)

theorem Plain.conds (h : Plain a id x s) {c : EventCond}
    (hc : c ∈ (s.list .or .event).conds) : c.isManual = false := by
  obtain ⟨n, hn, hc⟩ := mem_flatMap.mp hc
  obtain ⟨d, hd, rfl⟩ := List.mem_map.mp hc
  have hn' : n ∈ (s.list .or .event).stList := by
    rw [walk] at hn
    split at hn
    · cases hn
    · exact hn
  exact h.or _ (mem_entries.mpr ⟨n, hn', d, hd, rfl⟩)

/-! ## One operation -/

theorem Plain.step_add (h : Plain a id st.1 s) (hstep : (OrOp.add b c).step st = some (st', os)) :
    ∃ s', Plain a id st'.1 s' ∧
      manualState s' st'.2 = (OrOp.add b c).next a id (manualState s st.2) := by
  obtain ⟨rows', hrows, hstep⟩ := bind_eq_some_iff.mp hstep
  obtain ⟨⟨x', r⟩, hadd, hstep⟩ := bind_eq_some_iff.mp hstep
  obtain ⟨rfl, -⟩ := Prod.mk.inj (some.inj hstep)
  obtain ⟨t, ht, hrows⟩ := bind_eq_some_iff.mp hrows
  rw [OrOp.next, manualState, h.acSceneId]
  -- a statement that is not about the trigger of the scene
  have hrest (hother : ¬ (t.acSceneId = id ∧ c.isManual = true)) :
      manualRows id rows' = manualRows id st.2 := by
    split at hrows
    · split at hrows
      · rw [some.inj hrows]
      · exact manualRows_add hother hrows
    · split at hrows
      · exact manualRows_set hother hrows
      · split at hrows
        · rw [some.inj hrows]
        · exact manualRows_add hother hrows
  by_cases hb : b = a
  · subst hb
    obtain rfl := some.inj (h.scene.symm.trans ht)
    cases hm : c.isManual with
    | false =>
      obtain ⟨s', hs', hflag⟩ := h.add hm hadd
      refine ⟨s', hs', ?_⟩
      rw [manualState, if_neg (fun hc => Bool.false_ne_true hc.2.1), hs'.acSceneId, hflag,
        hrest fun hc => Bool.false_ne_true (hm ▸ hc.2)]
    | true =>
      have hm' : Cond.isManual .or (k := .event) c = true := hm
      rw [sceneCondAdd_manual h.scene hm'] at hadd
      obtain ⟨rfl, -⟩ := Prod.mk.inj (some.inj hadd)
      refine ⟨_, h.setManual true, ?_⟩
      rw [manualState, (h.setManual true).acSceneId]
      rw [if_pos hm'] at hrows
      cases hflag : s.cManualTriggerFlag with
      | true =>
        rw [hflag, if_pos rfl] at hrows
        rw [if_neg (fun hc => Bool.false_ne_true hc.2.2.symm), some.inj hrows]
      | false =>
        rw [hflag, if_neg Bool.false_ne_true, h.acSceneId] at hrows
        rw [if_pos ⟨rfl, rfl, rfl⟩, statement_eq hrows, manualRows, filter_append,
          filter_singleton, isManual_row.mpr ⟨rfl, hm⟩]
        rfl
  · refine ⟨s, ⟨sceneCondAdd_indexed h.indexed hadd, ?_, h.acSceneId, h.and, h.or⟩, ?_⟩
    · exact (scene?_sceneCondAdd_of_ne h.indexed hadd (Ne.symm hb)).trans h.scene
    · have hid := h.indexed.acSceneId_ne h.scene ht hb
      rw [manualState, if_neg fun hc => hb hc.1, h.acSceneId,
        hrest fun hc => hid (hc.1.trans h.acSceneId.symm)]

theorem Plain.step_del (h : Plain a id st.1 s) (hstep : (OrOp.del b c).step st = some (st', os)) :
    ∃ s', Plain a id st'.1 s' ∧
      manualState s' st'.2 = (OrOp.del b c).next a id (manualState s st.2) := by
  obtain ⟨rows', hrows, hstep⟩ := bind_eq_some_iff.mp hstep
  obtain ⟨⟨x', r⟩, hdel, hstep⟩ := bind_eq_some_iff.mp hstep
  obtain ⟨rfl, -⟩ := Prod.mk.inj (some.inj hstep)
  obtain ⟨t, ht, hrows⟩ := bind_eq_some_iff.mp hrows
  rw [OrOp.next, manualState, h.acSceneId]
  by_cases hb : b = a
  · subst hb
    obtain rfl := some.inj (h.scene.symm.trans ht)
    cases hm : c.isManual with
    | false =>
      obtain ⟨s', hs', hflag⟩ := h.del hm hdel
      refine ⟨s', hs', ?_⟩
      have hm' : Cond.isManual .or (k := .event) c = false := hm
      rw [hm', if_neg Bool.false_ne_true] at hrows
      have hsame : manualRows id rows' = manualRows id st.2 := by
        split at hrows
        · obtain ⟨p, -, hrows⟩ := bind_eq_some_iff.mp hrows
          obtain ⟨d, hd, hrows⟩ := bind_eq_some_iff.mp hrows
          refine manualRows_del (fun hc => ?_) hrows
          exact Bool.false_ne_true ((h.node hd).2.symm.trans hc.2)
        · rw [some.inj hrows]
      rw [manualState, if_neg (fun hc => Bool.false_ne_true hc.2.1), hs'.acSceneId, hflag, hsame]
    | true =>
      have hm' : Cond.isManual .or (k := .event) c = true := hm
      rcases sceneCondDel_cases hdel with ⟨-, t, ht', rfl⟩ | ⟨hbad, -⟩
      · obtain rfl := some.inj (h.scene.symm.trans ht')
        refine ⟨_, h.setManual false, ?_⟩
        rw [manualState, (h.setManual false).acSceneId]
        rw [if_pos hm'] at hrows
        cases hflag : s.cManualTriggerFlag with
        | true =>
          rw [hflag, if_pos rfl, h.acSceneId] at hrows
          rw [if_pos ⟨rfl, rfl, rfl⟩, manualRows_del_self hm hrows]
        | false =>
          rw [hflag, if_neg Bool.false_ne_true] at hrows
          rw [if_neg (fun hc => Bool.false_ne_true hc.2.2), some.inj hrows]
      · rw [hm'] at hbad
        cases hbad
  · refine ⟨s, ⟨sceneCondDel_indexed h.indexed hdel, ?_, h.acSceneId, h.and, h.or⟩, ?_⟩
    · exact (scene?_sceneCondDel_of_ne hdel (Ne.symm hb)).trans h.scene
    · have hid : t.acSceneId ≠ id := h.acSceneId ▸ h.indexed.acSceneId_ne h.scene ht hb
      have hsame : manualRows id rows' = manualRows id st.2 := by
        split at hrows
        · split at hrows
          · exact manualRows_del (fun hc => hid hc.1) hrows
          · rw [some.inj hrows]
        · split at hrows
          · obtain ⟨p, -, hrows⟩ := bind_eq_some_iff.mp hrows
            obtain ⟨d, -, hrows⟩ := bind_eq_some_iff.mp hrows
            exact manualRows_del (fun hc => hid hc.1) hrows
          · rw [some.inj hrows]
      rw [manualState, if_neg fun hc => hb hc.1, h.acSceneId, hsame]

theorem Plain.step_clear {iClearDbFlag : Int} (h : Plain a id st.1 s)
    (hstep : (OrOp.clear b iClearDbFlag).step st = some (st', os)) :
    ∃ s', Plain a id st'.1 s' ∧
      manualState s' st'.2 = (OrOp.clear b iClearDbFlag).next a id (manualState s st.2) := by
  -- what memory keeps, whichever the flag
  have hmemory {x' : SceneList} (hclear : sceneCondClear st.1 b .or .event = some x') :
      ∃ s', Plain a id x' s' ∧ s'.cManualTriggerFlag = s.cManualTriggerFlag := by
    by_cases hb : b = a
    · subst hb
      exact h.clear hclear
    · refine ⟨s, ⟨sceneCondClear_indexed h.indexed hclear, ?_, h.acSceneId, h.and, h.or⟩, rfl⟩
      exact (scene?_sceneCondClear_of_ne hclear (Ne.symm hb)).trans h.scene
  rw [OrOp.next, manualState, h.acSceneId]
  by_cases hflagged : iClearDbFlag = 1
  · rw [OrOp.step, if_pos hflagged] at hstep
    obtain ⟨rows', hrows, hstep⟩ := bind_eq_some_iff.mp hstep
    obtain ⟨x', hclear, hstep⟩ := bind_eq_some_iff.mp hstep
    obtain ⟨rfl, -⟩ := Prod.mk.inj (some.inj hstep)
    obtain ⟨s', hs', hflag⟩ := hmemory hclear
    refine ⟨s', hs', ?_⟩
    rw [manualState, hs'.acSceneId, hflag]
    obtain ⟨t, ht, hrows⟩ := bind_eq_some_iff.mp hrows
    obtain ⟨rows₁, hall, hlast⟩ := bind_eq_some_iff.mp hrows
    by_cases hb : b = a
    · subst hb
      obtain rfl := some.inj (h.scene.symm.trans ht)
      have hloop : manualRows id rows₁ = manualRows id st.2 :=
        manualRows_delAll (fun c hc hbad => Bool.false_ne_true ((h.conds hc).symm.trans hbad.2))
          hall
      cases hmanual : s.cManualTriggerFlag with
      | true =>
        rw [if_pos ⟨rfl, rfl, hmanual⟩, h.acSceneId] at hlast
        have hm : manualCond.isManual = true := by decide
        rw [if_pos ⟨rfl, hflagged, rfl⟩, manualRows_del_self hm hlast, hloop]
      | false =>
        rw [hmanual, if_neg fun hc => Bool.false_ne_true hc.2.2] at hlast
        rw [if_neg fun hc => Bool.false_ne_true hc.2.2, ← some.inj hlast, hloop]
    · have hid : t.acSceneId ≠ id := h.acSceneId ▸ h.indexed.acSceneId_ne h.scene ht hb
      have hloop : manualRows id rows₁ = manualRows id st.2 :=
        manualRows_delAll (fun c _ hbad => hid hbad.1) hall
      have hsame : manualRows id rows' = manualRows id rows₁ := by
        split at hlast
        · exact manualRows_del (fun hc => hid hc.1) hlast
        · rw [some.inj hlast]
      rw [if_neg fun hc => hb hc.1, hsame, hloop]
  · rw [OrOp.step, if_neg hflagged] at hstep
    obtain ⟨x', hclear, hstep⟩ := bind_eq_some_iff.mp hstep
    obtain ⟨rfl, -⟩ := Prod.mk.inj (some.inj hstep)
    obtain ⟨s', hs', hflag⟩ := hmemory hclear
    refine ⟨s', hs', ?_⟩
    rw [manualState, hs'.acSceneId, hflag, if_neg fun hc => hflagged hc.2.1]

theorem Plain.step {op : OrOp} (h : Plain a id st.1 s) (hstep : op.step st = some (st', os)) :
    ∃ s', Plain a id st'.1 s' ∧ manualState s' st'.2 = op.next a id (manualState s st.2) := by
  cases op with
  | add b c => exact h.step_add hstep
  | del b c => exact h.step_del hstep
  | clear b iClearDbFlag => exact h.step_clear hstep

/-! ## Runs -/

/-- The flag of the scene is set exactly if the table has the row of its manual trigger. -/
def ManualAgrees (a : Nat) (st : SceneList × List CondRow) : Prop :=
  ∀ s, st.1.scene? a = some s →
    (s.cManualTriggerFlag = true ↔ ∃ row ∈ st.2, row.isManual s.acSceneId = true)

/-- While the flag is set, a deletion of the manual trigger names the `DevId` of its row, and a
clearing of the table finds a row with another `DevId` than the one it makes up. -/
def OrOp.KeepsManual (a : Nat) (st : SceneList × List CondRow) : OrOp → Prop
  | .add _ _ => True
  | .del b c => b = a → c.isManual = true → ∀ s, st.1.scene? a = some s →
      s.cManualTriggerFlag = true →
        ∀ row ∈ manualRows s.acSceneId st.2, row.devId = some c.acDevId
  | .clear b iClearDbFlag => b = a → iClearDbFlag = 1 → ∀ s, st.1.scene? a = some s →
      s.cManualTriggerFlag = true →
        ∃ row ∈ manualRows s.acSceneId st.2, row.devId ≠ some manualCond.acDevId

theorem manualAgrees_iff (hs : st.1.scene? a = some s) : ManualAgrees a st ↔
    ((manualState s st.2).1 = true ↔ (manualState s st.2).2 ≠ []) := by
  have hrows : (manualState s st.2).2 ≠ [] ↔ ∃ row ∈ st.2, row.isManual s.acSceneId = true := by
    rw [manualState, manualRows, Ne, filter_eq_nil_iff]
    simp
  rw [hrows]
  constructor
  · intro h
    exact h s hs
  · intro h t ht
    obtain rfl := some.inj (hs.symm.trans ht)
    exact h

theorem OrOp.next_agrees_iff {op : OrOp} (hs : st.1.scene? a = some s)
    (hagrees : (manualState s st.2).1 = true ↔ (manualState s st.2).2 ≠ []) :
    ((op.next a id (manualState s st.2)).1 = true ↔ (op.next a id (manualState s st.2)).2 ≠ []) ↔
      op.KeepsManual a st := by
  have hfilter (d : Option CText) : (manualRows s.acSceneId st.2).filter (·.devId ≠ d) = [] ↔
      ∀ row ∈ manualRows s.acSceneId st.2, row.devId = d := by
    rw [filter_eq_nil_iff]
    simp
  have hscene {P : SceneInfo → Prop} : (∀ t, st.1.scene? a = some t → P t) ↔ P s := by
    rw [hs]
    simp
  cases op with
  | add b c =>
    refine iff_of_true ?_ trivial
    rw [next]
    split
    · simp
    · exact hagrees
  | del b c =>
    rw [next, KeepsManual, hscene]
    split
    · rename_i hc
      obtain ⟨hb, hm, hflag⟩ := hc
      have hflag : s.cManualTriggerFlag = true := hflag
      simp only [hb, hm, hflag, Bool.false_eq_true, false_iff, not_not, true_implies]
      exact hfilter _
    · rename_i hc
      refine iff_of_true hagrees fun hb hm hflag => absurd ⟨hb, hm, hflag⟩ hc
  | clear b iClearDbFlag =>
    rw [next, KeepsManual, hscene]
    split
    · rename_i hc
      obtain ⟨hb, hone, hflag⟩ := hc
      have hflag : s.cManualTriggerFlag = true := hflag
      simp only [hb, hone, hflag, true_implies, true_iff]
      rw [Ne, manualState, hfilter]
      simp
    · rename_i hc
      refine iff_of_true hagrees fun hb hone hflag => absurd ⟨hb, hone, hflag⟩ hc

theorem plain_empty (hx : Indexed x) (hs : x.scene? a = some s)
    (hempty : ∀ l, (s.list l .event).counts = (0, [])) : Plain a s.acSceneId x s := by
  have hentries (l : Logic) : (s.list l .event).entries = [] := by
    have hsets : (s.list l .event).stList = [] :=
      map_eq_nil_iff.mp (congrArg Prod.snd (hempty l))
    rw [entries, hsets]
    rfl
  exact ⟨hx, hs, rfl, hentries .and, by rw [hentries]; simp⟩

/-- From a scene with no event and no row, flag and row of the manual trigger agree after every
call of a run exactly when every call keeps them so. -/
theorem manual_agrees_iff {y : Engine} {as : List Act} {fx : List Effect}
    (hstart : Run.run Engine.step .init as = some (y, fx)) {a : Nat} {s : SceneInfo}
    (hs : y.list.scene? a = some s) (hempty : ∀ l, (s.list l .event).counts = (0, []))
    (hflag : s.cManualTriggerFlag = false) {rows : List CondRow}
    (hrows : ∀ row ∈ rows, row.id ≠ s.acSceneId) {ops : List OrOp}
    {st' : SceneList × List CondRow} {os : List ErrNo}
    (hrun : Run.run OrOp.step (y.list, rows) ops = some (st', os)) :
    (∀ bs st ot, bs <+: ops → Run.run OrOp.step (y.list, rows) bs = some (st, ot) →
        ManualAgrees a st) ↔
      Run.Along OrOp.step (OrOp.KeepsManual a) (y.list, rows) ops := by
  have hplain := plain_empty (run_indexed hstart) hs hempty
  -- both parts of what a step leaves
  let R (st : SceneList × List CondRow) (_ : Unit) : Prop :=
    (∃ s', Plain a s.acSceneId st.1 s') ∧ ManualAgrees a st
  have hstep : ∀ st (t : Unit) op st' o, R st t → OrOp.step st op = some (st', o) →
      (R st' t ↔ op.KeepsManual a st) := by
    rintro st t op st' o ⟨⟨s₁, hs₁⟩, hagrees⟩ hop
    obtain ⟨s₂, hs₂, hnext⟩ := hs₁.step hop
    rw [manualAgrees_iff hs₁.scene] at hagrees
    rw [← OrOp.next_agrees_iff hs₁.scene hagrees, ← hnext, ← manualAgrees_iff hs₂.scene]
    exact and_iff_right ⟨s₂, hs₂⟩
  have hfirst : R (y.list, rows) () := by
    refine ⟨⟨s, hplain⟩, fun t ht => ?_⟩
    obtain rfl := some.inj (hs.symm.trans ht)
    rw [hflag]
    refine iff_of_false Bool.false_ne_true ?_
    rintro ⟨row, hrow, hmanual⟩
    have hof := (CondRow.isManual_iff.mp hmanual).1
    rw [CondRow.isOf, decide_eq_true_eq] at hof
    exact hrows row hrow hof.1
  rw [← Run.tracks_iff_along (t := ()) (fun t _ => t) hstep hfirst hrun]
  constructor
  · intro h bs st ot hbs hst
    refine ⟨?_, h bs st ot hbs hst⟩
    refine Run.run_preserves (I := fun st => ∃ s', Plain a s.acSceneId st.1 s') ?_ ⟨s, hplain⟩ hst
    rintro st op st' o ⟨s₁, hs₁⟩ hop
    obtain ⟨s₂, hs₂, -⟩ := hs₁.step hop
    exact ⟨s₂, hs₂⟩
  · intro h bs st ot hbs hst
    exact (h bs st ot hbs hst).2

end

namespace Sample

/-- The manual trigger, as a request has it. -/
def manualOf (devId : CText) : EventCond := { manualCond with acDevId := devId }

/-- What calls leave of a scene that has nothing yet. -/
def called (ops : List OrOp) : SceneList × List CondRow :=
  ((Run.run OrOp.step ((engineAfter emptyRun).list, []) ops).map Prod.fst).getD (.init, [])

/-- Added, and deleted under the same `DevId`. -/
def manualOps : List OrOp := [.add 0 (manualOf ['d']), .del 0 (manualOf ['d'])]

/-- Added under the `DevId` of sixteen zeros, and cleared. -/
def clearedOps : List OrOp := [.add 0 (manualOf manualCond.acDevId), .clear 0 1]

end Sample

open Sample in
theorem manual_agrees_iff_deleted :
    (∀ bs st ot, bs <+: manualOps →
        Run.run OrOp.step ((engineAfter emptyRun).list, []) bs = some (st, ot) →
          ManualAgrees 0 st) ↔
      Run.Along OrOp.step (OrOp.KeepsManual 0) ((engineAfter emptyRun).list, []) manualOps :=
  manual_agrees_iff run_emptyRun
    (show (engineAfter emptyRun).list.scene? 0 = some (scene (engineAfter emptyRun).list) by decide)
    (fun l => emptyRun_empty l .event) (by decide) (by simp)
    (show Run.run OrOp.step ((engineAfter emptyRun).list, []) manualOps =
      some (called manualOps, [.noErr, .noErr]) by decide)

open Sample in
/-- A clearing deletes the row, and leaves the flag. -/
theorem manual_not_agrees :
    ¬ ∀ (y : Engine) (as : List Act) (fx : List Effect),
      Run.run Engine.step .init as = some (y, fx) → ∀ (a : Nat) (s : SceneInfo),
      y.list.scene? a = some s → (∀ l, (s.list l .event).counts = (0, [])) →
      s.cManualTriggerFlag = false → ∀ (ops : List OrOp) (st : SceneList × List CondRow)
      (os : List ErrNo), Run.run OrOp.step (y.list, []) ops = some (st, os) →
      ManualAgrees a st := by
  intro h
  have hagrees := h _ _ _ run_emptyRun 0 (scene (engineAfter emptyRun).list) (by decide)
    (fun l => emptyRun_empty l .event) (by decide) clearedOps (called clearedOps)
    [.noErr, .noErr] (by decide)
  have hscene : (called clearedOps).1.scene? 0 = some (scene (called clearedOps).1) := by decide
  exact absurd (hagrees _ hscene) (by decide)

end Honyar.LocalScene
