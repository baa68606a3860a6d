import Honyar.LocalScene.DevTruth

/-!
# A device is unregistered

`scene_list_dev_unregister` of `scene_list.c`.  Scene by scene, the event
conditions of the two lists, the actions and the panels are copied into arrays of
128, and those of the device are deleted one after the other, each by the
operation that deletes one.

The action lists stand beside the scenes, by the address of the scene.
-/

namespace Honyar.LocalScene

open CText Option List SceneList

variable {l : Logic} {k : Kind}

/-- `ACTION_MAX_NUM`. -/
def actionMaxNum : Nat := 128

/-- `SCENE_BIND_MAX_NUM`. -/
def sceneBindMaxNum : Nat := 128

/-! ## The pass over a scene -/

/-- The loop over the conditions that were copied from the list of a logic. -/
def devConds (x : SceneList) (a : Nat) (l : Logic) (pDevId : CText) : Option SceneList := do
  let s ← x.scene? a
  ((s.list l .event).condGetList condMaxNum).foldlM (fun x c =>
    if c.isOf pDevId then (sceneCondDel (k := .event) x a l c).map Prod.fst else some x) x

/-- The loop over the actions. -/
def devActions (t : ActionList) (pDevId : CText) : ActionList :=
  ((t.stList.map ActionNode.stActionInfo).take actionMaxNum).foldl (fun t i =>
    if isDev pDevId i.acDevId then (actionListDel t i).1 else t) t

/-- The loop over the panels. -/
def devPanels (x : SceneList) (a : Nat) (pDevId : CText) : Option SceneList := do
  let s ← x.scene? a
  ((s.pstPanel.map ScenePanelNode.stPanel).take sceneBindMaxNum).foldlM (fun x i =>
    if isDev pDevId i.acDevId then (sceneUnbind x a i).map Prod.fst else some x) x

/-- What the loop over the scenes does to the scene at an address. -/
def sceneDevUnregister (pDevId : CText) (z : SceneList × (Nat → ActionList)) (a : Nat) :
    Option (SceneList × (Nat → ActionList)) := do
  let x ← devConds z.1 a .or pDevId
  let x ← devConds x a .and pDevId
  let pstAction := Function.update z.2 a (devActions (z.2 a) pDevId)
  let x ← devPanels x a pDevId
  return (x, pstAction)

/-- `scene_list_dev_unregister`. -/
def sceneListDevUnregister (x : SceneList) (pstAction : Nat → ActionList) (pDevId : CText) :
    Option (SceneList × (Nat → ActionList)) :=
  (x.stList.map SceneNode.addr).foldlM (sceneDevUnregister pDevId) (x, pstAction)

/-! ## Conditions -/

section

variable {x x' : SceneList} {a : Nat} {s s' : SceneInfo} {pDevId : CText}

theorem SceneList.stList_setScene_setScene (x : SceneList) (a : Nat) (s s' : SceneInfo) :
    ((x.setScene a s).setScene a s').stList = (x.setScene a s').stList := by
  simp only [setScene, List.map_map]
  refine map_congr_left fun n _ => ?_
  by_cases h : n.addr = a <;> simp [h]

theorem Indexed.stList_setScene_self (hx : Indexed x) (hs : x.scene? a = some s) :
    (x.setScene a s).stList = x.stList := by
  refine Keyed.map_write_eq_self (f := fun n : SceneNode => { n with stSceneInfo := s })
    fun n hn hna => ?_
  rw [Keyed.eq_of_key_eq hx.addrs hn (mem_of_scene? hs) hna]

/-- `x'` is `x` with another scene at `a`, and in order. -/
structure SceneList.Wrote (x : SceneList) (a : Nat) (s : SceneInfo) (x' : SceneList) : Prop where
  alive : Alive x'
  orderly : x'.Orderly
  stList : x'.stList = (x.setScene a s).stList

namespace SceneList.Wrote

theorem refl (hx : Alive x) (ho : x.Orderly) (hs : x.scene? a = some s) : x.Wrote a s x :=
  ⟨hx, ho, (hx.indexed.stList_setScene_self hs).symm⟩

theorem scene? (h : x.Wrote a s' x') (hs : x.scene? a = some s) : x'.scene? a = some s' := by
  rw [SceneList.scene?, h.stList]
  exact scene?_setScene_self hs s'

theorem trans {x'' : SceneList} (h : x.Wrote a s x') (h' : x'.Wrote a s' x'') :
    x.Wrote a s' x'' where
  alive := h'.alive
  orderly := h'.orderly
  stList := by
    rw [h'.stList]
    show x'.stList.map _ = _
    rw [h.stList]
    exact x.stList_setScene_setScene a s s'

end SceneList.Wrote

theorem SceneInfo.condOut_entries {p : CondPtr k} {heap : Nat} (hs : s.Placed heap)
    (h : s.condOut p = some s') : (s'.list p.acLogic k).entries =
      (s.list p.acLogic k).entries.filter fun q => q.1 ≠ p := by
  obtain ⟨t, hdel, htrue⟩ := bind_eq_some_iff.mp h
  rw [(entries_of_eraseTruth_eq (condDelTrue_eraseTruth htrue)).1]
  exact (condDel_entries hs hdel).1

theorem sceneCondDel_out (hx : Alive x) (ho : x.Orderly) (hs : x.scene? a = some s)
    {q : CondPtr k × Cond k} (hq : q ∈ (s.list l k).entries) :
    ((sceneCondDel x a l q.2).map Prod.fst = (s.condOut q.1).map fun s' =>
        { x.setScene a s' with
          pHashTable := ptrHashDel x.pHashTable q.2.hashKey s.acSceneId }) ∧
      ∀ x' r, sceneCondDel x a l q.2 = some (x', r) → Alive x' ∧ x'.Orderly := by
  obtain ⟨e, hfind, hea, htarget⟩ := hx.indexed.find_of_mem_entries hs hq
  have hp : e.condPtr? k = some q.1 := by
    rw [PtrNode.condPtr?, htarget]
    simp
  have hlogic : q.1.acLogic = l := by
    obtain ⟨n, -, d, -, rfl⟩ := CondList.mem_entries.mp hq
    rfl
  have hm := (ho.scene hs).manual l k q hq
  have hown : CondDelOwn x s l k q.2.hashKey := by
    intro f hf p hpf
    rw [mem_def, hfind] at hf
    rw [← some.inj hf, hp] at hpf
    rw [← some.inj hpf]
    exact hlogic
  constructor
  · rw [sceneCondDel_eq hs ⟨hm, e, hfind, hea, hp⟩, SceneInfo.condOut, hlogic, map_bind,
      map_bind]
    refine bind_congr fun s₁ _ => ?_
    rw [Function.comp_apply, Function.comp_apply, Option.map_map]
    rfl
  · exact fun x' r h => ⟨sceneCondDel_alive hx hs (fun _ => hown.aimed) h,
      sceneCondDel_orderly hx.indexed ho hs (fun _ => hown) h⟩

/-- The deletions from one list do to the scene what they do to a scene alone. -/
theorem foldlM_sceneCondDel {qs : List (CondPtr .event × Cond .event)} (hx : Alive x)
    (ho : x.Orderly) (hs : x.scene? a = some s) (hnodup : (qs.map Prod.fst).Nodup)
    (hmem : ∀ q ∈ qs, q ∈ (s.list l .event).entries) :
    (∀ x', qs.foldlM (fun x q => (sceneCondDel x a l q.2).map Prod.fst) x = some x' →
      ∃ s', s.condsOut (qs.map Prod.fst) = some s' ∧ x.Wrote a s' x') ∧
    ∀ s', s.condsOut (qs.map Prod.fst) = some s' →
      ∃ x', qs.foldlM (fun x q => (sceneCondDel x a l q.2).map Prod.fst) x = some x' := by
  induction qs generalizing x s with
  | nil =>
    refine ⟨fun x' h => ?_, fun _ _ => ⟨x, rfl⟩⟩
    obtain rfl := some.inj h
    exact ⟨s, rfl, .refl hx ho hs⟩
  | cons q qs ih =>
    obtain ⟨hdel, hsound⟩ := sceneCondDel_out hx ho hs (hmem q mem_cons_self)
    have hq := hmem q mem_cons_self
    have hlogic : q.1.acLogic = l := by
      obtain ⟨n, -, d, -, rfl⟩ := CondList.mem_entries.mp hq
      rfl
    rw [map_cons, SceneInfo.condsOut, foldlM_cons, foldlM_cons]
    cases hout : s.condOut q.1 with
    | none =>
      rw [hdel, hout]
      exact ⟨fun x' h => (by cases h), fun s' h => (by cases h)⟩
    | some s₁ =>
      rw [hout] at hdel
      obtain ⟨⟨x₁, r⟩, hstep, hfst⟩ := map_eq_some_iff.mp hdel
      obtain ⟨hx₁, ho₁⟩ := hsound x₁ r hstep
      have hwrote : x.Wrote a s₁ x₁ := ⟨hx₁, ho₁, by rw [show x₁ = _ from hfst]⟩
      have hmem₁ : ∀ r ∈ qs, r ∈ (s₁.list l .event).entries := by
        intro r hr
        have hplaced := hx.indexed.placed _ (mem_of_scene? hs)
        have hentries := SceneInfo.condOut_entries hplaced hout
        rw [hlogic] at hentries
        rw [hentries, mem_filter]
        refine ⟨hmem r (mem_cons_of_mem q hr), decide_eq_true fun heq => ?_⟩
        exact (nodup_cons.mp hnodup).1 (heq ▸ List.mem_map_of_mem hr)
      obtain ⟨hfrom, hto⟩ := ih hx₁ ho₁ (hwrote.scene? hs) (nodup_cons.mp hnodup).2 hmem₁
      rw [hstep]
      refine ⟨fun x' h => ?_, hto⟩
      obtain ⟨s', hs', hwrote'⟩ := hfrom x' h
      exact ⟨s', hs', hwrote.trans hwrote'⟩

theorem devConds_eq (hx : Alive x) (hs : x.scene? a = some s) :
    devConds x a l pDevId =
      (((s.list l .event).entries.take condMaxNum).filter fun q =>
        EventCond.isOf pDevId q.2).foldlM
          (fun x q => (sceneCondDel x a l q.2).map Prod.fst) x := by
  have hconds : (s.list l .event).conds = (s.list l .event).entries.map Prod.snd :=
    (hx.counted _ (mem_of_scene? hs) l .event).conds_eq
  rw [devConds, hs, bind_eq_bind, bind_some, CondList.condGetList, hconds,
    ← map_take, foldlM_map, foldlM_filter]
  rfl

theorem devConds_run (hx : Alive x) (ho : x.Orderly) (hs : x.scene? a = some s) (l : Logic)
    (pDevId : CText) :
    (∀ x', devConds x a l pDevId = some x' →
      ∃ s', s.condsOut ((s.list l .event).devPtrs pDevId) = some s' ∧ x.Wrote a s' x') ∧
    ∀ s', s.condsOut ((s.list l .event).devPtrs pDevId) = some s' →
      ∃ x', devConds x a l pDevId = some x' := by
  have hy := (ho.scene hs).wf l .event
  rw [devConds_eq hx hs]
  exact foldlM_sceneCondDel hx ho hs (hy.devPtrs_nodup pDevId) fun q hq =>
    mem_of_mem_take (mem_of_mem_filter hq)

/-! ## Panels -/

theorem sceneUnbind_out (hx : Alive x) (hs : x.scene? a = some s) {m : ScenePanelNode}
    (hm : m ∈ s.pstPanel) : sceneUnbind x a m.stPanel =
      some ({ x.setScene a { s with pstPanel := s.pstPanel.filter (·.addr != m.addr) } with
        pHashTable := ptrHashDel x.pHashTable m.stPanel.hashKey s.acSceneId }, .noErr) := by
  have hmem := mem_of_scene? hs
  obtain ⟨e, he, hea, htarget⟩ := hx.panels _ hmem m hm
  have hfind : ptrHashFind x.pHashTable m.stPanel.hashKey s.acSceneId = some e := by
    rw [ptrHashFind, ← head?_filter, hx.indexed.filter_isFor hmem he hea]
    rfl
  have hpanel : e.panelPtr? = some m.addr := by
    rw [PtrNode.panelPtr?, htarget]
  rw [sceneUnbind, hs, bind_eq_bind, bind_some]
  simp only [show panelHashKey m.stPanel.acDevId m.stPanel.acKey m.stPanel.acValue =
    m.stPanel.hashKey from rfl, hfind]
  rw [hpanel, bind_eq_bind, bind_some, if_pos hea]
  rfl

theorem foldlM_sceneUnbind {ms : List ScenePanelNode} (hx : Alive x) (ho : x.Orderly)
    (hs : x.scene? a = some s) (hnodup : (ms.map ScenePanelNode.addr).Nodup)
    (hmem : ∀ m ∈ ms, m ∈ s.pstPanel) :
    ∃ x', ms.foldlM (fun x m => (sceneUnbind x a m.stPanel).map Prod.fst) x = some x' ∧
      x.Wrote a { s with
        pstPanel := s.pstPanel.filter fun m => m.addr ∉ ms.map ScenePanelNode.addr } x' := by
  induction ms generalizing x s with
  | nil =>
    refine ⟨x, rfl, ?_⟩
    simpa using SceneList.Wrote.refl hx ho hs
  | cons m ms ih =>
    have hout := sceneUnbind_out hx hs (hmem m mem_cons_self)
    have hwrote : x.Wrote a _ _ := ⟨sceneUnbind_alive hx hout, sceneUnbind_orderly ho hout, rfl⟩
    rw [map_cons, nodup_cons] at hnodup
    have hmem₁ : ∀ n ∈ ms, n ∈ s.pstPanel.filter (·.addr != m.addr) := by
      intro n hn
      refine mem_filter.mpr ⟨hmem n (mem_cons_of_mem m hn), ?_⟩
      rw [bne_iff_ne]
      exact fun heq => hnodup.1 (heq ▸ List.mem_map_of_mem hn)
    obtain ⟨x', hrun, hwrote'⟩ :=
      ih hwrote.alive hwrote.orderly (hwrote.scene? hs) hnodup.2 hmem₁
    refine ⟨x', ?_, ?_⟩
    · rw [foldlM_cons, hout]
      exact hrun
    · rw [map_cons, Keyed.filter_notMem_cons]
      exact hwrote.trans hwrote'

/-- The panels that stay: an array holds the first 128. -/
def panelsLeft (ms : List ScenePanelNode) (pDevId : CText) : List ScenePanelNode :=
  ms.filter fun m => m.addr ∉ ((ms.take sceneBindMaxNum).filter fun m =>
    isDev pDevId m.stPanel.acDevId).map ScenePanelNode.addr

/-- The scene without these panels. -/
def SceneInfo.devPanelsOut (s : SceneInfo) (pDevId : CText) : SceneInfo :=
  { s with pstPanel := panelsLeft s.pstPanel pDevId }

theorem devPanels_run (hx : Alive x) (ho : x.Orderly) (hs : x.scene? a = some s)
    (pDevId : CText) :
    ∃ x', devPanels x a pDevId = some x' ∧ x.Wrote a (s.devPanelsOut pDevId) x' := by
  obtain ⟨hnodup, -⟩ := hx.panelAddrs _ (mem_of_scene? hs)
  have hsub : ((s.pstPanel.take sceneBindMaxNum).filter fun m =>
      isDev pDevId m.stPanel.acDevId).Sublist s.pstPanel :=
    filter_sublist.trans (take_sublist _ _)
  obtain ⟨x', hrun, hwrote⟩ := foldlM_sceneUnbind hx ho hs ((hsub.map _).nodup hnodup)
    fun m hm => hsub.subset hm
  refine ⟨x', ?_, hwrote⟩
  rw [devPanels, hs, bind_eq_bind, bind_some, ← map_take, foldlM_map, ← hrun,
    foldlM_filter]
  rfl

end

/-! ## Actions -/

section

variable {t : ActionList} {pDevId : CText}

theorem foldl_actionListDel {ns : List ActionNode} (hnodup : (ns.map ActionNode.addr).Nodup)
    (hmem : ∀ n ∈ ns, n ∈ t.stList) :
    (ns.foldl (fun t n => (actionListDel t n.stActionInfo).1) t).stList =
      t.stList.filter fun n => n.addr ∉ ns.map ActionNode.addr := by
  induction ns generalizing t with
  | nil => simp
  | cons n ns ih =>
    have hdel := stList_actionListDel (hmem n mem_cons_self) rfl
    rw [map_cons, nodup_cons] at hnodup
    rw [foldl_cons, ih hnodup.2 fun m hm => ?_, hdel]
    · exact (Keyed.filter_notMem_cons _ _ _).symm
    · rw [hdel, mem_filter, bne_iff_ne]
      exact ⟨hmem m (mem_cons_of_mem n hm), fun heq =>
        hnodup.1 (heq ▸ List.mem_map_of_mem hm)⟩

theorem stList_devActions (t : ActionList) (pDevId : CText) :
    (devActions t pDevId).stList = t.stList.filter fun n =>
      n.addr ∉ ((t.stList.take actionMaxNum).filter fun n =>
        isDev pDevId n.stActionInfo.acDevId).map ActionNode.addr := by
  have hsub : ((t.stList.take actionMaxNum).filter fun n =>
      isDev pDevId n.stActionInfo.acDevId).Sublist t.stList :=
    filter_sublist.trans (take_sublist _ _)
  rw [← foldl_actionListDel ((hsub.map _).nodup t.addrs) fun n hn => hsub.subset hn, devActions,
    ← map_take, foldl_map, foldl_filter]

end

/-! ## Scenes -/

section

variable {x : SceneList} {ts : Nat → ActionList} {z z' : SceneList × (Nat → ActionList)}
variable {a : Nat} {s s' : SceneInfo} {pDevId : CText}

theorem sceneDevUnregister_run (hx : Alive x) (ho : x.Orderly) (hs : x.scene? a = some s)
    (ts : Nat → ActionList) (pDevId : CText) :
    (∀ z', sceneDevUnregister pDevId (x, ts) a = some z' →
      ∃ s', s.devOut pDevId = some s' ∧ x.Wrote a (s'.devPanelsOut pDevId) z'.1 ∧
        z'.2 = Function.update ts a (devActions (ts a) pDevId)) ∧
    ∀ s', s.devOut pDevId = some s' → ∃ z', sceneDevUnregister pDevId (x, ts) a = some z' := by
  obtain ⟨horFrom, horTo⟩ := devConds_run hx ho hs .or pDevId
  simp only [sceneDevUnregister, bind_eq_bind]
  constructor
  · intro z' h
    obtain ⟨x₁, hor, h⟩ := bind_eq_some_iff.mp h
    obtain ⟨x₂, hand, h⟩ := bind_eq_some_iff.mp h
    obtain ⟨x₃, hpanels, h⟩ := bind_eq_some_iff.mp h
    obtain rfl := some.inj h
    obtain ⟨s₁, hout₁, hwrote₁⟩ := horFrom x₁ hor
    obtain ⟨s₂, hout₂, hwrote₂⟩ :=
      (devConds_run hwrote₁.alive hwrote₁.orderly (hwrote₁.scene? hs) .and pDevId).1 x₂ hand
    have hwrote := hwrote₁.trans hwrote₂
    obtain ⟨x₃', hpanels', hwrote₃⟩ :=
      devPanels_run hwrote.alive hwrote.orderly (hwrote.scene? hs) pDevId
    obtain rfl := some.inj (hpanels.symm.trans hpanels')
    exact ⟨s₂, bind_eq_some_iff.mpr ⟨s₁, hout₁, hout₂⟩, hwrote.trans hwrote₃, rfl⟩
  · intro s' h
    obtain ⟨s₁, hout₁, hout₂⟩ := bind_eq_some_iff.mp h
    obtain ⟨x₁, hor⟩ := horTo s₁ hout₁
    obtain ⟨s₁', hout₁', hwrote₁⟩ := horFrom x₁ hor
    obtain rfl := some.inj (hout₁.symm.trans hout₁')
    obtain ⟨handFrom, handTo⟩ :=
      devConds_run hwrote₁.alive hwrote₁.orderly (hwrote₁.scene? hs) .and pDevId
    obtain ⟨x₂, hand⟩ := handTo s' hout₂
    obtain ⟨s₂, -, hwrote₂⟩ := handFrom x₂ hand
    obtain ⟨x₃, hpanels, -⟩ := devPanels_run hwrote₂.alive hwrote₂.orderly
      (hwrote₂.scene? (hwrote₁.scene? hs)) pDevId
    rw [hor, bind_some, hand, bind_some, hpanels]
    exact ⟨_, rfl⟩

theorem SceneList.Wrote.scene?_of_ne {x' : SceneList} {b : Nat} (h : x.Wrote a s x')
    (hb : b ≠ a) : x'.scene? b = x.scene? b := by
  rw [SceneList.scene?, h.stList]
  exact scene?_setScene_of_ne hb s

/-- What the loop has left behind the scenes at `as`, of the state it began with. -/
structure Looped (pDevId : CText) (as : List Nat) (z z' : SceneList × (Nat → ActionList)) :
    Prop where
  alive : Alive z'.1
  orderly : z'.1.Orderly
  addrs : z'.1.stList.map SceneNode.addr = z.1.stList.map SceneNode.addr
  scenes : ∀ a ∈ as, ∀ s ∈ z.1.scene? a, ∃ s', s.devOut pDevId = some s' ∧
    z'.1.scene? a = some (s'.devPanelsOut pDevId) ∧ z'.2 a = devActions (z.2 a) pDevId
  others : ∀ b ∉ as, z'.1.scene? b = z.1.scene? b ∧ z'.2 b = z.2 b

theorem foldlM_sceneDevUnregister {as : List Nat} (hx : Alive x) (ho : x.Orderly)
    (hnodup : as.Nodup) (hscenes : ∀ a ∈ as, ∃ s, x.scene? a = some s) (ts : Nat → ActionList)
    (pDevId : CText) :
    (∀ z', as.foldlM (sceneDevUnregister pDevId) (x, ts) = some z' →
      Looped pDevId as (x, ts) z') ∧
    ((∀ a ∈ as, ∀ s ∈ x.scene? a, ∃ s', s.devOut pDevId = some s') →
      ∃ z', as.foldlM (sceneDevUnregister pDevId) (x, ts) = some z') := by
  induction as generalizing x ts with
  | nil =>
    refine ⟨fun z' h => ?_, fun _ => ⟨_, rfl⟩⟩
    obtain rfl := some.inj h
    exact ⟨hx, ho, rfl, by simp, fun _ _ => ⟨rfl, rfl⟩⟩
  | cons a as ih =>
    obtain ⟨s, hs⟩ := hscenes a mem_cons_self
    obtain ⟨hfrom, hto⟩ := sceneDevUnregister_run hx ho hs ts pDevId
    obtain ⟨hnot, hnodup⟩ := nodup_cons.mp hnodup
    -- the other scenes are still there
    have hrest {z₁ : SceneList × (Nat → ActionList)} {s₁ : SceneInfo}
        (hwrote : x.Wrote a s₁ z₁.1) : ∀ b ∈ as, z₁.1.scene? b = x.scene? b := fun b hb =>
      hwrote.scene?_of_ne fun heq => hnot (heq ▸ hb)
    rw [foldlM_cons]
    constructor
    · intro z' h
      obtain ⟨z₁, hstep, hrun⟩ := bind_eq_some_iff.mp h
      obtain ⟨s₁, hout, hwrote, hacts⟩ := hfrom z₁ hstep
      have hloop := (ih hwrote.alive hwrote.orderly hnodup (fun b hb => by
        rw [hrest hwrote b hb]
        exact hscenes b (mem_cons_of_mem a hb)) z₁.2).1 z' hrun
      refine ⟨hloop.alive, hloop.orderly, ?_, fun b hb t ht => ?_, fun b hb => ?_⟩
      · rw [hloop.addrs]
        show z₁.1.stList.map _ = _
        rw [hwrote.stList]
        exact Keyed.map_write_key (f := fun n : SceneNode =>
          { n with stSceneInfo := s₁.devPanelsOut pDevId }) (fun _ => rfl) x.stList a
      · rcases mem_cons.mp hb with rfl | hb
        · obtain ⟨hscene, hact⟩ := hloop.others b hnot
          rw [mem_def, hs] at ht
          obtain rfl := some.inj ht
          refine ⟨s₁, hout, hscene.trans (hwrote.scene? hs), hact.trans ?_⟩
          show z₁.2 b = _
          rw [hacts, Function.update_self]
        · obtain ⟨t', hout', hscene, hact⟩ := hloop.scenes b hb t (by
            show z₁.1.scene? b = _
            rw [hrest hwrote b hb]
            exact ht)
          refine ⟨t', hout', hscene, hact.trans ?_⟩
          show devActions (z₁.2 b) pDevId = _
          rw [hacts, Function.update_of_ne fun heq : b = a => hnot (heq ▸ hb)]
      · rw [mem_cons, not_or] at hb
        obtain ⟨hscene, hact⟩ := hloop.others b hb.2
        refine ⟨hscene.trans (hwrote.scene?_of_ne hb.1), hact.trans ?_⟩
        show z₁.2 b = _
        rw [hacts, Function.update_of_ne hb.1]
    · intro hall
      obtain ⟨s', hout⟩ := hall a mem_cons_self s hs
      obtain ⟨z₁, hstep⟩ := hto s' hout
      obtain ⟨s₁, -, hwrote, -⟩ := hfrom z₁ hstep
      obtain ⟨z', hrun⟩ := (ih hwrote.alive hwrote.orderly hnodup (fun b hb => by
        rw [hrest hwrote b hb]
        exact hscenes b (mem_cons_of_mem a hb)) z₁.2).2 fun b hb t ht => by
          rw [hrest hwrote b hb] at ht
          exact hall b (mem_cons_of_mem a hb) t ht
      exact ⟨z', bind_eq_some_iff.mpr ⟨z₁, hstep, hrun⟩⟩

theorem sceneListDevUnregister_run (hx : Alive x) (ho : x.Orderly) (ts : Nat → ActionList)
    (pDevId : CText) :
    (∀ z', sceneListDevUnregister x ts pDevId = some z' →
      Looped pDevId (x.stList.map SceneNode.addr) (x, ts) z') ∧
    ((∀ n ∈ x.stList, ∃ s', n.stSceneInfo.devOut pDevId = some s') →
      ∃ z', sceneListDevUnregister x ts pDevId = some z') := by
  obtain ⟨hfrom, hto⟩ := foldlM_sceneDevUnregister hx ho hx.indexed.addrs (fun a ha => by
    obtain ⟨n, hn, rfl⟩ := List.mem_map.mp ha
    exact ⟨_, hx.indexed.scene?_eq_some hn⟩) ts pDevId
  exact ⟨hfrom, fun hall => hto fun a _ s hs => hall _ (mem_of_scene? hs)⟩

end

end Honyar.LocalScene
