import Honyar.LocalScene.Integrity
import Honyar.LocalScene.Stored

/-!
# Runs that keep the index

Which deletions, clearings and bindings keep `Alive`, and the run: as long as no
condition is refused, every condition is deleted through its own list and no
scene with panels is unbound as a whole, the hash table and the scenes refer to
each other.
-/

namespace Honyar.LocalScene

open CText Option SceneInfo

variable {l : Logic} {k : Kind} {x x' : SceneList} {a : Nat} {s s' : SceneInfo}
variable {r : ErrNo} {i : ScenePanel}

/-! ## Deleting and clearing conditions -/

/-- The condition that is filed under the text is deleted through its own list,
or out of a set that keeps others. -/
def CondDelAimed (x : SceneList) (s : SceneInfo) (l : Logic) (k : Kind) (key : CText) : Prop :=
  ∀ e ∈ ptrHashFind x.pHashTable key s.acSceneId, ∀ p ∈ e.condPtr? k, s.DelAimed l p

instance (x : SceneList) (s : SceneInfo) (l : Logic) (k : Kind) (key : CText) :
    Decidable (CondDelAimed x s l k key) :=
  inferInstanceAs (Decidable (∀ e ∈ ptrHashFind x.pHashTable key s.acSceneId,
    ∀ p ∈ e.condPtr? k, s.DelAimed l p))

theorem condDel_led {bit : Kind} {key : CText} (hx : Led x) (hind : Indexed x)
    (hs : x.scene? a = some s) (haimed : CondDelAimed x s l k key)
    (h : condDel x a l k bit key = some (x', r)) : Led x' := by
  have hmem := SceneList.mem_of_scene? hs
  have hplaced := hind.placed _ hmem
  obtain ⟨-, -, rfl⟩ | ⟨e, p, s₁, s', hfind, hp, hea, hdel, htrue, -, rfl⟩ := condDel_eq_some hs h
  · exact hx
  · obtain ⟨hcount, -⟩ := condDel_counted hplaced (hx.counted _ hmem)
      (haimed e hfind p hp) hdel
    have hplaced₁ := (condDel_shrinks hplaced hdel).1.placed hplaced
    have hwords := SceneInfo.Frames.of_eraseTruth_eq (condDelTrue_eraseTruth htrue)
    -- the node that was found leads to the condition
    have hhas : s.Has ⟨k, p⟩ key :=
      hx.has hind hs (mem_of_ptrHashFind hfind).1 hea (e.target_of_condPtr? hp)
    refine hx.write hind hs rfl (hwords.counted hcount)
      (fun f hf => .inl ((ptrHashDel_sublist _ _ _).subset hf)) ?_
    intro f hf hold hfa q hfq hq
    refine hwords.keeps hplaced₁ q f.1 (condDel_others hplaced hdel ?_ hq)
    rintro rfl
    -- the deleted condition is filed under one text
    have hkey : key = f.1 := (hind.sound f hold _ hfq).2 _ hmem hfa.symm key hhas
    refine notMem_ptrHashDel hind.unique ?_ hf
    rw [hind.filedAs_eq hs hold hfa, hkey]

theorem sceneCondDel_led {c : Cond k} (hx : Led x) (hind : Indexed x) (hs : x.scene? a = some s)
    (haimed : c.isManual l = false → CondDelAimed x s l k c.hashKey)
    (h : sceneCondDel x a l c = some (x', r)) : Led x' := by
  rcases sceneCondDel_cases h with ⟨-, s', hs', rfl⟩ | ⟨hm, hdel⟩
  · exact hx.setManual hind hs' false
  · exact condDel_led hx hind hs (haimed hm) hdel

theorem sceneCondDel_alive {c : Cond k} (hx : Alive x) (hs : x.scene? a = some s)
    (haimed : c.isManual l = false → CondDelAimed x s l k c.hashKey)
    (h : sceneCondDel x a l c = some (x', r)) : Alive x' := by
  obtain ⟨hb, hled⟩ := alive_iff.mp hx
  exact alive_iff.mpr ⟨hb.keeps (sceneCondDel_indexed hb.indexed h)
    (sceneCondDel_keepsPanels hb.indexed hs h), sceneCondDel_led hled hb.indexed hs haimed h⟩

/-- A counted list is cleared: nothing is left in it, and the other lists stay. -/
theorem condClear_led (hx : Led x) (hind : Indexed x) (hs : x.scene? a = some s)
    (h : condClear x a l k = some x') :
    Led x' ∧ ∃ s', x'.scene? a = some s' ∧ (s'.list l k).stList = [] ∧
      ∀ l' k', ¬ (l' = l ∧ k' = k) → s'.list l' k' = s.list l' k' := by
  have hmem := SceneList.mem_of_scene? hs
  obtain ⟨hnil, hnum⟩ := (hx.counted _ hmem l k).clear
  obtain ⟨t, ht, -, rfl⟩ := condClear_eq_some h
  obtain rfl : s = t := some.inj (hs.symm.trans ht)
  refine ⟨hx.write hind hs rfl ?_ (fun e he => .inl ((foldl_ptrHashDel_sublist _ _ _).subset he))
    ?_, _, SceneList.scene?_setScene_self hs _, ?_, ?_⟩
  · refine (hx.counted _ hmem).setList ?_
    show (s.list l k).clear.iNodeNum = (s.list l k).clear.stList.length
    rw [hnil, hnum]
    rfl
  · rintro e he hold hea ⟨k', l', b, d⟩ - hq
    by_cases hl : l' = l ∧ k' = k
    · obtain ⟨rfl, rfl⟩ := hl
      obtain ⟨n, hn, -, c, hc, -, hkey⟩ := hq
      refine absurd ?_ (filedAs_ne_of_mem_foldl hind.unique he c.stCond
        (CondList.Counted.mem_conds (hx.counted _ hmem _ _) hn hc))
      rw [hind.filedAs_eq hs hold hea, hkey]
    · rw [SceneInfo.Has, list_setList_of_ne _ _ hl]
      exact hq
  · rw [list_setList_self]
    exact hnil
  · exact fun l' k' hne => list_setList_of_ne _ _ hne

theorem sceneCondClear_led (hx : Led x) (hind : Indexed x) (hs : x.scene? a = some s)
    (h : sceneCondClear x a l k = some x') : Led x' := by
  cases l <;> cases k <;> exact (condClear_led hx hind hs h).1

/-! ## Panels -/

theorem SceneInfo.list_setPanel (s : SceneInfo) (ns : List ScenePanelNode) (l : Logic) (k : Kind) :
    ({ s with pstPanel := ns } : SceneInfo).list l k = s.list l k := by
  cases l <;> cases k <;> rfl

theorem SceneInfo.has_setPanel {ns : List ScenePanelNode} {q : AnyPtr} {key : CText} :
    ({ s with pstPanel := ns } : SceneInfo).Has q key ↔ s.Has q key := by
  rw [Has, Has, list_setPanel]

theorem SceneInfo.Counted.setPanel (hs : s.Counted) (ns : List ScenePanelNode) :
    ({ s with pstPanel := ns } : SceneInfo).Counted := by
  intro l k
  rw [list_setPanel]
  exact hs l k

theorem Led.setPanel (hx : Led x) (hind : Indexed x) (hs : x.scene? a = some s)
    {ns : List ScenePanelNode}
    (hlist : x'.stList = (x.setScene a { s with pstPanel := ns }).stList)
    (hnodes : ∀ e ∈ x'.pHashTable, e ∈ x.pHashTable ∨ e.2.pstScene = a ∧
      ∃ b, e.2.target = .panel b) : Led x' := by
  refine hx.write hind hs hlist ((hx.counted _ (SceneList.mem_of_scene? hs)).setPanel _) ?_
    fun e _ _ _ q _ hq => has_setPanel.mpr hq
  intro e he
  refine (hnodes e he).imp_right ?_
  rintro ⟨hea, b, hb⟩
  exact ⟨hea, hb ▸ nofun, fun q hq => by rw [hb] at hq; cases hq⟩

theorem sceneBind_led (hx : Led x) (hind : Indexed x) (h : sceneBind x a i = some x') : Led x' := by
  obtain ⟨s, hs, ⟨e, b, t, -, -, ht, rfl⟩ | ⟨-, rfl⟩⟩ := sceneBind_eq_some h
  · exact hx.setPanel hind ht rfl fun e he => .inl he
  · refine hx.setPanel hind hs rfl fun e he => ?_
    rcases List.mem_cons.mp he with rfl | he
    · exact .inr ⟨rfl, _, rfl⟩
    · exact .inl he

theorem sceneUnbind_led (hx : Led x) (hind : Indexed x) (h : sceneUnbind x a i = some (x', r)) :
    Led x' := by
  obtain ⟨s, hs, ⟨e, b, -, -, -, rfl⟩ | rfl⟩ := sceneUnbind_eq_some h
  · exact hx.setPanel hind hs rfl fun f hf => .inl ((ptrHashDel_sublist _ _ _).subset hf)
  · exact hx

theorem sceneUnbind_alive (hx : Alive x) (h : sceneUnbind x a i = some (x', r)) : Alive x' := by
  obtain ⟨hb, hled⟩ := alive_iff.mp hx
  exact alive_iff.mpr ⟨sceneUnbind_bindings hb h, sceneUnbind_led hled hb.indexed h⟩

theorem sceneBindClear_alive (hx : Alive x) (hs : x.scene? a = some s) (hnil : s.pstPanel = [])
    (h : sceneBindClear x a = some x') : Alive x' := by
  simp only [sceneBindClear, hs, bind_eq_bind, bind_some, hnil, List.foldl_nil,
    pure_def, some.injEq] at h
  exact h ▸ hx

/-! ## Scenes -/

theorem hySceneAdd_led {i : SceneText} (hx : Led x) (hind : Indexed x) :
    Led (hySceneAdd x i) := by
  cases hget : sceneListGet x i.acSceneId with
  | some b => exact hx.touches hind (hySceneAdd_touches hget)
  | none =>
    have hadd : hySceneAdd x i = sceneListAdd x i := by rw [hySceneAdd, hget]
    rw [hadd]
    refine ⟨fun n hn => ?_, fun e he => ?_⟩
    · rcases List.mem_cons.mp hn with rfl | hn
      · intro l k
        cases l <;> cases k <;> rfl
      · exact hx.counted n hn
    · obtain ⟨hnull, hcond⟩ := hx.nodes e he
      refine ⟨hnull, fun q hq => ?_⟩
      obtain ⟨n, hn, hleads⟩ := hcond q hq
      exact ⟨n, List.mem_cons_of_mem _ hn, hleads⟩

theorem Led.filter (hx : Led x) (hind : Indexed x) (hs : x.scene? a = some s)
    (hnil : ∀ l k, (s.list l k).stList = [])
    (hlist : x'.stList = x.stList.filter (·.addr != a))
    (hhash : x'.pHashTable.Sublist x.pHashTable) : Led x' := by
  have hnodes : ∀ n, n ∈ x'.stList ↔ n ∈ x.stList ∧ n.addr ≠ a := by
    intro n
    rw [hlist, List.mem_filter]
    simp
  refine ⟨fun n hn => hx.counted n ((hnodes n).mp hn).1, fun e he => ?_⟩
  have hold := hhash.subset he
  obtain ⟨hnull, hcond⟩ := hx.nodes e hold
  refine ⟨hnull, fun q hq => ?_⟩
  obtain ⟨n, hn, hna, hhas⟩ := hcond q hq
  refine ⟨n, (hnodes n).mpr ⟨hn, fun ha => ?_⟩, hna, hhas⟩
  -- nothing of the scene is left for the node to lead to
  obtain ⟨m, hm, -⟩ := hx.has hind hs hold (hna.symm.trans ha) hq
  rw [hnil] at hm
  cases hm

theorem sceneListDel_led {i : CText} (hx : Led x) (hind : Indexed x)
    (h : sceneListDel x i = some (x', r)) : Led x' := by
  obtain rfl | ⟨a, x₁, x₂, x₃, x₄, s₀, hget, h₁, h₂, h₃, h₄, hs₀, rfl⟩ := sceneListDel_eq_some h
  · exact hx
  · obtain ⟨⟨a', s⟩, hfind, rfl⟩ := map_eq_some_iff.mp hget
    have hs := hind.scene?_eq_some (List.mem_of_find?_eq_some hfind)
    have hind₁ := condClear_indexed hind h₁
    have hind₂ := condClear_indexed hind₁ h₂
    have hind₃ := condClear_indexed hind₂ h₃
    obtain ⟨hx₁, s₁, hs₁, hnil₁, -⟩ := condClear_led (l := .or) (k := .time) hx hind hs h₁
    obtain ⟨hx₂, s₂, hs₂, hnil₂, heq₂⟩ := condClear_led (l := .or) (k := .event) hx₁ hind₁ hs₁ h₂
    obtain ⟨hx₃, s₃, hs₃, hnil₃, heq₃⟩ := condClear_led (l := .and) (k := .time) hx₂ hind₂ hs₂ h₃
    obtain ⟨hx₄, s₄, hs₄, hnil₄, heq₄⟩ := condClear_led (l := .and) (k := .event) hx₃ hind₃ hs₃ h₄
    have hnil : ∀ l k, (s₄.list l k).stList = [] := by
      intro l k
      cases l <;> cases k
      · rw [heq₄ _ _ (by simp)]
        exact hnil₃
      · exact hnil₄
      · rw [heq₄ _ _ (by simp), heq₃ _ _ (by simp), heq₂ _ _ (by simp)]
        exact hnil₁
      · rw [heq₄ _ _ (by simp), heq₃ _ _ (by simp)]
        exact hnil₂
    obtain rfl : s₄ = s₀ := some.inj (hs₄.symm.trans hs₀)
    exact hx₄.filter (condClear_indexed hind₃ h₄) hs₄ hnil rfl (foldl_ptrHashDel_sublist _ _ _)

/-! ## Runs -/

/-- What happens to the engine, with `scene_bind_clear` as a request of its own:
`hyScene_Unbind` calls it when it is given no panel. -/
inductive IndexAct where
  | act (a : Act)
  | bindClear (pcSceneId : CText)

/-- One step. -/
def Engine.indexStep (y : Engine) : IndexAct → Option (Engine × List Effect)
  | .act a => y.step a
  | .bindClear i => y.request i fun a => sceneBindClear y.list a

/-- The step keeps the index: the condition that is added is not refused, the
one that is deleted is deleted through its own list or out of a set that keeps
others, and a scene that is unbound as a whole has no panels. -/
def IndexAct.Safe (y : Engine) : IndexAct → Prop
  | .act (.condAdd i l _ c) => ∀ a ∈ sceneListGet y.list i, ∀ s ∈ y.list.scene? a,
      c.isManual l = false → AddRoom y.list s l c
  | .act (.condDel i l k c) => ∀ a ∈ sceneListGet y.list i, ∀ s ∈ y.list.scene? a,
      c.isManual l = false → CondDelAimed y.list s l k c.hashKey
  | .bindClear i => ∀ a ∈ sceneListGet y.list i, ∀ s ∈ y.list.scene? a, s.pstPanel = []
  | _ => True

instance IndexAct.decidableSafe (y : Engine) : (act : IndexAct) → Decidable (act.Safe y)
  | .act (.condAdd i l _ c) => inferInstanceAs (Decidable (∀ a ∈ sceneListGet y.list i,
      ∀ s ∈ y.list.scene? a, c.isManual l = false → AddRoom y.list s l c))
  | .act (.condDel i l k c) => inferInstanceAs (Decidable (∀ a ∈ sceneListGet y.list i,
      ∀ s ∈ y.list.scene? a, c.isManual l = false → CondDelAimed y.list s l k c.hashKey))
  | .bindClear i => inferInstanceAs (Decidable (∀ a ∈ sceneListGet y.list i,
      ∀ s ∈ y.list.scene? a, s.pstPanel = []))
  | .act (.sceneAdd _) | .act (.sceneDel _) | .act (.condClear _ _ _) | .act (.bind _ _)
  | .act (.unbind _ _) | .act (.event _ _) | .act (.timeTrueAll _ _) | .act (.timeout _ _)
  | .act (.execQueue _) => inferInstanceAs (Decidable True)

section

variable {y y' : Engine} {os : List Effect}

theorem Requested.alive {act : Act} (hy : Alive y.list) (hsafe : (IndexAct.act act).Safe y)
    {x' : SceneList} (h : Requested y.list act x') : Alive x' := by
  obtain ⟨hb, hled⟩ := alive_iff.mp hy
  have hind := hb.indexed
  refine alive_iff.mpr ⟨h.bindings hb, ?_⟩
  cases h with
  | absent => exact hled
  | sceneAdd i => exact hySceneAdd_led hled hind
  | sceneDel h => exact sceneListDel_led hled hind h
  | condAdd hget hs h => exact sceneCondAdd_led hled hind hs (hsafe _ hget _ hs) h
  | condDel hget hs h => exact sceneCondDel_led hled hind hs (hsafe _ hget _ hs) h
  | condClear _ hs h => exact sceneCondClear_led hled hind hs h
  | bind h => exact sceneBind_led hled hind h
  | unbind h => exact sceneUnbind_led hled hind h

theorem indexStep_alive {act : IndexAct} (hy : Alive y.list) (hsafe : act.Safe y)
    (h : y.indexStep act = some (y', os)) : Alive y'.list := by
  cases act with
  | bindClear i =>
    rcases request_cases hy.indexed h with hsame | ⟨a, s, hget, hs, hclear⟩
    · exact hsame ▸ hy
    · exact sceneBindClear_alive hy hs (hsafe a hget s hs) hclear
  | act act =>
    rw [Engine.indexStep] at h
    cases hact : act.isRequest with
    | true => exact (step_requested hy.indexed hact h).alive hy hsafe
    | false =>
      obtain ⟨hb, hled⟩ := alive_iff.mp hy
      exact alive_iff.mpr ⟨step_bindings hb h,
        hled.touches hb.indexed (step_touches hb.indexed hact h)⟩

/-- In every run in which no condition is refused, every condition is deleted
through its own list or out of a set that keeps others, and no scene with panels
is unbound as a whole, the hash table and the scenes refer to each other. -/
theorem run_integrity {as : List IndexAct}
    (hsafe : Run.Along Engine.indexStep (fun y a => a.Safe y) .init as)
    (h : Run.run Engine.indexStep .init as = some (y, os)) : Integrity y.list := by
  have halive : Alive y.list :=
    Run.run_preserves_along (I := fun y => Alive y.list)
      (fun _ _ _ _ hz hsafe hstep => indexStep_alive hz hsafe hstep) alive_init hsafe h
  exact halive.integrity

end

namespace Sample

/-- A panel of the device `p`. -/
def button : ScenePanel := ⟨['p'], ['k'], ['1'], ['1']⟩

/-- The scene is added with a condition and a panel, and the condition is
deleted. -/
def indexRun : List IndexAct :=
  [.act (.sceneAdd text), .act (.condAdd ['1'] .or .event lamp), .act (.bind ['1'] button),
    .act (.condDel ['1'] .or .event lamp)]

/-- The scene is added with a panel, and unbound as a whole. -/
def bindClearRun : List IndexAct :=
  [.act (.sceneAdd text), .act (.bind ['1'] button), .bindClear ['1']]

/-- The engine such a run leaves; the engine as it is started where it fails. -/
def indexAfter (as : List IndexAct) : Engine :=
  ((Run.run Engine.indexStep .init as).map Prod.fst).getD .init

end Sample

open Sample in
theorem run_integrity_indexRun : Integrity (indexAfter indexRun).list := by
  have hsafe : Run.Along Engine.indexStep (fun y a => a.Safe y) .init indexRun := by decide
  have hrun : Run.run Engine.indexStep .init indexRun = some (indexAfter indexRun, []) := by decide
  exact run_integrity hsafe hrun

open Sample in
/-- A scene with a panel is unbound as a whole: the panel is freed, and still in
the list of the scene. -/
theorem run_integrity_bindClear :
    ¬ ∀ (as : List IndexAct) (y : Engine) (os : List Effect),
      Run.run Engine.indexStep .init as = some (y, os) → Integrity y.list := by
  intro h
  have hrun := h bindClearRun (indexAfter bindClearRun) [] (by decide)
  obtain ⟨e, he, -⟩ := hrun.panels ⟨0, scene (indexAfter bindClearRun).list⟩ (by decide)
    ⟨1, button⟩ (by decide)
  have hnil : (indexAfter bindClearRun).list.pHashTable = [] := by decide
  rw [hnil] at he
  cases he

end Honyar.LocalScene
