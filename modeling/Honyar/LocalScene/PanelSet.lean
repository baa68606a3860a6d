import Honyar.LocalScene.PanelChain
import Honyar.LocalScene.CondStore

/-!
# The set of panels bound to a scene

What binding, unbinding and clearing mean: a set of panels for each scene, told apart by device,
key and value, in the order in which they were bound first.  The chain in memory has it as long as
no panel is taken for another one under a text they share, and no scene with panels is cleared:
the nodes are freed then, and `pstPanel` still points at the first.
-/

namespace Honyar.LocalScene

open CText Option SceneList Function SceneInfo Store ScenePanelNode

/-! ## The set -/

/-- What tells a panel from the others. -/
def ScenePanel.texts (n : ScenePanel) : CText × CText × CText := (n.acDevId, n.acKey, n.acValue)

/-- A call for the panels of a scene, with the address of the scene. -/
inductive BindOp where
  | bind (a : Nat) (pstPanelInfo : ScenePanel)
  | unbind (a : Nat) (pstPanelInfo : ScenePanel)
  | clear (a : Nat)

/-- The set of every scene after a call. -/
def BindOp.next (t : Nat → List ScenePanel) : BindOp → Nat → List ScenePanel
  | .bind a c => Function.update t a (Store.put ScenePanel.texts c (t a))
  | .unbind a c => Function.update t a (Store.remove ScenePanel.texts c.texts (t a))
  | .clear a => Function.update t a []

/-! ## The calls -/

/-- The id of the scene at an address. -/
def SceneList.sceneId? (x : SceneList) (a : Nat) : Option CText :=
  (x.scene? a).map SceneInfo.acSceneId

/-- No panel has a node. -/
def PanelMem.start (x : SceneList) : PanelMem where
  pHashTable := x.pHashTable
  pstPanel _ := none
  nodes _ := none
  heap := x.heap

/-- A call in memory; the ids of the scenes do not change. -/
def BindOp.step (ids : Nat → Option CText) (m : PanelMem) :
    BindOp → Option (PanelMem × List ErrNo)
  | .bind a c => do
    let m' ← m.bind a (← ids a) c
    return (m', [.noErr])
  | .unbind a c => do
    let (m', r) ← m.unbind a (← ids a) c
    return (m', [r])
  | .clear a => do
    let m' ← m.bindClear a (← ids a)
    return (m', [.noErr])

/-- The call is for a scene, and its text fits the array. -/
def BindOp.Fits (ids : Nat → Option CText) : BindOp → Prop
  | .bind a c => (∃ id, ids a = some id) ∧ c.acEnable.length ≤ stateMaxLen
  | .unbind a _ => ∃ id, ids a = some id
  | .clear a => ∃ id, ids a = some id

/-- Whatever is filed for the scene under the text of the panel is a node of this panel. -/
def PanelMem.Aimed (m : PanelMem) (id : CText) (c : ScenePanel) : Prop :=
  ∀ e, ptrHashFind m.pHashTable c.hashKey id = some e →
    ∃ p n, e.panelPtr? = some p ∧ m.nodes p = some n ∧ n.data.texts = c.texts

/-- A panel is bound and unbound under a text that is its own, and a scene is cleared when it has
no panel. -/
def BindOp.Keeps (ids : Nat → Option CText) (m : PanelMem) : BindOp → Prop
  | .bind a c => ∀ id, ids a = some id → m.Aimed id c
  | .unbind a c => ∀ id, ids a = some id → m.Aimed id c
  | .clear a => m.pstPanel a = none

/-- The lists a caller gets, of whatever length it asks for. -/
def Lists (ids : Nat → Option CText) (m : PanelMem) (t : Nat → List ScenePanel) : Prop :=
  ∀ a id, ids a = some id → ∀ iDevMaxNum : Int,
    m.bindGetList a iDevMaxNum = some ((t a).take iDevMaxNum.toNat)

/-- The memory has the sets. -/
def Refines (ids : Nat → Option CText) (m : PanelMem) (t : Nat → List ScenePanel) : Prop :=
  ∃ x, Held m x ∧ (∀ a, x.sceneId? a = ids a) ∧
    ∀ a s, x.scene? a = some s → t a = s.panels

section

variable {ids : Nat → Option CText} {m m' : PanelMem} {t : Nat → List ScenePanel} {a : Nat}
variable {x x' : SceneList} {s : SceneInfo} {c : ScenePanel} {id : CText} {e : PtrNode} {p : Nat}

theorem SceneList.sceneId?_eq_some (h : x.sceneId? a = some id) :
    ∃ s, x.scene? a = some s ∧ s.acSceneId = id := map_eq_some_iff.mp h

theorem Refines.lists (h : Refines ids m t) : Lists ids m t := by
  obtain ⟨x, hheld, hids, hsets⟩ := h
  intro a id hid iDevMaxNum
  obtain ⟨s, hs, -⟩ := sceneId?_eq_some ((hids a).trans hid)
  rw [hheld.bindGetList hs, hsets a s hs]

theorem sceneId?_of_setScene {ns : List ScenePanelNode} (hs : x.scene? a = some s)
    (hlist : x'.stList = (x.setScene a { s with pstPanel := ns }).stList) (b : Nat) :
    x'.sceneId? b = x.sceneId? b := by
  obtain ⟨hself, hother⟩ := scene?_of_setScene hs hlist
  by_cases hb : b = a
  · subst hb
    rw [sceneId?, sceneId?, hself, hs]
    rfl
  · rw [sceneId?, sceneId?, hother b hb]

theorem Refines.update {ns : List ScenePanelNode} (hids : ∀ a, x.sceneId? a = ids a)
    (hsets : ∀ a s, x.scene? a = some s → t a = s.panels) (hs : x.scene? a = some s)
    (h : Held m' x') (hlist : x'.stList = (x.setScene a { s with pstPanel := ns }).stList) :
    Refines ids m' (update t a (ns.map stPanel)) := by
  obtain ⟨hself, hother⟩ := scene?_of_setScene hs hlist
  refine ⟨x', h, fun b => (sceneId?_of_setScene hs hlist b).trans (hids b), fun b u hu => ?_⟩
  by_cases hb : b = a
  · subst hb
    obtain rfl := some.inj (hself.symm.trans hu)
    rw [update_self]
    rfl
  · rw [update_of_ne hb]
    exact hsets b u ((hother b hb).symm.trans hu)

namespace Held

theorem hashKey_of_texts_eq {d : ScenePanel} (h : d.texts = c.texts) : d.hashKey = c.hashKey := by
  simp only [ScenePanel.texts, Prod.mk.injEq] at h
  rw [ScenePanel.hashKey, ScenePanel.hashKey, h.1, h.2.1, h.2.2]

theorem find_texts (h : Held m x) (hs : x.scene? a = some s) {n : ScenePanelNode}
    (hn : n ∈ s.pstPanel) (htexts : n.stPanel.texts = c.texts) :
    ∃ e, ptrHashFind x.pHashTable c.hashKey s.acSceneId = some e ∧
      e.panelPtr? = some n.addr := by
  rw [← hashKey_of_texts_eq htexts]
  exact h.find hs hn

theorem addr_eq_iff (h : Held m x) (hs : x.scene? a = some s)
    (hfind : ptrHashFind x.pHashTable c.hashKey s.acSceneId = some e)
    (hp : e.panelPtr? = some p) (haimed : m.Aimed s.acSceneId c) {n : ScenePanelNode}
    (hn : n ∈ s.pstPanel) : n.addr = p ↔ n.stPanel.texts = c.texts := by
  constructor
  · rintro rfl
    obtain ⟨q, d, hq, hd, htexts⟩ := haimed e (h.pHashTable ▸ hfind)
    obtain rfl := some.inj (hp.symm.trans hq)
    obtain ⟨d', hd', hdata⟩ := h.node hs hn
    obtain rfl := some.inj (hd.symm.trans hd')
    rw [← hdata, htexts]
  · intro htexts
    obtain ⟨e', hfind', hp'⟩ := h.find_texts hs hn htexts
    obtain rfl := some.inj (hfind.symm.trans hfind')
    exact some.inj (hp'.symm.trans hp)

theorem texts_ne_of_not_aimed (h : Held m x) (hs : x.scene? a = some s)
    (hnot : ¬ m.Aimed s.acSceneId c) : ∀ d ∈ s.panels, d.texts ≠ c.texts := by
  intro d hd htexts
  obtain ⟨n, hn, rfl⟩ := List.mem_map.mp hd
  obtain ⟨e, hfind, hp⟩ := h.find_texts hs hn htexts
  refine hnot fun e' he' => ?_
  rw [h.pHashTable] at he'
  obtain rfl := some.inj (hfind.symm.trans he')
  obtain ⟨d, hd, hdata⟩ := h.node hs hn
  exact ⟨n.addr, d, hp, hd, by rw [hdata, htexts]⟩

theorem panels_eq_of_lists (h : Held m x) (hids : ∀ a, x.sceneId? a = ids a)
    (hs : x.scene? a = some s) (hlists : Lists ids m t) : s.panels = t a := by
  have hid : ids a = some s.acSceneId := by
    rw [← hids a, sceneId?, hs]
    rfl
  have hget := hlists a _ hid (max s.panels.length (t a).length : Nat)
  have htake (cs : List ScenePanel) (hle : cs.length ≤ max s.panels.length (t a).length) :
      cs.take (Int.toNat (max s.panels.length (t a).length : Nat)) = cs := by
    rw [Int.toNat_natCast]
    exact List.take_of_length_le hle
  rw [h.bindGetList hs, htake _ (Nat.le_max_left ..), htake _ (Nat.le_max_right ..)] at hget
  exact some.inj hget

end Held

/-! ## One call -/

theorem Refines.bind (h : Refines ids m t) (hid : ids a = some id)
    (hc : c.acEnable.length ≤ stateMaxLen) (haimed : m.Aimed id c) :
    ∃ m', m.bind a id c = some m' ∧
      Refines ids m' (Function.update t a (Store.put ScenePanel.texts c (t a))) := by
  obtain ⟨x, hheld, hids, hsets⟩ := h
  obtain ⟨s, hs, rfl⟩ := sceneId?_eq_some ((hids a).trans hid)
  rw [hsets a s hs]
  cases hfind : ptrHashFind x.pHashTable c.hashKey s.acSceneId with
  | none =>
    obtain ⟨m', x', hm', -, hheld', hlist⟩ := hheld.bind_new hs hc hfind
    refine ⟨m', hm', ?_⟩
    have hput : put ScenePanel.texts c s.panels =
        (s.pstPanel ++ [(⟨x.heap, c⟩ : ScenePanelNode)]).map stPanel := by
      rw [put, if_neg, List.map_append]
      · rfl
      · intro hany
        obtain ⟨d, hd, htexts⟩ := List.any_eq_true.mp hany
        obtain ⟨n, hn, rfl⟩ := List.mem_map.mp hd
        obtain ⟨e, hfound, -⟩ := hheld.find_texts hs hn (of_decide_eq_true htexts)
        rw [hfind] at hfound
        cases hfound
    rw [hput]
    exact .update hids hsets hs hheld' hlist
  | some e =>
    obtain ⟨p, -, hp, -⟩ := haimed e (hheld.pHashTable ▸ hfind)
    obtain ⟨m', x', hm', -, hheld', hlist⟩ := hheld.bind_found hs hfind hp
    obtain ⟨-, n₀, hn₀, haddr, -⟩ := hheld.found hs hfind hp
    have hiff {n : ScenePanelNode} (hn : n ∈ s.pstPanel) :
        n.addr = p ↔ n.stPanel.texts = c.texts :=
      hheld.addr_eq_iff hs hfind hp haimed hn
    refine ⟨m', hm', ?_⟩
    have hput : put ScenePanel.texts c s.panels =
        (s.pstPanel.map fun n => if n.addr = p then { n with stPanel := n.stPanel.enable c }
          else n).map stPanel := by
      rw [put, if_pos, panels, List.map_map, List.map_map]
      · refine List.map_congr_left fun n hn => ?_
        simp only [comp_apply]
        by_cases hna : n.addr = p
        · have htexts := (hiff hn).mp hna
          rw [if_pos htexts, if_pos hna]
          simp only [ScenePanel.texts, Prod.mk.injEq] at htexts
          obtain ⟨hdev, hkey, hvalue⟩ := htexts
          simp only [ScenePanel.enable, strncpy, List.take_of_length_le hc, hdev, hkey, hvalue]
        · rw [if_neg fun htexts => hna ((hiff hn).mpr htexts), if_neg hna]
      · exact List.any_eq_true.mpr ⟨n₀.stPanel, List.mem_map_of_mem hn₀,
          decide_eq_true ((hiff hn₀).mp haddr)⟩
    rw [hput]
    exact .update hids hsets hs hheld' hlist

theorem Refines.unbind (h : Refines ids m t) (hid : ids a = some id) (haimed : m.Aimed id c) :
    ∃ m' r, m.unbind a id c = some (m', r) ∧
      Refines ids m' (Function.update t a (Store.remove ScenePanel.texts c.texts (t a))) := by
  obtain ⟨x, hheld, hids, hsets⟩ := h
  obtain ⟨s, hs, rfl⟩ := sceneId?_eq_some ((hids a).trans hid)
  cases hfind : ptrHashFind x.pHashTable c.hashKey s.acSceneId with
  | none =>
    have hnone : ptrHashFind m.pHashTable c.hashKey s.acSceneId = none := by
      rw [hheld.pHashTable, hfind]
    refine ⟨m, .notFoundErr, by rw [PanelMem.unbind, hnone]; rfl, ?_⟩
    have hremove : remove ScenePanel.texts c.texts (t a) = t a := by
      refine List.filter_eq_self.mpr fun d hd => decide_eq_true fun htexts => ?_
      rw [hsets a s hs] at hd
      obtain ⟨n, hn, rfl⟩ := List.mem_map.mp hd
      obtain ⟨e, hfound, -⟩ := hheld.find_texts hs hn htexts
      rw [hfind] at hfound
      cases hfound
    rw [hremove, update_eq_self]
    exact ⟨x, hheld, hids, hsets⟩
  | some e =>
    obtain ⟨p, -, hp, -⟩ := haimed e (hheld.pHashTable ▸ hfind)
    obtain ⟨m', x', hm', -, hheld', hlist⟩ := hheld.unbind_found hs hfind hp
    refine ⟨m', .noErr, hm', ?_⟩
    have hremove : remove ScenePanel.texts c.texts (t a) =
        (s.pstPanel.filter (·.addr != p)).map stPanel := by
      rw [hsets a s hs, panels, remove, List.filter_map]
      refine congrArg (List.map _) (List.filter_congr fun n hn => ?_)
      rw [Bool.eq_iff_iff, comp_apply, decide_eq_true_eq, bne_iff_ne, Ne, Ne,
        hheld.addr_eq_iff hs hfind hp haimed hn]
    rw [hremove]
    exact .update hids hsets hs hheld' hlist

theorem Refines.step {op : BindOp} (h : Refines ids m t) (hfits : op.Fits ids)
    (hkeeps : op.Keeps ids m) :
    ∃ m' os, op.step ids m = some (m', os) ∧ Refines ids m' (op.next t) := by
  cases op with
  | bind a c =>
    obtain ⟨⟨id, hid⟩, hc⟩ := hfits
    obtain ⟨m', hm', hrefines⟩ := h.bind hid hc (hkeeps id hid)
    refine ⟨m', [.noErr], ?_, hrefines⟩
    simp only [BindOp.step, hid, hm', bind_eq_bind, bind_some, pure_def]
  | unbind a c =>
    obtain ⟨id, hid⟩ := hfits
    obtain ⟨m', r, hm', hrefines⟩ := h.unbind hid (hkeeps id hid)
    refine ⟨m', [r], ?_, hrefines⟩
    simp only [BindOp.step, hid, hm', bind_eq_bind, bind_some, pure_def]
  | clear a =>
    obtain ⟨id, hid⟩ := hfits
    have hhead : m.pstPanel a = none := hkeeps
    refine ⟨m, [.noErr], ?_, ?_⟩
    · have hfree : m.bindClear a id = some m := by
        rw [PanelMem.bindClear, hhead, Chain.freeFrom_none]
        rfl
      simp only [BindOp.step, hid, hfree, bind_eq_bind, bind_some,
        pure_def]
    · obtain ⟨x, hheld, hids, hsets⟩ := h
      obtain ⟨s, hs, -⟩ := sceneId?_eq_some ((hids a).trans hid)
      have hnil : t a = [] := by
        have hchain := (hheld.chain a s hs).head
        rw [hhead] at hchain
        rw [hsets a s hs, panels]
        cases hpanels : s.pstPanel with
        | nil => rfl
        | cons n ns =>
          rw [hpanels] at hchain
          cases hchain
      rw [BindOp.next, ← hnil, update_eq_self]
      exact ⟨x, hheld, hids, hsets⟩

/-- A call that does not keep the sets leaves other lists than it should. -/
theorem Refines.keeps_of_lists {op : BindOp} {os : List ErrNo} (h : Refines ids m t)
    (hfits : op.Fits ids) (hstep : op.step ids m = some (m', os))
    (hlists : Lists ids m' (op.next t)) : op.Keeps ids m := by
  obtain ⟨x, hheld, hids, hsets⟩ := h
  -- what is found when the call is not aimed
  have hfound {s : SceneInfo} {c : ScenePanel} (hnot : ¬ m.Aimed s.acSceneId c) :
      ∃ e, ptrHashFind x.pHashTable c.hashKey s.acSceneId = some e := by
    obtain ⟨e, he⟩ := not_forall.mp hnot
    exact ⟨e, hheld.pHashTable ▸ (Classical.not_imp.mp he).1⟩
  cases op with
  | bind a c =>
    obtain ⟨⟨id, hid⟩, -⟩ := hfits
    obtain ⟨s, hs, rfl⟩ := sceneId?_eq_some ((hids a).trans hid)
    intro id' hid'
    obtain rfl := some.inj (hid.symm.trans hid')
    by_contra hnot
    obtain ⟨e, hfind⟩ := hfound hnot
    simp only [BindOp.step, hid, bind_eq_bind, bind_some, bind_eq_some_iff,
      pure_def, some.injEq, Prod.mk.injEq] at hstep
    obtain ⟨m₁, hbind, rfl, -⟩ := hstep
    have hp : ∃ p, e.panelPtr? = some p := by
      rw [PanelMem.bind, hheld.pHashTable, hfind] at hbind
      obtain ⟨p, hp, -⟩ := bind_eq_some_iff.mp hbind
      exact ⟨p, hp⟩
    obtain ⟨p, hp⟩ := hp
    obtain ⟨m₂, x', hm₂, -, hheld', hlist⟩ := hheld.bind_found hs hfind hp
    obtain rfl := some.inj (hbind.symm.trans hm₂)
    -- as many panels as before, where there should be one more
    have hpanels := hheld'.panels_eq_of_lists
      (fun b => (sceneId?_of_setScene hs hlist b).trans (hids b))
      (scene?_of_setScene hs hlist).1 hlists
    rw [BindOp.next, update_self, hsets a s hs, put, if_neg] at hpanels
    · have hlen := congrArg List.length hpanels
      simp [panels] at hlen
    · intro hany
      obtain ⟨d, hd, htexts⟩ := List.any_eq_true.mp hany
      exact hheld.texts_ne_of_not_aimed hs hnot d hd (of_decide_eq_true htexts)
  | unbind a c =>
    obtain ⟨id, hid⟩ := hfits
    obtain ⟨s, hs, rfl⟩ := sceneId?_eq_some ((hids a).trans hid)
    intro id' hid'
    obtain rfl := some.inj (hid.symm.trans hid')
    by_contra hnot
    obtain ⟨e, hfind⟩ := hfound hnot
    simp only [BindOp.step, hid, bind_eq_bind, bind_some, bind_eq_some_iff,
      pure_def, some.injEq, Prod.mk.injEq, Prod.exists] at hstep
    obtain ⟨m₁, r, hunbind, rfl, -⟩ := hstep
    have hp : ∃ p, e.panelPtr? = some p := by
      rw [PanelMem.unbind, hheld.pHashTable, hfind] at hunbind
      obtain ⟨p, hp, -⟩ := bind_eq_some_iff.mp hunbind
      exact ⟨p, hp⟩
    obtain ⟨p, hp⟩ := hp
    obtain ⟨m₂, x', hm₂, -, hheld', hlist⟩ := hheld.unbind_found hs hfind hp
    obtain ⟨rfl, -⟩ := Prod.mk.inj (some.inj (hunbind.symm.trans hm₂))
    obtain ⟨-, n₀, hn₀, haddr, -⟩ := hheld.found hs hfind hp
    -- a panel less, where all should be left
    have hpanels := hheld'.panels_eq_of_lists
      (fun b => (sceneId?_of_setScene hs hlist b).trans (hids b))
      (scene?_of_setScene hs hlist).1 hlists
    have hremove : remove ScenePanel.texts c.texts (t a) = s.panels := by
      rw [hsets a s hs]
      exact List.filter_eq_self.mpr fun d hd =>
        decide_eq_true (hheld.texts_ne_of_not_aimed hs hnot d hd)
    rw [BindOp.next, update_self, hremove] at hpanels
    have hlen := congrArg List.length hpanels
    rw [panels, panels, List.length_map, List.length_map,
      List.length_filter_eq_length_iff] at hlen
    exact bne_iff_ne.mp (hlen n₀ hn₀) haddr
  | clear a =>
    obtain ⟨id, hid⟩ := hfits
    show m.pstPanel a = none
    cases hhead : m.pstPanel a with
    | none => rfl
    | some p =>
      simp only [BindOp.step, hid, PanelMem.bindClear, bind_eq_bind, bind_some,
        bind_eq_some_iff, pure_def, some.injEq, Prod.mk.injEq,
        Prod.exists] at hstep
      obtain ⟨m₁, ⟨nodes, h, hfree, rfl⟩, rfl, -⟩ := hstep
      -- the first node is gone, and still the first
      rw [hhead] at hfree
      have hgone := Chain.freeFrom_head hfree
      have hget := hlists a id hid 0
      rw [PanelMem.bindGetList] at hget
      dsimp only at hget
      rw [hhead, Chain.foldFrom_of_gone hgone] at hget
      cases hget

theorem refines_start (hx : Indexed x) (hnone : ∀ n ∈ x.stList, n.stSceneInfo.pstPanel = [])
    (hfree : ∀ e ∈ x.pHashTable, e.2.panelPtr? = none) :
    Refines x.sceneId? (.start x) fun _ => [] := by
  have hempty (a : Nat) (s : SceneInfo) (hs : x.scene? a = some s) : s.pstPanel = [] :=
    hnone _ (mem_of_scene? hs)
  refine ⟨x, ⟨hx, rfl, rfl, ?_, ?_, ?_, ?_, ?_, ?_⟩, fun _ => rfl, ?_⟩
  · intro a s hs
    rw [hempty a s hs]
    exact Chain.isChain_nil
  · intro a s hs b u _ n hn
    rw [hempty a s hs] at hn
    cases hn
  · intro a s hs n hn
    rw [hempty a s hs] at hn
    cases hn
  · intro a s hs n hn
    rw [hempty a s hs] at hn
    cases hn
  · intro a s hs n hn
    rw [hempty a s hs] at hn
    cases hn
  · intro e he p hp
    have hnone := hfree e he
    rw [PtrNode.panelPtr?, hp] at hnone
    cases hnone
  · intro a s hs
    rw [panels, hempty a s hs]
    rfl

end

/-! ## Runs -/

/-- From scenes without panels on, a run of calls goes through and every scene has its set of
panels after each of them exactly when every call keeps the sets. -/
theorem panels_refine_iff {y : Engine} {as : List Act} {fx : List Effect}
    (hstart : Run.run Engine.step .init as = some (y, fx))
    (hnone : ∀ n ∈ y.list.stList, n.stSceneInfo.pstPanel = [])
    (hfree : ∀ e ∈ y.list.pHashTable, e.2.panelPtr? = none) {ops : List BindOp}
    (hops : ∀ op ∈ ops, op.Fits y.list.sceneId?) :
    (∃ m os, Run.run (BindOp.step y.list.sceneId?) (.start y.list) ops = some (m, os) ∧
        ∀ bs m' ob, bs <+: ops →
          Run.run (BindOp.step y.list.sceneId?) (.start y.list) bs = some (m', ob) →
            Lists y.list.sceneId? m' (bs.foldl BindOp.next fun _ => [])) ↔
      Run.Along (BindOp.step y.list.sceneId?) (BindOp.Keeps y.list.sceneId?) (.start y.list)
        ops :=
  Run.observed_iff_along BindOp.next (fun _ _ h => h.lists)
    (fun _ _ _ h hfits hkeeps => h.step hfits hkeeps)
    (fun _ _ _ _ _ h hfits hstep hlists => h.keeps_of_lists hfits hstep hlists)
    (refines_start (run_indexed hstart) hnone hfree) hops

namespace Sample

/-- A panel is bound, bound again with another enabling, and unbound. -/
def panelOps : List BindOp :=
  [.bind 0 button, .bind 0 { button with acEnable := ['0'] }, .unbind 0 button]

/-- A panel is bound, and the scene cleared. -/
def clearOps : List BindOp := [.bind 0 button, .clear 0]

end Sample

open Sample in
theorem panels_refine_iff_unbound :
    (∃ m os, Run.run (BindOp.step (engineAfter emptyRun).list.sceneId?)
        (.start (engineAfter emptyRun).list) panelOps = some (m, os) ∧
        ∀ bs m' ob, bs <+: panelOps →
          Run.run (BindOp.step (engineAfter emptyRun).list.sceneId?)
            (.start (engineAfter emptyRun).list) bs = some (m', ob) →
            Lists (engineAfter emptyRun).list.sceneId? m' (bs.foldl BindOp.next fun _ => [])) ↔
      Run.Along (BindOp.step (engineAfter emptyRun).list.sceneId?)
        (BindOp.Keeps (engineAfter emptyRun).list.sceneId?) (.start (engineAfter emptyRun).list)
        panelOps := by
  refine panels_refine_iff run_emptyRun (by decide) (by decide) fun op hop => ?_
  have hid : (engineAfter emptyRun).list.sceneId? 0 = some ['1'] := by decide
  simp only [panelOps, List.mem_cons, List.not_mem_nil, or_false] at hop
  rcases hop with rfl | rfl | rfl
  · exact ⟨⟨_, hid⟩, by decide⟩
  · exact ⟨⟨_, hid⟩, by decide⟩
  · exact ⟨_, hid⟩

open Sample in
/-- A scene with a panel is cleared, and the next list reads the node that was freed. -/
theorem panels_not_refine :
    ¬ ∀ (y : Engine) (as : List Act) (fx : List Effect),
      Run.run Engine.step .init as = some (y, fx) →
      (∀ n ∈ y.list.stList, n.stSceneInfo.pstPanel = []) →
      (∀ e ∈ y.list.pHashTable, e.2.panelPtr? = none) → ∀ ops : List BindOp,
      (∀ op ∈ ops, op.Fits y.list.sceneId?) →
      ∃ m os, Run.run (BindOp.step y.list.sceneId?) (.start y.list) ops = some (m, os) ∧
        ∀ bs m' ob, bs <+: ops →
          Run.run (BindOp.step y.list.sceneId?) (.start y.list) bs = some (m', ob) →
            Lists y.list.sceneId? m' (bs.foldl BindOp.next fun _ => []) := by
  intro h
  have hid : (engineAfter emptyRun).list.sceneId? 0 = some ['1'] := by decide
  obtain ⟨m, os, hrun, hlists⟩ := h _ _ _ run_emptyRun (by decide) (by decide) clearOps
    fun op hop => by
      simp only [clearOps, List.mem_cons, List.not_mem_nil, or_false] at hop
      rcases hop with rfl | rfl
      · exact ⟨⟨_, hid⟩, by decide⟩
      · exact ⟨_, hid⟩
  have hget := hlists clearOps m os (List.prefix_refl _) hrun 0 _ hid 1
  have hgone : (Run.run (BindOp.step (engineAfter emptyRun).list.sceneId?)
      (.start (engineAfter emptyRun).list) clearOps).map (fun r => r.1.bindGetList 0 1) =
        some none := by decide
  rw [hrun, map_some, some.injEq] at hgone
  cases hget.symm.trans hgone

end Honyar.LocalScene
