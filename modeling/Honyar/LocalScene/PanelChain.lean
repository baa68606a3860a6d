import Honyar.Lib.Chain
import Honyar.Lib.Store
import Honyar.LocalScene.IntegrityRun
import Honyar.LocalScene.ListSync

/-!
# The panels of a scene in memory

`scene_bind`, `scene_unbind`, `scene_bind_clear` and `scene_bind_get_list` as they work on the
chain that hangs off `pstPanel`, with the node pointers the hash table keeps.  As long as every
node a pointer leads to is there, they are the operations on lists of panels that the rest of the
engine uses (`Held`).
-/

namespace Honyar.LocalScene

open CText Option List Function SceneList

/-! ## The operations -/

/-- The nodes `scene_panel_node_t`, the first one of every scene, and the hash table. -/
structure PanelMem where
  pHashTable : PtrHash
  pstPanel : Nat → Option Nat
  nodes : Chain.Heap ScenePanel
  heap : Nat

/-- The panel with another enabling. -/
def ScenePanel.enable (d c : ScenePanel) : ScenePanel :=
  { d with acEnable := strncpy stateMaxLen c.acEnable }

namespace PanelMem

/-- `scene_bind`, for the scene at `a`. -/
def bind (m : PanelMem) (a : Nat) (acSceneId : CText) (pstPanelInfo : ScenePanel) :
    Option PanelMem :=
  match ptrHashFind m.pHashTable pstPanelInfo.hashKey acSceneId with
  | some e => do
    let p ← e.panelPtr?
    let n ← m.nodes p
    if strncmpEq stateMaxLen n.data.acEnable pstPanelInfo.acEnable then return m
    else
      let nodes ← Chain.write m.nodes p fun n => { n with data := n.data.enable pstPanelInfo }
      return { m with nodes := nodes }
  | none => do
    let pNew := m.heap
    let nodes := Function.update m.nodes pNew (some ⟨none, none, pstPanelInfo⟩)
    let (nodes, head) ← Chain.link nodes m.heap (m.pstPanel a) pNew
    return {
      pHashTable := ptrHashInst m.pHashTable pstPanelInfo.hashKey
        { addr := m.heap + 1
          acId := strncpy indexMaxLen acSceneId
          pstScene := a
          target := .panel pNew }
      pstPanel := Function.update m.pstPanel a head
      nodes := nodes
      heap := m.heap + 2 }

/-- `scene_unbind`. -/
def unbind (m : PanelMem) (a : Nat) (acSceneId : CText) (pstPanelInfo : ScenePanel) :
    Option (PanelMem × ErrNo) :=
  match ptrHashFind m.pHashTable pstPanelInfo.hashKey acSceneId with
  | some e => do
    let p ← e.panelPtr?
    let (nodes, head) ← Chain.unlink m.nodes (m.pstPanel a) p
    return ({ m with
      pHashTable := ptrHashDel m.pHashTable pstPanelInfo.hashKey acSceneId
      pstPanel := Function.update m.pstPanel a head
      nodes := nodes }, .noErr)
  | none => return (m, .notFoundErr)

/-- `scene_bind_clear`: the nodes are taken out of the hash table and freed, and `pstPanel` is
not written. -/
def bindClear (m : PanelMem) (a : Nat) (acSceneId : CText) : Option PanelMem := do
  let (nodes, h) ← Chain.freeFrom
    (fun h (c : ScenePanel) => ptrHashDel h c.hashKey acSceneId) m.heap (m.pstPanel a) m.nodes
    m.pHashTable
  return { m with pHashTable := h, nodes := nodes }

/-- `scene_bind_get_list`, with room for `iDevMaxNum` panels. -/
def bindGetList (m : PanelMem) (a : Nat) (iDevMaxNum : Int) : Option (List ScenePanel) :=
  Chain.foldFrom m.nodes
    (fun pastPanelInfo c =>
      if (pastPanelInfo.length : Int) < iDevMaxNum then pastPanelInfo ++ [c] else pastPanelInfo)
    m.heap (m.pstPanel a) []

end PanelMem

/-! ## The chain of a list of panels -/

/-- The panels with the addresses of their nodes. -/
def panelChain (ns : List ScenePanelNode) : List (Nat × ScenePanel) :=
  ns.map fun n => (n.addr, n.stPanel)

@[simp] theorem map_fst_panelChain (ns : List ScenePanelNode) :
    (panelChain ns).map Prod.fst = ns.map ScenePanelNode.addr := map_map

/-- The nodes in memory are those of the scenes of the list, and the hash table leads to them and
to no other. -/
structure Held (m : PanelMem) (x : SceneList) : Prop where
  indexed : Indexed x
  pHashTable : m.pHashTable = x.pHashTable
  heap : m.heap = x.heap
  chain : ∀ a s, x.scene? a = some s →
    Chain.IsChain m.nodes (m.pstPanel a) (panelChain s.pstPanel)
  apart : ∀ a s, x.scene? a = some s → ∀ b t, x.scene? b = some t → ∀ n ∈ s.pstPanel,
    ∀ n' ∈ t.pstPanel, n.addr = n'.addr → a = b
  below : ∀ a s, x.scene? a = some s → ∀ n ∈ s.pstPanel, n.addr < x.heap
  fits : ∀ a s, x.scene? a = some s → ∀ n ∈ s.pstPanel,
    n.stPanel.acEnable.length ≤ stateMaxLen
  filed : ∀ a s, x.scene? a = some s → ∀ n ∈ s.pstPanel,
    ∃ e, (n.stPanel.hashKey, e) ∈ x.pHashTable ∧ e.pstScene = a ∧ e.target = .panel n.addr
  sound : ∀ e ∈ x.pHashTable, ∀ p, e.2.target = .panel p →
    ∃ s, x.scene? e.2.pstScene = some s ∧
      ∃ n ∈ s.pstPanel, n.addr = p ∧ n.stPanel.hashKey = e.1

/-- The half of `Held` that is about the memory. -/
structure Chained (m : PanelMem) (x : SceneList) : Prop where
  pHashTable : m.pHashTable = x.pHashTable
  heap : m.heap = x.heap
  chain : ∀ a s, x.scene? a = some s →
    Chain.IsChain m.nodes (m.pstPanel a) (panelChain s.pstPanel)
  apart : ∀ a s, x.scene? a = some s → ∀ b t, x.scene? b = some t → ∀ n ∈ s.pstPanel,
    ∀ n' ∈ t.pstPanel, n.addr = n'.addr → a = b
  fits : ∀ a s, x.scene? a = some s → ∀ n ∈ s.pstPanel,
    n.stPanel.acEnable.length ≤ stateMaxLen

theorem held_iff {m : PanelMem} {x : SceneList} : Held m x ↔ Bindings x ∧ Chained m x := by
  constructor
  · intro h
    have hscene {n : SceneNode} (hn : n ∈ x.stList) : x.scene? n.addr = some n.stSceneInfo :=
      h.indexed.scene?_eq_some hn
    refine ⟨⟨h.indexed, fun n hn => ⟨?_, fun q hq => ?_⟩, fun e he p hp => ?_,
      fun n hn q hq => ?_⟩, h.pHashTable, h.heap, h.chain, h.apart, h.fits⟩
    · have hnodup := (h.chain _ _ (hscene hn)).nodup
      rw [map_fst_panelChain] at hnodup
      rwa [SceneInfo.panelKeys, List.map_map]
    · obtain ⟨m, hm, rfl⟩ := List.mem_map.mp hq
      exact h.below _ _ (hscene hn) m hm
    · obtain ⟨s, hs, hn⟩ := h.sound e he p hp
      exact ⟨_, SceneList.mem_of_scene? hs, rfl, SceneInfo.mem_panelKeys.mpr hn⟩
    · obtain ⟨m, hm, rfl⟩ := List.mem_map.mp hq
      exact h.filed _ _ (hscene hn) m hm
  · rintro ⟨hb, h⟩
    refine ⟨hb.indexed, h.pHashTable, h.heap, h.chain, h.apart, fun a s hs n hn => ?_, h.fits,
      fun a s hs n hn => ?_, fun e he p hp => ?_⟩
    · exact (hb.addrs _ (SceneList.mem_of_scene? hs)).2 _ (List.mem_map_of_mem hn)
    · exact hb.filed _ (SceneList.mem_of_scene? hs) _ (List.mem_map_of_mem hn)
    · obtain ⟨n, hn, hne, hkeys⟩ := hb.sound e he p hp
      exact ⟨_, hne ▸ hb.indexed.scene?_eq_some hn, SceneInfo.mem_panelKeys.mp hkeys⟩

theorem scene?_of_setScene {x x' : SceneList} {a : Nat} {s s' : SceneInfo}
    (hs : x.scene? a = some s) (hlist : x'.stList = (x.setScene a s').stList) :
    x'.scene? a = some s' ∧ ∀ b, b ≠ a → x'.scene? b = x.scene? b := by
  constructor
  · rw [scene?, hlist]
    exact scene?_setScene_self hs _
  · intro b hb
    rw [scene?, hlist]
    exact scene?_setScene_of_ne hb _

namespace Held

variable {m m' : PanelMem} {x x' : SceneList} {a b p : Nat} {s s' : SceneInfo} {e : PtrNode}
variable {c : ScenePanel} {key : CText} {ns : List ScenePanelNode}

theorem nodup (h : Held m x) (hs : x.scene? a = some s) :
    (s.pstPanel.map ScenePanelNode.addr).Nodup := by
  rw [← map_fst_panelChain]
  exact (h.chain a s hs).nodup

theorem length_le (h : Held m x) (hs : x.scene? a = some s) : s.pstPanel.length ≤ m.heap := by
  have hsub : s.pstPanel.map ScenePanelNode.addr ⊆ range m.heap := by
    intro p hp
    obtain ⟨n, hn, rfl⟩ := mem_map.mp hp
    rw [mem_range, h.heap]
    exact h.below a s hs n hn
  simpa using ((h.nodup hs).subperm hsub).length_le

theorem node (h : Held m x) (hs : x.scene? a = some s) {n : ScenePanelNode}
    (hn : n ∈ s.pstPanel) : ∃ d, m.nodes n.addr = some d ∧ d.data = n.stPanel :=
  (h.chain a s hs).exists_eq (mem_map_of_mem hn)

theorem found (h : Held m x) (hs : x.scene? a = some s)
    (hfind : ptrHashFind x.pHashTable key s.acSceneId = some e) (hp : e.panelPtr? = some p) :
    e.pstScene = a ∧ ∃ n ∈ s.pstPanel, n.addr = p ∧ n.stPanel.hashKey = key := by
  obtain ⟨he, -⟩ := mem_of_ptrHashFind hfind
  obtain ⟨t, ht, hn⟩ := h.sound _ he p (e.target_of_panelPtr? hp)
  have ha := h.indexed.pstScene_eq hs hfind ht
  rw [show (key, e).2.pstScene = a from ha] at ht
  obtain rfl := some.inj (hs.symm.trans ht)
  exact ⟨ha, hn⟩

theorem find (h : Held m x) (hs : x.scene? a = some s) {n : ScenePanelNode}
    (hn : n ∈ s.pstPanel) :
    ∃ e, ptrHashFind x.pHashTable n.stPanel.hashKey s.acSceneId = some e ∧
      e.panelPtr? = some n.addr := by
  obtain ⟨e, he, hea, htarget⟩ := h.filed a s hs n hn
  have hfilter := h.indexed.filter_isFor (mem_of_scene? hs) he hea
  refine ⟨e, ?_, by rw [PtrNode.panelPtr?, htarget]⟩
  rw [ptrHashFind, ← head?_filter, hfilter]
  rfl

/-- The panels of one scene change, with its chain and its part of the table. -/
theorem update (h : Held m x) (hs : x.scene? a = some s) (hx' : Bindings x')
    (hlist : x'.stList = (x.setScene a { s with pstPanel := ns }).stList)
    (htable : m'.pHashTable = x'.pHashTable) (hheap : m'.heap = x'.heap)
    (hchain : Chain.IsChain m'.nodes (m'.pstPanel a) (panelChain ns))
    (hhead : ∀ b, b ≠ a → m'.pstPanel b = m.pstPanel b)
    (hnodes : ∀ q, q < x.heap → q ∉ s.pstPanel.map ScenePanelNode.addr → m'.nodes q = m.nodes q)
    (haddr : ∀ n ∈ ns, (∃ n' ∈ s.pstPanel, n'.addr = n.addr) ∨ x.heap ≤ n.addr)
    (hfits : ∀ n ∈ ns, n.stPanel.acEnable.length ≤ stateMaxLen) : Held m' x' := by
  obtain ⟨hself, hother⟩ := scene?_of_setScene hs hlist
  -- a scene afterwards is the one that was written, or one before
  have hcases {P : Nat → SceneInfo → Prop} (hthis : P a { s with pstPanel := ns })
      (hrest : ∀ b t, b ≠ a → x.scene? b = some t → P b t) :
      ∀ b t, x'.scene? b = some t → P b t := by
    intro b t ht
    by_cases hb : b = a
    · subst hb
      rwa [← some.inj (hself.symm.trans ht)]
    · exact hrest b t hb ((hother b hb).symm.trans ht)
  have hfresh (b : Nat) (t : SceneInfo) (hb : b ≠ a) (ht : x.scene? b = some t)
      (n : ScenePanelNode) (hn : n ∈ t.pstPanel) :
      n.addr < x.heap ∧ n.addr ∉ s.pstPanel.map ScenePanelNode.addr := by
    refine ⟨h.below b t ht n hn, fun hmem => ?_⟩
    obtain ⟨n', hn', heq⟩ := mem_map.mp hmem
    exact hb (h.apart a s hs b t ht n' hn' n hn heq).symm
  refine held_iff.mpr ⟨hx', htable, hheap, hcases hchain ?_, ?_, hcases hfits ?_⟩
  · intro b t hb ht
    rw [hhead b hb]
    refine (h.chain b t ht).congr fun q hq => ?_
    rw [map_fst_panelChain] at hq
    obtain ⟨n, hn, rfl⟩ := mem_map.mp hq
    obtain ⟨hlt, hnot⟩ := hfresh b t hb ht n hn
    exact hnodes _ hlt hnot
  · -- the new addresses are none of another scene
    have hnew (b : Nat) (t : SceneInfo) (hb : b ≠ a) (ht : x.scene? b = some t) :
        ∀ n ∈ ns, ∀ n' ∈ t.pstPanel, n.addr ≠ n'.addr := by
      intro n hn n' hn' heq
      obtain ⟨hlt, hnot⟩ := hfresh b t hb ht n' hn'
      rcases haddr n hn with ⟨n'', hn'', heq'⟩ | hge
      · exact hnot (mem_map.mpr ⟨n'', hn'', heq'.trans heq⟩)
      · exact absurd (heq ▸ hlt) (Nat.not_lt_of_le hge)
    refine hcases (fun b t ht => ?_) fun b t hb ht => ?_
    · by_cases hb : b = a
      · exact fun _ _ _ _ _ => hb.symm
      · intro n hn n' hn' heq
        exact absurd heq (hnew b t hb ((hother b hb).symm.trans ht) n hn n' hn')
    · intro b' t' ht'
      by_cases hb' : b' = a
      · subst hb'
        obtain rfl := some.inj (hself.symm.trans ht')
        intro n hn n' hn' heq
        exact absurd heq.symm (hnew b t hb ht n' hn' n hn)
      · exact h.apart b t ht b' t' ((hother b' hb').symm.trans ht')
  · exact fun b t _ ht => h.fits b t ht

/-! ## The operations on the lists -/

theorem bind_new (h : Held m x) (hs : x.scene? a = some s) (hc : c.acEnable.length ≤ stateMaxLen)
    (hfind : ptrHashFind x.pHashTable c.hashKey s.acSceneId = none) :
    ∃ m' x', m.bind a s.acSceneId c = some m' ∧ sceneBind x a c = some x' ∧ Held m' x' ∧
      x'.stList = (x.setScene a { s with pstPanel := s.pstPanel ++ [⟨x.heap, c⟩] }).stList := by
  have hfind' : ptrHashFind x.pHashTable (panelHashKey c.acDevId c.acKey c.acValue) s.acSceneId =
      none := hfind
  have hbind : ∃ x', sceneBind x a c = some x' ∧
      x'.stList = (x.setScene a { s with pstPanel := s.pstPanel ++ [⟨x.heap, c⟩] }).stList ∧
      x'.heap = x.heap + 2 ∧ x'.pHashTable = ptrHashInst x.pHashTable c.hashKey
        ⟨x.heap + 1, strncpy indexMaxLen s.acSceneId, a, .panel x.heap⟩ := by
    simp only [sceneBind, hs, bind_eq_bind, bind_some, hfind', Option.pure_def]
    exact ⟨_, rfl, rfl, rfl, rfl⟩
  obtain ⟨x', hx', hlist, hheap, htable⟩ := hbind
  -- the new node is linked
  have hnot : m.heap ∉ (panelChain s.pstPanel).map Prod.fst := by
    rw [map_fst_panelChain]
    intro hmem
    obtain ⟨n, hn, heq⟩ := List.mem_map.mp hmem
    exact absurd (h.heap ▸ h.below a s hs n hn) (by rw [heq]; exact Nat.lt_irrefl _)
  have hold : Chain.IsChain (Function.update m.nodes m.heap (some ⟨none, none, c⟩))
      (m.pstPanel a) (panelChain s.pstPanel) :=
    (h.chain a s hs).congr fun q hq => Function.update_of_ne (ne_of_mem_of_not_mem hq hnot) _ _
  obtain ⟨nodes, head, hlink, hchain, hother⟩ := hold.link (n := m.heap) (x := c)
    (by rw [panelChain, length_map]; exact h.length_le hs) (Function.update_self ..)
    ⟨rfl, rfl, rfl⟩ hnot
  refine ⟨⟨ptrHashInst m.pHashTable c.hashKey
      ⟨m.heap + 1, strncpy indexMaxLen s.acSceneId, a, .panel m.heap⟩,
    Function.update m.pstPanel a head, nodes, m.heap + 2⟩, x', ?_, hx', ?_, hlist⟩
  · rw [PanelMem.bind, h.pHashTable, hfind]
    dsimp only
    rw [hlink]
    rfl
  refine h.update hs (sceneBind_bindings (held_iff.mp h).1 hx') hlist ?_ (by rw [hheap, h.heap])
    ?_ (fun b hb => Function.update_of_ne hb _ _) ?_ ?_ ?_
  · rw [htable, h.pHashTable, h.heap]
  · dsimp only
    rw [Function.update_self, panelChain, map_append, ← h.heap]
    exact hchain
  · intro q hq hqs
    have hqh : q ≠ m.heap := by
      rw [h.heap]
      exact Nat.ne_of_lt hq
    rw [← map_fst_panelChain] at hqs
    exact (hother q hqh hqs).trans (Function.update_of_ne hqh _ _)
  · intro n hn
    rcases mem_append.mp hn with hn | hn
    · exact .inl ⟨n, hn, rfl⟩
    · obtain rfl := mem_singleton.mp hn
      exact .inr le_rfl
  · intro n hn
    rcases mem_append.mp hn with hn | hn
    · exact h.fits a s hs n hn
    · obtain rfl := mem_singleton.mp hn
      exact hc

theorem bind_found (h : Held m x) (hs : x.scene? a = some s)
    (hfind : ptrHashFind x.pHashTable c.hashKey s.acSceneId = some e)
    (hp : e.panelPtr? = some p) :
    ∃ m' x', m.bind a s.acSceneId c = some m' ∧ sceneBind x a c = some x' ∧ Held m' x' ∧
      x'.stList = (x.setScene a { s with pstPanel := s.pstPanel.map fun n =>
        if n.addr = p then { n with stPanel := n.stPanel.enable c } else n }).stList := by
  obtain ⟨hea, n₀, hn₀, rfl, -⟩ := h.found hs hfind hp
  set change : ScenePanelNode → ScenePanelNode := fun n =>
    { n with stPanel := n.stPanel.enable c } with hchange
  set ns := s.pstPanel.map fun n => if n.addr = n₀.addr then change n else n with hns
  have hfind' : ptrHashFind x.pHashTable (panelHashKey c.acDevId c.acKey c.acValue) s.acSceneId =
      some e := hfind
  have hbind : sceneBind x a c = some (x.setScene a { s with pstPanel := ns }) := by
    simp only [sceneBind, hs, bind_eq_bind, bind_some, hfind', hp, hea,
      Option.pure_def]
    rfl
  -- the chain, with the panel of the node written
  obtain ⟨as, bs, hsplit⟩ := append_of_mem hn₀
  have hnodup := h.nodup hs
  have hns' : ns = as ++ change n₀ :: bs := by
    rw [hsplit] at hnodup
    rw [hns, hsplit]
    exact Keyed.map_write_split hnodup
  have hchain := h.chain a s hs
  rw [hsplit, panelChain, map_append, map_cons] at hchain
  have hnode : m.nodes n₀.addr = some _ := hchain.heap_eq
  have hmem : ∃ m', m.bind a s.acSceneId c = some m' ∧ m'.pHashTable = m.pHashTable ∧
      m'.heap = m.heap ∧ m'.pstPanel = m.pstPanel ∧
      Chain.IsChain m'.nodes (m'.pstPanel a) (panelChain ns) ∧
      ∀ q, q ≠ n₀.addr → m'.nodes q = m.nodes q := by
    have hfindm : ptrHashFind m.pHashTable c.hashKey s.acSceneId = some e := by
      rw [h.pHashTable, hfind]
    rw [PanelMem.bind, hfindm]
    dsimp only
    rw [hp, bind_eq_bind, bind_some, hnode, bind_eq_bind, bind_some]
    split
    · rename_i heq
      have hsame : change n₀ = n₀ := by
        rw [strncmpEq, beq_iff_eq, take_of_length_le (h.fits a s hs n₀ hn₀)] at heq
        rw [hchange]
        dsimp only [ScenePanel.enable, strncpy]
        rw [← heq]
      refine ⟨m, rfl, rfl, rfl, rfl, ?_, fun _ _ => rfl⟩
      rw [hns', hsame, ← hsplit]
      exact h.chain a s hs
    · obtain ⟨nodes, hwrite, hchain', hother⟩ := hchain.modify fun d => d.enable c
      rw [hwrite]
      refine ⟨{ m with nodes := nodes }, rfl, rfl, rfl, rfl, ?_, hother⟩
      rw [hns', panelChain, map_append, map_cons]
      exact hchain'
  obtain ⟨m', hm', htable, hheap, hhead, hchain', hother⟩ := hmem
  have hback : ∀ n ∈ ns, ∃ n' ∈ s.pstPanel, n'.addr = n.addr ∧
      n.stPanel.acEnable.length ≤ stateMaxLen := by
    intro n hn
    rcases Keyed.mem_write_iff.mp hn with ⟨n', hn', -, rfl⟩ | ⟨hn, -⟩
    · exact ⟨n', hn', rfl, by simp [hchange, ScenePanel.enable, strncpy]⟩
    · exact ⟨n, hn, rfl, h.fits a s hs n hn⟩
  refine ⟨m', _, hm', hbind, ?_, rfl⟩
  refine h.update hs (sceneBind_bindings (held_iff.mp h).1 hbind) rfl (htable.trans h.pHashTable)
    (hheap.trans h.heap) hchain' (fun b _ => by rw [hhead]) ?_ ?_ ?_
  · exact fun q _ hq => hother q fun heq => hq (heq ▸ mem_map_of_mem hn₀)
  · intro n hn
    obtain ⟨n', hn', haddr, -⟩ := hback n hn
    exact .inl ⟨n', hn', haddr⟩
  · intro n hn
    obtain ⟨-, -, -, hfits⟩ := hback n hn
    exact hfits

theorem unbind_found (h : Held m x) (hs : x.scene? a = some s)
    (hfind : ptrHashFind x.pHashTable c.hashKey s.acSceneId = some e)
    (hp : e.panelPtr? = some p) :
    ∃ m' x', m.unbind a s.acSceneId c = some (m', .noErr) ∧
      sceneUnbind x a c = some (x', .noErr) ∧ Held m' x' ∧
      x'.stList = (x.setScene a
        { s with pstPanel := s.pstPanel.filter (·.addr != p) }).stList := by
  obtain ⟨hea, n₀, hn₀, rfl, -⟩ := h.found hs hfind hp
  have hfind' : ptrHashFind x.pHashTable (panelHashKey c.acDevId c.acKey c.acValue) s.acSceneId =
      some e := hfind
  have hunbind : ∃ x', sceneUnbind x a c = some (x', .noErr) ∧ x'.stList = (x.setScene a
      { s with pstPanel := s.pstPanel.filter (·.addr != n₀.addr) }).stList ∧
      x'.heap = x.heap ∧ x'.pHashTable = ptrHashDel x.pHashTable c.hashKey s.acSceneId := by
    simp only [sceneUnbind, hs, bind_eq_bind, bind_some, hfind', hp, hea, if_true,
      Option.pure_def]
    exact ⟨_, rfl, rfl, rfl, rfl⟩
  obtain ⟨x', hx', hlist, hheap, htable⟩ := hunbind
  obtain ⟨as, bs, hsplit⟩ := append_of_mem hn₀
  have hnodup := h.nodup hs
  have hns : s.pstPanel.filter (·.addr != n₀.addr) = as ++ bs := by
    rw [hsplit] at hnodup
    rw [hsplit]
    exact Keyed.filter_ne_split hnodup
  have hchain := h.chain a s hs
  rw [hsplit, panelChain, map_append, map_cons] at hchain
  obtain ⟨nodes, head, hunlink, hchain', hother⟩ := hchain.unlink
  have hx'' := sceneUnbind_bindings (held_iff.mp h).1 hx'
  refine ⟨⟨ptrHashDel m.pHashTable c.hashKey s.acSceneId, Function.update m.pstPanel a head, nodes,
    m.heap⟩, x', ?_, hx', ?_, hlist⟩
  · rw [PanelMem.unbind, h.pHashTable, hfind]
    dsimp only
    rw [hp, bind_eq_bind, bind_some, hunlink]
    rfl
  refine h.update hs hx'' hlist (by rw [htable, h.pHashTable]) (hheap ▸ h.heap) ?_
    (fun b hb => Function.update_of_ne hb _ _) ?_ ?_ ?_
  · dsimp only
    rw [Function.update_self, hns, panelChain, map_append]
    exact hchain'
  · intro q _ hq
    refine hother q ?_
    rw [← map_cons (f := fun n : ScenePanelNode => (n.addr, n.stPanel)), ← map_append,
      ← hsplit, ← panelChain, map_fst_panelChain]
    exact hq
  · exact fun n hn => .inl ⟨n, (mem_filter.mp hn).1, rfl⟩
  · exact fun n hn => h.fits a s hs n (mem_filter.mp hn).1

theorem bindGetList (h : Held m x) (hs : x.scene? a = some s) (iDevMaxNum : Int) :
    m.bindGetList a iDevMaxNum = some (s.panels.take iDevMaxNum.toNat) := by
  have hcopy (cs : List (Nat × ScenePanel)) (out : List ScenePanel) :
      cs.foldl (fun out q =>
          if (out.length : Int) < iDevMaxNum then out ++ [q.2] else out) out =
        out ++ (cs.map Prod.snd).take (iDevMaxNum.toNat - out.length) := by
    induction cs generalizing out with
    | nil => simp
    | cons q cs ih =>
      rw [foldl_cons, ih, map_cons]
      split
      · rename_i hlt
        have hroom : iDevMaxNum.toNat - out.length =
            (iDevMaxNum.toNat - (out ++ [q.2]).length) + 1 := by
          rw [length_append, length_singleton]
          omega
        rw [hroom, take_succ_cons, append_assoc, singleton_append]
      · rename_i hge
        have hfull : iDevMaxNum.toNat - out.length = 0 := by omega
        rw [hfull, take_zero, take_zero]
  have hlen : (panelChain s.pstPanel).length ≤ m.heap := by
    rw [panelChain, length_map]
    exact h.length_le hs
  rw [PanelMem.bindGetList, (h.chain a s hs).foldFrom hlen, hcopy, nil_append,
    length_nil, Nat.sub_zero, panelChain, List.map_map]
  rfl

end Held

end Honyar.LocalScene
