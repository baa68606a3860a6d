import Honyar.LocalScene.Reach

/-!
# What runs without requests leaves alone

Events, the check of the time conditions, timers and the execution thread write
truth words and records, the queue and the timers.  They neither add nor remove
anything: every scene, condition, panel and node of the hash table is where it
was (`Touches`).
-/

namespace Honyar.LocalScene

open Option CondSetNode

variable {l : Logic} {k : Kind}

/-! ## Scenes -/

namespace SceneInfo

variable {s s' s'' : SceneInfo} {p : CondPtr k}

/-- `s'` has the conditions and panels of `s`, where they were and filed under
the same texts, and lists of the same length. -/
structure Frames (s s' : SceneInfo) : Prop extends Shrinks s s' where
  keeps {heap : Nat} : s.Placed heap → ∀ q key, s.Has q key → s'.Has q key
  iNodeNum : ∀ l k, (s'.list l k).iNodeNum = (s.list l k).iNodeNum
  length : ∀ l k, (s'.list l k).stList.length = (s.list l k).stList.length
  pstPanel : s'.pstPanel = s.pstPanel

theorem Frames.refl (s : SceneInfo) : s.Frames s :=
  ⟨.refl s, fun _ _ _ h => h, fun _ _ => rfl, fun _ _ => rfl, rfl⟩

theorem Frames.trans (h : s.Frames s') (h' : s'.Frames s'') : s.Frames s'' where
  toShrinks := h.toShrinks.trans h'.toShrinks
  keeps hs q key hq := h'.keeps (h.placed hs) q key (h.keeps hs q key hq)
  iNodeNum l k := (h'.iNodeNum l k).trans (h.iNodeNum l k)
  length l k := (h'.length l k).trans (h.length l k)
  pstPanel := h'.pstPanel.trans h.pstPanel

theorem Frames.of_list_eq (hid : s'.acSceneId = s.acSceneId)
    (h : ∀ l k, s'.list l k = s.list l k) (hpanel : s'.pstPanel = s.pstPanel) : s.Frames s' where
  toShrinks := .of_list_eq hid h
  keeps _ q key hq := by
    rw [Has, h]
    exact hq
  iNodeNum l k := by rw [h]
  length l k := by rw [h]
  pstPanel := hpanel

theorem pstPanel_of_eraseTruth_eq (h : s'.eraseTruth = s.eraseTruth) :
    s'.pstPanel = s.pstPanel := by
  have hpanel : s'.eraseTruth.pstPanel = s.eraseTruth.pstPanel := by rw [h]
  exact hpanel

theorem Frames.of_eraseTruth_eq (h : s'.eraseTruth = s.eraseTruth) : s.Frames s' where
  toShrinks := .of_eraseTruth_eq h
  keeps _ q key hq := by
    obtain ⟨n, hn, hna, hc⟩ := hq
    have hlist := congrArg (fun r => (r.list q.2.acLogic q.1).stList) h
    simp only [list_eraseTruth, CondList.eraseTruth] at hlist
    obtain ⟨m, hm, hmn⟩ := List.mem_map.mp (hlist.symm ▸ List.mem_map_of_mem hn)
    have haddr : m.eraseTruth.addr = n.eraseTruth.addr := congrArg addr hmn
    have hconds : m.eraseTruth.pstCond = n.eraseTruth.pstCond := congrArg pstCond hmn
    exact ⟨m, hm, Eq.trans haddr hna, (show m.pstCond = n.pstCond from hconds) ▸ hc⟩
  iNodeNum l k := by
    have hnum := congrArg (fun r => (r.list l k).iNodeNum) h
    simpa only [list_eraseTruth, CondList.eraseTruth] using hnum
  length l k := by
    have hlen := congrArg (fun r => (r.list l k).stList.length) h
    simpa only [list_eraseTruth, CondList.eraseTruth, List.length_map] using hlen
  pstPanel := pstPanel_of_eraseTruth_eq h

theorem pstPanel_setList (s : SceneInfo) (l : Logic) (k : Kind) (x : CondList l k) :
    (s.setList l k x).pstPanel = s.pstPanel := by
  cases l <;> cases k <;> rfl

theorem Frames.modifyCond {f : Cond k → Cond k}
    (hf : ∀ c, s.node? p = some c → (f c.stCond).hashKey = c.stCond.hashKey) :
    s.Frames (s.modifyCond p f) where
  toShrinks := .modifyCond hf
  keeps hs q key hq := by
    obtain ⟨k', l', a, b⟩ := q
    by_cases hl : l' = p.acLogic ∧ k' = k
    · obtain ⟨rfl, rfl⟩ := hl
      obtain ⟨n, hn, hna, c, hc, hca, hkey⟩ := hq
      rw [Has, SceneInfo.modifyCond, list_modifySet_self]
      by_cases hset : n.addr = p.pCondSetNode
      · refine ⟨n.modifyNode p.pCondNode f, CondList.mem_modifySet.mpr (.inl ⟨n, hn, hset, rfl⟩),
          hna, ?_⟩
        by_cases hnode : c.addr = p.pCondNode
        · have hchain := hs p.acLogic k'
          have hfind : s.node? p = some c := by
            rw [node?, show s.set? p = some n from
              (Keyed.find?_eq_some_iff hchain.addr).mpr ⟨hn, hset⟩]
            exact (hchain.sets n hn).node?_eq_some.mpr ⟨hc, hnode⟩
          exact ⟨{ c with stCond := f c.stCond },
            mem_modifyNode.mpr (.inl ⟨c, hc, hnode, rfl⟩), hca, (hf c hfind).trans hkey⟩
        · exact ⟨c, mem_modifyNode.mpr (.inr ⟨hc, hnode⟩), hca, hkey⟩
      · exact ⟨n, CondList.mem_modifySet.mpr (.inr ⟨hn, hset⟩), hna, c, hc, hca, hkey⟩
    · rw [Has, SceneInfo.modifyCond, list_modifySet_of_ne _ _ _ hl]
      exact hq
  iNodeNum l' k' := by
    by_cases hl : l' = p.acLogic ∧ k' = k
    · obtain ⟨rfl, rfl⟩ := hl
      rw [SceneInfo.modifyCond, list_modifySet_self]
      rfl
    · rw [SceneInfo.modifyCond, list_modifySet_of_ne _ _ _ hl]
  length l' k' := by
    by_cases hl : l' = p.acLogic ∧ k' = k
    · obtain ⟨rfl, rfl⟩ := hl
      rw [SceneInfo.modifyCond, list_modifySet_self, CondList.modifySet, List.length_map]
    · rw [SceneInfo.modifyCond, list_modifySet_of_ne _ _ _ hl]
  pstPanel := pstPanel_setList ..

end SceneInfo

/-! ## The list -/

namespace SceneList

variable {x x' x'' : SceneList} {a : Nat}

/-- Everything is where it was. -/
structure Touches (x x' : SceneList) : Prop where
  pHashTable : x'.pHashTable = x.pHashTable
  heap : x'.heap = x.heap
  scenes : List.Forall₂ (fun n m => m.addr = n.addr ∧ n.stSceneInfo.Frames m.stSceneInfo)
    x.stList x'.stList

theorem forall₂_frames_refl (ns : List SceneNode) :
    List.Forall₂ (fun n m : SceneNode => m.addr = n.addr ∧ n.stSceneInfo.Frames m.stSceneInfo)
      ns ns := by
  induction ns with
  | nil => exact .nil
  | cons n ns ih => exact .cons ⟨rfl, .refl _⟩ ih

theorem Touches.of_eq (hlist : x'.stList = x.stList) (hhash : x'.pHashTable = x.pHashTable)
    (hheap : x'.heap = x.heap) : x.Touches x' :=
  ⟨hhash, hheap, hlist ▸ forall₂_frames_refl _⟩

theorem Touches.refl (x : SceneList) : x.Touches x := .of_eq rfl rfl rfl

theorem Touches.trans (h : x.Touches x') (h' : x'.Touches x'') : x.Touches x'' := by
  refine ⟨h'.pHashTable.trans h.pHashTable, h'.heap.trans h.heap, ?_⟩
  have hfst := h.scenes
  have hsnd := h'.scenes
  generalize x.stList = ns at hfst
  generalize x'.stList = ms at hfst hsnd
  generalize x''.stList = os at hsnd
  induction hfst generalizing os with
  | nil => cases hsnd; exact .nil
  | cons hnm _ ih =>
    cases hsnd with
    | cons hmo hrest =>
      exact .cons ⟨hmo.1.trans hnm.1, hnm.2.trans hmo.2⟩ (ih _ hrest)

theorem Touches.setScene {s s' : SceneInfo} (hx : Indexed x) (hs : x.scene? a = some s)
    (h : s.Frames s') : x.Touches (x.setScene a s') := by
  refine ⟨rfl, rfl, ?_⟩
  rw [SceneList.setScene, List.forall₂_map_right_iff, List.forall₂_same]
  intro n hn
  split
  · rename_i hna
    refine ⟨rfl, ?_⟩
    rw [Keyed.eq_of_key_eq hx.addrs hn (mem_of_scene? hs) hna]
    exact h
  · exact ⟨rfl, .refl _⟩

theorem Touches.exists_after (h : x.Touches x') {n : SceneNode} (hn : n ∈ x.stList) :
    ∃ m ∈ x'.stList, m.addr = n.addr ∧ n.stSceneInfo.Frames m.stSceneInfo :=
  Keyed.exists_of_forall₂ h.scenes.flip hn

theorem Touches.exists_before (h : x.Touches x') {m : SceneNode} (hm : m ∈ x'.stList) :
    ∃ n ∈ x.stList, m.addr = n.addr ∧ n.stSceneInfo.Frames m.stSceneInfo :=
  Keyed.exists_of_forall₂ h.scenes hm

end SceneList

/-! ## Events, checks and timers -/

theorem SceneList.condTrueInit_touches {x x' : SceneList} {e : PtrNode} {b : Bool} (hx : Indexed x)
    (h : x.condTrueInit k e b = some x') : x.Touches x' := by
  simp only [condTrueInit, bind_eq_bind, bind_eq_some_iff, pure_def,
    some.injEq] at h
  obtain ⟨p, -, s, hs, s', hs', rfl⟩ := h
  exact .setScene hx hs (.of_eraseTruth_eq (condTrueInit_eraseTruth hs'))

theorem SceneInfo.Marked.frames {s s' : SceneInfo} (h : s.Marked s') : s.Frames s' := by
  induction h with
  | truth h => exact .of_eraseTruth_eq h
  | cond s p f hkey hmanual => exact .modifyCond hkey
  | trans _ _ ih ih' => exact ih.trans ih'

theorem SceneList.Marked.touches {x x' : SceneList} (hx : Indexed x) (h : x.Marked x') :
    x.Touches x' := by
  induction h with
  | refl => exact .refl x
  | scene h hs hm ih => exact ih.trans (.setScene (h.indexed hx) hs hm.frames)
  | other _ hlist hhash hheap ih => exact ih.trans (.of_eq hlist hhash hheap)

theorem sceneListEvent_touches {y y' : Engine} {iTime : Int} {e : Event} {os : List Effect}
    (hy : Indexed y.list) (h : sceneListEvent y iTime e = some (y', os)) :
    y.list.Touches y'.list :=
  (sceneListEvent_marked h).touches hy

theorem step_touches {y y' : Engine} {act : Act} {os : List Effect} (hy : Indexed y.list)
    (hact : act.isRequest = false) (h : y.step act = some (y', os)) : y.list.Touches y'.list :=
  (step_marked hy hact h).touches hy

theorem hySceneAdd_touches {x : SceneList} {i : SceneText} {b : Nat}
    (h : sceneListGet x i.acSceneId = some b) : x.Touches (hySceneAdd x i) := by
  simp only [hySceneAdd, sceneListSet, h]
  refine ⟨rfl, rfl, ?_⟩
  rw [List.forall₂_map_right_iff, List.forall₂_same]
  intro n hn
  split
  · exact ⟨rfl, .of_list_eq rfl (fun l k => by cases l <;> cases k <;> rfl) rfl⟩
  · exact ⟨rfl, .refl _⟩

end Honyar.LocalScene
