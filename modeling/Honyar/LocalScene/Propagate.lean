import Honyar.LocalScene.Entries
import Honyar.LocalScene.Outstanding
import Honyar.LocalScene.PanelEvent

/-!
# Propagation of states

The `Or` event conditions of a scene of type `StateSync` are attributes that are
to follow each other.  A report of one is passed on to the others as requests,
and a report that answers a request is not.

`scene_list_event` asks whether a report is an answer once for every scene with
the attribute, and only where the last value is another: the first scene takes
the request off its queue, and the next ones find none there.
-/

namespace Honyar.LocalScene

open CText Option List Run Event SceneInfo PtrNode

variable {x x' y y' : Engine} {iTime : Int} {e : Event} {p : PtrNode} {ps : List PtrNode}
  {a : Nat} {log os : List SyncNote}

variable {m : CondPtr .event × EventCond}

/-! ## Events and what happens to requests -/

/-- Neither `strncmp` tells the condition from the attribute of the event. -/
def Event.same (e : Event) (c : EventCond) : Bool :=
  strncmpEq devIdMaxLen e.acDevId c.acDevId && strncmpEq keyMaxLen e.acKey c.acKey

/-- The request that is made for a condition of the scene at `a`. -/
def Event.request (e : Event) (a : Nat) (c : EventCond) : SyncReq where
  pstScene := a
  acDevId := c.acDevId
  acKey := c.acKey
  acValue := e.acValue

/-- The body of the loop over the conditions of a scene. -/
def syncReqOne (iTime : Int) (e : Event) (a : Nat) (y : SyncList) (c : EventCond) :
    Option (SyncList × List SyncNote) :=
  if e.same c then some (y, [])
  else (sceneSyncEventReqAdd y iTime c.acDevId c.acKey e.acValue).map fun z =>
    (z, [.request (e.request a c)])

/-- `stateSync`. -/
def stateSyncNotes (iTime : Int) (e : Event) (y : SyncList) (n : SceneNode) :
    Option (SyncList × List SyncNote) :=
  let r := sceneSyncEvent y iTime e.acDevId e.acKey e.acValue
  if r.2 then some (r.1, (y.taken r.1).map .answer)
  else
    Run.run (syncReqOne iTime e n.addr) r.1
      ((n.stSceneInfo.list .or .event).conds.take condMaxNum)

/-- `eventCondNode`. -/
def eventCondNodeNotes (iTime : Int) (e : Event) (x : Engine) (p : PtrNode) :
    Option (Engine × List SyncNote) := do
  let s ← x.list.scene? p.pstScene
  if s.disabled then return (x, [])
  else
    let q ← p.condPtr? .event
    let c ← s.node? q
    if c.stCond.acTriggerType = triggerStateSync then
      let (y, os) ←
        if strncmpEq valueMaxLen c.stCond.acLastValue e.acValue then some (x.sync, [])
        else stateSyncNotes iTime e x.sync ⟨p.pstScene, s⟩
      return (⟨x.list.setScene p.pstScene (s.modifyCond q (EventCond.seen e)), y⟩, os)
    else
      let iTrue := sceneEventCondIsTrue c.stCond e
      let (s, ts) ← sceneEventCondTrueUpdate (s.modifyCond q (EventCond.seen e)) iTrue q
      let r := (x.list.setScene p.pstScene s).fire iTime p.pstScene s p.addr ts
      return (⟨r.1, x.sync⟩, [])

/-- `scene_list_event`. -/
def sceneListEventNotes (x : Engine) (iTime : Int) (e : Event) :
    Option (Engine × List SyncNote) :=
  if e.nodes x.list ≠ [] then Run.run (eventCondNodeNotes iTime e) x (e.nodes x.list)
  else (Run.run (eventPanelNode iTime) x (e.panelNodes x.list)).map fun r => (r.1, [])

/-- One step of the engine. -/
def Engine.noteStep (x : Engine) : Act → Option (Engine × List SyncNote)
  | .event t e => sceneListEventNotes x t e
  | .execQueue t => some (x.execQueue t, (sceneSyncEventReqExec x.sync t).2.map .sent)
  | a => (x.step a).map fun r => (r.1, [])

theorem syncReqOne_fst (y : SyncList) (c : EventCond) :
    (syncReqOne iTime e a y c).map Prod.fst =
      if strncmpEq devIdMaxLen e.acDevId c.acDevId && strncmpEq keyMaxLen e.acKey c.acKey then
        some y
      else sceneSyncEventReqAdd y iTime c.acDevId c.acKey e.acValue := by
  rw [syncReqOne, same]
  split
  · rfl
  · rw [Option.map_map]
    exact Option.map_id' ..

theorem stateSyncNotes_fst (y : SyncList) (n : SceneNode) :
    (stateSyncNotes iTime e y n).map Prod.fst = stateSync y iTime n.stSceneInfo e := by
  rw [stateSyncNotes, stateSync]
  split
  · rfl
  · rw [run_map_fst]
    simp only [syncReqOne_fst]

theorem eventCondNodeNotes_fst (y : Engine) (p : PtrNode) :
    (eventCondNodeNotes iTime e y p).map Prod.fst =
      (eventCondNode iTime e y p).map Prod.fst := by
  rw [eventCondNodeNotes, eventCondNode]
  cases y.list.scene? p.pstScene with
  | none => rfl
  | some s =>
    simp only [bind_eq_bind, bind_some]
    split
    · rfl
    cases p.condPtr? .event with
    | none => rfl
    | some q =>
      simp only [bind_some]
      cases s.node? q with
      | none => rfl
      | some c =>
        simp only [bind_some]
        split
        · split
          · rfl
          · rw [← stateSyncNotes_fst y.sync ⟨p.pstScene, s⟩]
            cases stateSyncNotes iTime e y.sync ⟨p.pstScene, s⟩ <;> rfl
        · cases sceneEventCondTrueUpdate (s.modifyCond q (EventCond.seen e))
            (sceneEventCondIsTrue c.stCond e) q <;> rfl

theorem sceneListEventNotes_fst (x : Engine) (iTime : Int) (e : Event) :
    (sceneListEventNotes x iTime e).map Prod.fst =
      (sceneListEvent x iTime e).map Prod.fst := by
  rw [sceneListEventNotes, sceneListEvent, nodes, panelNodes]
  split
  · rw [run_map_fst, run_map_fst]
    simp only [eventCondNodeNotes_fst]
  · rw [Option.map_map]
    rfl

theorem Engine.noteStep_fst (x : Engine) (a : Act) :
    (x.noteStep a).map Prod.fst = (x.step a).map Prod.fst := by
  cases a with
  | event t e => exact sceneListEventNotes_fst x t e
  | execQueue t => rfl
  | _ =>
    simp only [noteStep, Option.map_map]
    rfl

/-! ## What is to happen -/

/-- The `Or` event conditions of a scene. -/
def SceneInfo.members (s : SceneInfo) : List (CondPtr .event × EventCond) :=
  (s.list .or .event).entries

/-- The stored value of the condition is that of the event. -/
def Event.isLast (e : Event) (c : EventCond) : Bool :=
  strncmpEq valueMaxLen c.acLastValue e.acValue

/-- No scene is disabled, and all `Or` event conditions are of type `StateSync`. -/
structure StateSynced (x : SceneList) : Prop where
  enabled : ∀ n ∈ x.stList, n.stSceneInfo.disabled = false
  trigger : ∀ n ∈ x.stList, ∀ m ∈ n.stSceneInfo.members, m.2.acTriggerType = triggerStateSync

/-- What becomes of an event.  When a request for what it reports is outstanding, one such request
is answered and none is made.  Otherwise every scene with the attribute that stored another value
makes one request for each other member and none for the attribute.  The attribute has the value
then in all scenes, and no other member changed its own. -/
structure Propagated (e : Event) (log : List SyncNote) (x y : SceneList) (os : List SyncNote) :
    Prop where
  response : outstanding log e ≠ [] →
    requests os = [] ∧ ∃ q ∈ outstanding log e, answers os = [q]
  report : outstanding log e = [] → ∀ n ∈ x.stList, ∀ m ∈ n.stSceneInfo.members,
    e.IsFor m.2 → e.isLast m.2 = false →
    (∀ m' ∈ n.stSceneInfo.members, ¬ e.IsFor m'.2 →
      (requests os).count (e.request n.addr m'.2) = 1) ∧
    ∀ r ∈ requests os, r.pstScene = n.addr → ¬ (r.acDevId = e.acDevId ∧ r.acKey = e.acKey)
  last : ∀ n ∈ x.stList, ∀ m ∈ n.stSceneInfo.members,
    ∃ s c, y.scene? n.addr = some s ∧ (m.1, c) ∈ s.members ∧
      if e.IsFor m.2 then e.isLast c = true else c.acLastValue = m.2.acLastValue

/-- The event is worked off and propagated. -/
def Propagates (x : Engine) (log : List SyncNote) (iTime : Int) (e : Event) : Prop :=
  ∃ y os, sceneListEventNotes x iTime e = some (y, os) ∧ Propagated e log x.list y.list os

/-! ## The scenes that see a change -/

/-- The scene in which the node leads to a `StateSync` condition that stored another value. -/
def PtrNode.changed? (x : SceneList) (e : Event) (p : PtrNode) : Option SceneNode :=
  match x.scene? p.pstScene with
  | none => none
  | some s =>
    match (p.condPtr? .event).bind s.node? with
    | none => none
    | some c =>
      if s.disabled = false ∧ c.stCond.acTriggerType = triggerStateSync ∧
        e.isLast c.stCond = false then some ⟨p.pstScene, s⟩
      else none

/-- The scenes the event changes, in the order they are visited in. -/
def Event.changed (e : Event) (x : SceneList) : List SceneNode :=
  (e.nodes x).filterMap fun p => p.changed? x e

/-- The requests a scene makes. -/
def Event.wanted (e : Event) (n : SceneNode) : List SyncReq :=
  (((n.stSceneInfo.list .or .event).conds.take condMaxNum).filter fun c => !e.same c).map
    (e.request n.addr)

/-- Nothing disturbs the propagation.  Every node under the text of the event leads to a
condition, in the `Or` list to one with the attribute of the event or with its value stored.  When
a request is outstanding, its entry has its mark, and it is asked for once: one scene sees a
change, or one entry has a mark and the scenes behind the first have no other member.  When none
is, the loop over the conditions of a scene comes to all other members and tells them from the
attribute. -/
structure Undisturbed (x : Engine) (log : List SyncNote) (iTime : Int) (e : Event) : Prop where
  leads : ∀ p ∈ e.nodes x.list, p.Leads x.list fun _ => True
  room : SyncRoom x iTime e
  panels : e.nodes x.list = [] → ∀ p ∈ e.panelNodes x.list, (p.panelIn? x.list).isSome = true
  pairs : ∀ p ∈ e.nodes x.list, ∀ n ∈ x.list.stList, n.addr = p.pstScene →
    ∀ m ∈ n.stSceneInfo.members, p.condPtr? .event = some m.1 → e.IsFor m.2 ∨ e.isLast m.2 = true
  response : outstanding log e ≠ [] → x.sync.pending e ≠ [] ∧
    ∃ n ns, e.changed x.list = n :: ns ∧
      (ns = [] ∨ (x.sync.pending e).length = 1 ∧ ∀ m ∈ ns, e.wanted m = [])
  report : outstanding log e = [] → ∀ n ∈ x.list.stList, ∀ m ∈ n.stSceneInfo.members,
    e.IsFor m.2 → e.isLast m.2 = false → ∀ m' ∈ n.stSceneInfo.members, ¬ e.IsFor m'.2 →
    m'.2 ∈ (n.stSceneInfo.list .or .event).conds.take condMaxNum ∧ e.same m'.2 = false

theorem PtrNode.changed?_eq_some {z : SceneList} {n : SceneNode} :
    p.changed? z e = some n ↔ n.addr = p.pstScene ∧ z.scene? p.pstScene = some n.stSceneInfo ∧
      n.stSceneInfo.disabled = false ∧ ∃ q c, p.condPtr? .event = some q ∧
        n.stSceneInfo.node? q = some c ∧ c.stCond.acTriggerType = triggerStateSync ∧
        e.isLast c.stCond = false := by
  rw [changed?]
  cases hs : z.scene? p.pstScene with
  | none => simp
  | some s =>
    simp only
    cases hc : (p.condPtr? .event).bind s.node? with
    | none =>
      refine iff_of_false (fun h => nomatch h) ?_
      rintro ⟨-, heq, -, q, c, hq, hnode, -⟩
      obtain rfl := some.inj heq
      rw [hq, bind_some, hnode] at hc
      cases hc
    | some c =>
      obtain ⟨q, hq, hnode⟩ := bind_eq_some_iff.mp hc
      simp only
      constructor
      · intro h
        split at h
        · rename_i hall
          obtain rfl := some.inj h
          exact ⟨rfl, rfl, hall.1, q, c, hq, hnode, hall.2⟩
        · cases h
      · rintro ⟨haddr, heq, hdis, q', c', hq', hnode', hrest⟩
        obtain ⟨b, t⟩ := n
        obtain rfl := some.inj heq
        obtain rfl := some.inj (hq.symm.trans hq')
        obtain rfl := some.inj (hnode.symm.trans hnode')
        simp only at haddr
        rw [if_pos ⟨hdis, hrest⟩, haddr]

theorem PtrNode.changed?_congr {z z' : SceneList}
    (h : z'.scene? p.pstScene = z.scene? p.pstScene) : p.changed? z' e = p.changed? z e := by
  rw [changed?, changed?, h]

theorem eventCondNodeNotes_spec (h : eventCondNodeNotes iTime e y p = some (y', os)) :
    (∃ es, eventCondNode iTime e y p = some (y', es)) ∧
      Run.run (stateSyncNotes iTime e) y.sync (p.changed? y.list e).toList =
        some (y'.sync, os) := by
  constructor
  · have hfst := congrArg (Option.map Prod.fst) h
    rw [eventCondNodeNotes_fst, map_some] at hfst
    obtain ⟨⟨z, es⟩, hz, rfl⟩ := map_eq_some_iff.mp hfst
    exact ⟨es, hz⟩
  have hrun (n : SceneNode) : run (stateSyncNotes iTime e) y.sync [n] =
      stateSyncNotes iTime e y.sync n := by
    rw [run]
    cases stateSyncNotes iTime e y.sync n with
    | none => rfl
    | some r => simp [run]
  simp only [eventCondNodeNotes, bind_eq_bind, bind_eq_some_iff] at h
  obtain ⟨s, hs, h⟩ := h
  rw [changed?, hs]
  simp only
  split at h
  · -- a disabled scene
    rename_i hdis
    cases h
    split
    · rfl
    · rw [if_neg fun h => by simp [hdis] at h]
      rfl
  · rename_i hdis
    simp only [bind_eq_some_iff] at h
    obtain ⟨q, hq, c, hc, h⟩ := h
    rw [hq, bind_some, hc]
    simp only
    split at h
    · rename_i hsync
      split at h
      · -- the value is the one that is stored
        rename_i hlast
        cases h
        rw [if_neg fun h => by simp [isLast, hlast] at h]
        rfl
      · rename_i hlast
        simp only [bind_eq_some_iff, Option.pure_def, some.injEq,
          Prod.mk.injEq] at h
        obtain ⟨⟨z, os'⟩, hz, rfl, rfl⟩ := h
        rw [if_pos ⟨by simpa using hdis, hsync, by simpa [isLast] using hlast⟩,
          toList_some, hrun]
        exact hz
    · rename_i hsync
      simp only [bind_eq_some_iff, Option.pure_def, some.injEq, Prod.mk.injEq] at h
      obtain ⟨-, -, rfl, rfl⟩ := h
      rw [if_neg fun h => hsync h.2.1]
      rfl

/-- A chain of nodes of different scenes makes the queues run over the scenes that see a
change. -/
theorem run_notes_sync (hy : Indexed y.list) (hnodup : (ps.map PtrNode.pstScene).Nodup)
    (h : Run.run (eventCondNodeNotes iTime e) y ps = some (y', os)) :
    Run.run (stateSyncNotes iTime e) y.sync (ps.filterMap fun p => p.changed? y.list e) =
      some (y'.sync, os) := by
  induction ps generalizing y os with
  | nil =>
    cases h
    rfl
  | cons p ps ih =>
    obtain ⟨z, o, os', hp, hps, rfl⟩ := run_cons.mp h
    rw [map_cons, nodup_cons] at hnodup
    obtain ⟨⟨es, hvisit⟩, hsync⟩ := eventCondNodeNotes_spec hp
    obtain ⟨-, -, -, -, hframe, -⟩ := eventCondNode_visits hy hvisit
    have hrest := ih (eventCondNode_indexed hy hvisit) hnodup.2 hps
    have hsame : ps.filterMap (fun p => p.changed? z.list e) =
        ps.filterMap fun p => p.changed? y.list e := by
      refine filterMap_congr fun p' hp' => changed?_congr (hframe _ ?_)
      exact fun heq => hnodup.1 (heq ▸ List.mem_map_of_mem hp')
    have hsplit : (p :: ps).filterMap (fun p => p.changed? y.list e) =
        (p.changed? y.list e).toList ++ ps.filterMap fun p => p.changed? y.list e := by
      rw [filterMap_cons]
      cases p.changed? y.list e <;> rfl
    rw [hsplit]
    exact run_append.mpr ⟨z.sync, o, os', hsync, hsame ▸ hrest, rfl⟩

/-! ## The queues -/

section

variable {z z' : SyncList} {c : EventCond} {n : SceneNode} {ns : List SceneNode}

theorem Event.same_iff : e.same c = true ↔ attrOf c.acDevId c.acKey = attrOf e.acDevId e.acKey := by
  rw [same, Bool.and_eq_true, strncmpEq_iff, strncmpEq_iff, attrOf, attrOf, Prod.mk.injEq,
    eq_comm, @eq_comm _ (e.acKey.take keyMaxLen)]

/-- The loop over conditions of a scene makes a request for each but the attribute itself, and
leaves the queue of the attribute. -/
theorem run_reqs {cs : List EventCond} (hz : Tracked z log)
    (h : Run.run (syncReqOne iTime e a) z cs = some (z', os)) :
    Tracked z' (log ++ os) ∧ z'.pending e = z.pending e ∧ answers os = [] ∧
      requests os = (cs.filter fun c => !e.same c).map (e.request a) := by
  induction cs generalizing z log os with
  | nil =>
    cases h
    rw [append_nil]
    exact ⟨hz, rfl, rfl, rfl⟩
  | cons c cs ih =>
    obtain ⟨w, o, os', hc, hcs, rfl⟩ := run_cons.mp h
    rw [syncReqOne] at hc
    split at hc
    · -- the attribute itself
      rename_i hsame
      cases hc
      rw [filter_cons_of_neg (by simp [hsame])]
      exact ih hz hcs
    · rename_i hsame
      obtain ⟨w', hw, heq⟩ := map_eq_some_iff.mp hc
      cases heq
      obtain ⟨htracked, hpending⟩ := hz.reqAdd (e := e) hw (e.request a c)
      obtain ⟨htracked', hpending', hansw, hreqs⟩ := ih htracked hcs
      rw [append_assoc] at htracked'
      refine ⟨htracked', ?_, ?_, ?_⟩
      · rw [hpending', hpending fun heq => hsame (same_iff.mpr heq)]
      · rw [answers_append, hansw]
        rfl
      · rw [requests_append, hreqs, filter_cons_of_pos (by simp [hsame])]
        rfl

theorem stateSyncNotes_spec (hz : Tracked z log)
    (h : stateSyncNotes iTime e z n = some (z', os)) :
    Tracked z' (log ++ os) ∧ z'.pending e = (z.pending e).tail ∧
      answers os = (z.pending e).take 1 ∧
      requests os = if z.pending e = [] then e.wanted n else [] := by
  obtain ⟨hfound, hrest, htaken, htracked⟩ := hz.event iTime e
  rw [stateSyncNotes] at h
  split at h
  · rename_i hansw
    obtain ⟨rfl, rfl⟩ := Prod.mk.inj (some.inj h)
    rw [htaken, if_neg (hfound.mp hansw), answers_map_answer, requests_map_answer]
    exact ⟨htracked, hrest, rfl, rfl⟩
  · rename_i hansw
    have hnil : z.pending e = [] := not_not.mp fun hne => hansw (hfound.mpr hne)
    rw [hnil] at hrest htracked ⊢
    rw [take_nil, map_nil, append_nil] at htracked
    obtain ⟨htracked', hpending, hnone, hreqs⟩ := run_reqs htracked h
    exact ⟨htracked', hpending.trans hrest, hnone, hreqs⟩

/-- The scenes that see a change answer the entries with a mark one by one, and make their requests
once there are none. -/
theorem run_stateSync (hz : Tracked z log)
    (h : Run.run (stateSyncNotes iTime e) z ns = some (z', os)) :
    Tracked z' (log ++ os) ∧ answers os = (z.pending e).take ns.length ∧
      requests os = (ns.drop (z.pending e).length).flatMap e.wanted := by
  induction ns generalizing z log os with
  | nil =>
    cases h
    rw [append_nil, drop_nil, length_nil, take_zero]
    exact ⟨hz, rfl, rfl⟩
  | cons n ns ih =>
    obtain ⟨w, o, os', hn, hns, rfl⟩ := run_cons.mp h
    obtain ⟨htracked, hpending, hansw, hreqs⟩ := stateSyncNotes_spec hz hn
    obtain ⟨htracked', hansw', hreqs'⟩ := ih htracked hns
    rw [← append_assoc, answers_append, requests_append, hansw, hansw', hreqs, hreqs',
      hpending]
    refine ⟨htracked', ?_, ?_⟩
    · cases z.pending e with
      | nil => simp
      | cons q qs => rfl
    · cases z.pending e with
      | nil => rfl
      | cons q qs => rfl

end

/-! ## Runs -/

theorem eventCondNodeNotes_tracked (hy : Tracked y.sync log)
    (h : eventCondNodeNotes iTime e y p = some (y', os)) : Tracked y'.sync (log ++ os) :=
  (run_stateSync hy (eventCondNodeNotes_spec h).2).1

theorem run_eventPanelNode_sync {es : List Effect}
    (h : Run.run (eventPanelNode iTime) y ps = some (y', es)) : y'.sync = y.sync := by
  refine run_preserves (I := fun z => z.sync = y.sync) (fun z p z' o hz hp => ?_) rfl h
  obtain ⟨s, -, ⟨rfl, -⟩ | ⟨-, hsync, -⟩⟩ := eventPanelNode_cases hp
  · exact hz
  · exact hsync.trans hz

theorem sceneListEventNotes_tracked (hy : Tracked y.sync log)
    (h : sceneListEventNotes y iTime e = some (y', os)) : Tracked y'.sync (log ++ os) := by
  rw [sceneListEventNotes] at h
  split at h
  · exact run_invariant (P := fun _ _ => True) (I := fun z os => Tracked z.sync os)
      (fun z log p z' o hz _ hp => eventCondNodeNotes_tracked hz hp) hy
      (along_of_forall (P := fun _ => True) (fun _ _ => trivial) y) h
  · obtain ⟨⟨z, es⟩, hz, heq⟩ := map_eq_some_iff.mp h
    cases heq
    rw [append_nil, run_eventPanelNode_sync hz]
    exact hy

theorem step_sync {act : Act} {es : List Effect} (h : x.step act = some (x', es))
    (hevent : ∀ t e, act ≠ .event t e) (hexec : ∀ t, act ≠ .execQueue t) : x'.sync = x.sync := by
  have hrequest : ∀ i f, x.request i f = some (x', es) → x'.sync = x.sync := by
    intro i f h
    rw [Engine.request] at h
    split at h
    · cases h
      rfl
    · obtain ⟨z, -, heq⟩ := map_eq_some_iff.mp h
      cases heq
      rfl
  have hmap : ∀ {α : Type} (o : Option α) (f : α → SceneList) (g : α → List Effect),
      o.map (fun r => (Engine.mk (f r) x.sync, g r)) = some (x', es) → x'.sync = x.sync := by
    intro α o f g h
    obtain ⟨z, -, heq⟩ := map_eq_some_iff.mp h
    cases heq
    rfl
  cases act with
  | sceneAdd i =>
    cases h
    rfl
  | sceneDel i => exact hmap _ Prod.fst (fun _ => []) h
  | condAdd i l k c => exact hrequest _ _ h
  | condDel i l k c => exact hrequest _ _ h
  | condClear i l k => exact hrequest _ _ h
  | bind i n => exact hrequest _ _ h
  | unbind i n => exact hrequest _ _ h
  | event t e => exact absurd rfl (hevent t e)
  | timeTrueAll t now => exact hmap _ Prod.fst Prod.snd h
  | timeout t i => exact hmap _ Prod.fst Prod.snd h
  | execQueue t => exact absurd rfl (hexec t)

theorem noteStep_tracked {act : Act} (hx : Tracked x.sync log)
    (h : x.noteStep act = some (x', os)) : Tracked x'.sync (log ++ os) := by
  by_cases hevent : ∃ t e, act = .event t e
  · obtain ⟨t, e, rfl⟩ := hevent
    exact sceneListEventNotes_tracked hx h
  by_cases hexec : ∃ t, act = .execQueue t
  · obtain ⟨t, rfl⟩ := hexec
    cases h
    exact hx.reqExec t
  rw [not_exists] at hexec
  simp only [not_exists] at hevent
  have hstep : x.noteStep act = (x.step act).map fun r => (r.1, []) := by
    cases act with
    | event t e => exact absurd rfl (hevent t e)
    | execQueue t => exact absurd rfl (hexec t)
    | _ => rfl
  rw [hstep] at h
  obtain ⟨⟨z, es⟩, hz, heq⟩ := map_eq_some_iff.mp h
  cases heq
  rw [append_nil, step_sync hz hevent hexec]
  exact hx

theorem run_tracked {as : List Act} (h : Run.run Engine.noteStep .init as = some (x, log)) :
    Indexed x.list ∧ Tracked x.sync log := by
  have hrun := run_invariant (P := fun _ _ => True)
    (I := fun z os => Indexed z.list ∧ Tracked z.sync os) ?_ ⟨indexed_init, tracked_init⟩
    (along_of_forall (P := fun _ => True) (fun _ _ => trivial) _) h
  · exact hrun
  · rintro z os act z' o ⟨hindexed, htracked⟩ - hstep
    refine ⟨?_, noteStep_tracked htracked hstep⟩
    have hfst := congrArg (Option.map Prod.fst) hstep
    rw [Engine.noteStep_fst] at hfst
    obtain ⟨⟨w, es⟩, hw, heq⟩ := map_eq_some_iff.mp hfst
    cases heq
    exact step_indexed hindexed hw

/-! ## An event -/

theorem exists_of_notes (h : sceneListEventNotes x iTime e = some (y, os)) :
    ∃ es, sceneListEvent x iTime e = some (y, es) := by
  have hfst := congrArg (Option.map Prod.fst) h
  rw [sceneListEventNotes_fst, map_some] at hfst
  obtain ⟨⟨z, es⟩, hz, rfl⟩ := map_eq_some_iff.mp hfst
  exact ⟨es, hz⟩

section

variable (hx : Indexed x.list)
include hx

theorem sceneListEventNotes_sync (h : sceneListEventNotes x iTime e = some (y, os)) :
    Run.run (stateSyncNotes iTime e) x.sync (e.changed x.list) = some (y.sync, os) := by
  obtain ⟨es, hevent⟩ := exists_of_notes h
  by_cases hnil : e.nodes x.list = []
  · rw [sceneListEventNotes, if_neg (not_not.mpr hnil)] at h
    obtain ⟨⟨z, es'⟩, hz, heq⟩ := map_eq_some_iff.mp h
    cases heq
    rw [changed, hnil, run_eventPanelNode_sync hz]
    rfl
  · rw [sceneListEventNotes, if_pos hnil] at h
    rw [sceneListEvent_eq hnil] at hevent
    exact run_notes_sync hx (hx.chain_nodup (scene?_of_run hx hevent)) h

theorem sceneListEventNotes_isSome_iff :
    (sceneListEventNotes x iTime e).isSome = true ↔
      (∀ p ∈ e.nodes x.list, p.Leads x.list fun _ => True) ∧ SyncRoom x iTime e ∧
        (e.nodes x.list = [] → ∀ p ∈ e.panelNodes x.list, (p.panelIn? x.list).isSome = true) := by
  have hevent : (sceneListEventNotes x iTime e).isSome = (sceneListEvent x iTime e).isSome := by
    rw [← isSome_map (f := Prod.fst), sceneListEventNotes_fst, isSome_map]
  rw [hevent]
  by_cases hnil : e.nodes x.list = []
  · have hcalls : (sceneListEvent x iTime e).isSome =
        (run (eventPanelNodeCalls iTime) x (e.panelNodes x.list)).isSome := by
      rw [← sceneListEventCalls_effects, isSome_map, sceneListEventCalls,
        if_neg (not_not.mpr hnil)]
    rw [hcalls]
    constructor
    · intro hsome
      obtain ⟨⟨z, cs⟩, hz⟩ := isSome_iff_exists.mp hsome
      exact ⟨by simp [hnil], by simp [SyncRoom, hnil], fun _ => (run_panels_spec hz).1⟩
    · rintro ⟨-, -, hpanels⟩
      obtain ⟨r, hr⟩ := run_panels_isSome (hpanels hnil) iTime
      rw [hr]
      rfl
  · rw [sceneListEvent_eq hnil, run_nodes_isSome_iff hx]
    exact ⟨fun h => ⟨h.1, h.2, fun hnil' => absurd hnil' hnil⟩, fun h => ⟨h.1, h.2.1⟩⟩

end

/-! ### The stored values -/

theorem EventCond.seen_of_isLast {c : EventCond} (h : e.isLast c = true) : c.seen e = c := if_pos h

theorem Event.isLast_seen (e : Event) (c : EventCond) : e.isLast (c.seen e) = true := by
  by_cases hlast : e.isLast c = true
  · rw [EventCond.seen_of_isLast hlast, hlast]
  · have hseen : c.seen e = { c with acLastValue := strncpy valueMaxLen e.acValue } :=
      if_neg hlast
    rw [hseen, isLast, strncmpEq_iff, strncpy, take_take, min_self]

theorem SceneInfo.Chained.members_nodup {s : SceneInfo} (hs : s.Chained) :
    (s.members.map Prod.fst).Nodup := (hs .or .event).entries_nodup

theorem SceneInfo.mem_members {s : SceneInfo} (hs : s.Chained) {q : CondPtr .event}
    {c : EventCond} :
    (q, c) ∈ s.members ↔ q.acLogic = .or ∧ ∃ d, s.node? q = some d ∧ d.stCond = c :=
  mem_entries_iff hs

/-- A node under the text of the event leads to the condition at `q` of the scene at `a`. -/
def Event.Reaches (e : Event) (x : SceneList) (a : Nat) (q : CondPtr .event) : Prop :=
  ∃ p ∈ e.nodes x, p.pstScene = a ∧ p.condPtr? .event = some q

section

variable (hx : Indexed x.list) (hconf : StateSynced x.list)
  (h : sceneListEventNotes x iTime e = some (y, os))
include hx hconf h

/-- What becomes of a member: the event is stored when and only when a node leads to it. -/
theorem member_after {n : SceneNode} (hn : n ∈ x.list.stList) (hm : m ∈ n.stSceneInfo.members) :
    ∃ s c, y.list.scene? n.addr = some s ∧
      (∀ c', (m.1, c') ∈ s.members ↔ c' = c) ∧
      (e.Reaches x.list n.addr m.1 ∧ c = m.2.seen e ∨
        ¬ e.Reaches x.list n.addr m.1 ∧ c = m.2) := by
  obtain ⟨es, hevent⟩ := exists_of_notes h
  have hy := sceneListEvent_indexed hx hevent
  have hs := hx.scene?_eq_some hn
  obtain ⟨hlogic, d, hd, hdm⟩ :=
    (mem_members (hx.placed n hn).chained (q := m.1) (c := m.2)).mp hm
  have hafter : ∀ s d', y.list.scene? n.addr = some s → s.node? m.1 = some d' →
      ∀ c', (m.1, c') ∈ s.members ↔ c' = d'.stCond := by
    intro s d' hs' hd' c'
    rw [mem_members (hy.placed _ (SceneList.mem_of_scene? hs')).chained, hd']
    simp [hlogic, eq_comm]
  have hunseen : ∀ s, y.list.scene? n.addr = some s → s.node? m.1 = n.stSceneInfo.node? m.1 →
      ¬ e.Reaches x.list n.addr m.1 → ∃ s c, y.list.scene? n.addr = some s ∧
        (∀ c', (m.1, c') ∈ s.members ↔ c' = c) ∧
        (e.Reaches x.list n.addr m.1 ∧ c = m.2.seen e ∨
          ¬ e.Reaches x.list n.addr m.1 ∧ c = m.2) :=
    fun s hs' hsame hnot => ⟨s, d.stCond, hs', hafter s d hs' (hsame.trans hd),
      .inr ⟨hnot, hdm⟩⟩
  by_cases hnil : e.nodes x.list = []
  · -- the event goes to the panels
    have hpanels : sceneListEvent x iTime e =
        run (eventPanelNode iTime) x (e.panelNodes x.list) := if_neg (not_not.mpr hnil)
    rw [hpanels] at hevent
    have hlist := (run_eventPanelNode hevent).1
    refine hunseen n.stSceneInfo (by rw [SceneList.scene?, hlist]; exact hs) rfl ?_
    rintro ⟨p, hp, -⟩
    rw [hnil] at hp
    cases hp
  rw [sceneListEvent_eq hnil] at hevent
  by_cases ha : n.addr ∈ (e.nodes x.list).map pstScene
  · obtain ⟨p, hp, hpa⟩ := List.mem_map.mp ha
    obtain ⟨s, s', hs₁, hs', hvisit⟩ := run_nodes_visit hx hevent hp
    rw [hpa] at hs₁ hs'
    obtain rfl := some.inj (hs.symm.trans hs₁)
    obtain ⟨hdis, -⟩ | ⟨-, q, hq, hvisited, -⟩ := hvisit
    · rw [hconf.enabled n hn] at hdis
      cases hdis
    by_cases hqm : q = m.1
    · obtain ⟨d₁, hd₁, hd', -⟩ := hvisited.self
      rw [hqm] at hd₁ hd'
      obtain rfl := some.inj (hd.symm.trans hd₁)
      exact ⟨s', _, hs', hafter s' _ hs' hd',
        .inl ⟨⟨p, hp, hpa, hq.trans (congrArg some hqm)⟩, by rw [← hdm]⟩⟩
    · refine hunseen s' hs' (hvisited.others .event m.1 fun heq => hqm ?_).1 ?_
      · simpa using heq.symm
      · -- no other node is of this scene
        rintro ⟨p', hp', hpa', hq'⟩
        have hsame := inj_on_of_nodup_map (hx.chain_nodup (scene?_of_run hx hevent)) hp' hp
          (hpa'.trans hpa.symm)
        rw [hsame, hq] at hq'
        exact hqm (some.inj hq')
  · refine hunseen n.stSceneInfo ((run_frame hx hevent ha).1.trans hs) rfl ?_
    rintro ⟨p, hp, hpa, -⟩
    exact ha (hpa ▸ List.mem_map_of_mem hp)

omit h in
theorem reaches_of_isFor {n : SceneNode} (hn : n ∈ x.list.stList) (hm : m ∈ n.stSceneInfo.members)
    (hfor : e.IsFor m.2) : e.Reaches x.list n.addr m.1 := by
  obtain ⟨-, d, hd, hdm⟩ :=
    (SceneInfo.mem_members (hx.placed n hn).chained (q := m.1) (c := m.2)).mp hm
  exact hx.node_of_addressed ⟨n.stSceneInfo, d, hx.scene?_eq_some hn, hconf.enabled n hn, hd,
    hdm ▸ hfor⟩

/-- The members the event is for store its value and no others change theirs, when and only when
the nodes lead to these, or to members that have the value. -/
theorem last_iff :
    (∀ n ∈ x.list.stList, ∀ m ∈ n.stSceneInfo.members,
      ∃ s c, y.list.scene? n.addr = some s ∧ (m.1, c) ∈ s.members ∧
        if e.IsFor m.2 then e.isLast c = true else c.acLastValue = m.2.acLastValue) ↔
    ∀ p ∈ e.nodes x.list, ∀ n ∈ x.list.stList, n.addr = p.pstScene →
      ∀ m ∈ n.stSceneInfo.members, p.condPtr? .event = some m.1 →
        e.IsFor m.2 ∨ e.isLast m.2 = true := by
  constructor
  · intro hlast p hp n hn hna m hm hq
    by_cases hfor : e.IsFor m.2
    · exact .inl hfor
    obtain ⟨s, c, hs, hc, hkept⟩ := hlast n hn m hm
    rw [if_neg hfor] at hkept
    obtain ⟨s', c', hs', hmem, ⟨-, hseen⟩ | ⟨hnot, -⟩⟩ := member_after hx hconf h hn hm
    · obtain rfl := some.inj (hs.symm.trans hs')
      obtain rfl := (hmem c).mp hc
      right
      rw [isLast, ← hkept, hseen]
      exact e.isLast_seen m.2
    · exact absurd ⟨p, hp, hna.symm, hq⟩ hnot
  · intro hpairs n hn m hm
    obtain ⟨s, c, hs, hmem, hcase⟩ := member_after hx hconf h hn hm
    refine ⟨s, c, hs, (hmem c).mpr rfl, ?_⟩
    by_cases hfor : e.IsFor m.2
    · rw [if_pos hfor]
      obtain ⟨-, rfl⟩ | ⟨hnot, -⟩ := hcase
      · exact e.isLast_seen m.2
      · exact absurd (reaches_of_isFor hx hconf hn hm hfor) hnot
    · rw [if_neg hfor]
      obtain ⟨⟨p, hp, hna, hq⟩, rfl⟩ | ⟨-, rfl⟩ := hcase
      · have hlast := (hpairs p hp n hn hna.symm m hm hq).resolve_left hfor
        rw [EventCond.seen_of_isLast hlast]
      · rfl

end

/-! ### The requests -/

theorem conds_sublist (s : SceneInfo) :
    (s.list .or .event).conds.Sublist (s.members.map Prod.snd) := by
  have hmap : s.members.map Prod.snd =
      (s.list .or .event).stList.flatMap fun n => n.pstCond.map CondNode.stCond := by
    rw [members, CondList.entries, map_flatMap]
    simp only [List.map_map]
    rfl
  rw [hmap, CondList.conds, CondList.walk]
  split
  · exact nil_sublist _
  · exact List.Sublist.refl _

section

variable (hx : Indexed x.list)
include hx

theorem changed_nodup (hleads : ∀ p ∈ e.nodes x.list, p.Leads x.list fun _ => True) :
    ((e.changed x.list).map SceneNode.addr).Nodup := by
  have hnodup := hx.chain_nodup fun p hp => by
    obtain ⟨s, hs, -⟩ := hleads p hp
    exact ⟨s, hs⟩
  refine List.Nodup.sublist ?_ hnodup
  have haddr : ∀ ps : List PtrNode, ((ps.filterMap fun p => p.changed? x.list e).map
      SceneNode.addr).Sublist (ps.map pstScene) := by
    intro ps
    induction ps with
    | nil => exact List.Sublist.refl _
    | cons p ps ih =>
      rw [filterMap_cons]
      cases hp : p.changed? x.list e with
      | none => exact ih.cons _
      | some n =>
        rw [map_cons, map_cons, (changed?_eq_some.mp hp).1]
        exact ih.cons_cons _
  exact haddr _

theorem mem_changed (hconf : StateSynced x.list) {n : SceneNode} (hn : n ∈ x.list.stList)
    (hm : m ∈ n.stSceneInfo.members) (hfor : e.IsFor m.2) (hlast : e.isLast m.2 = false) :
    n ∈ e.changed x.list := by
  obtain ⟨p, hp, hpa, hq⟩ := reaches_of_isFor hx hconf hn hm hfor
  obtain ⟨-, d, hd, hdm⟩ :=
    (mem_members (hx.placed n hn).chained (q := m.1) (c := m.2)).mp hm
  refine mem_filterMap.mpr ⟨p, hp, changed?_eq_some.mpr ⟨hpa.symm, ?_, ?_⟩⟩
  · rw [hpa]
    exact hx.scene?_eq_some hn
  · exact ⟨hconf.enabled n hn, m.1, d, hq, hd, hdm ▸ hconf.trigger n hn m hm, hdm ▸ hlast⟩

theorem request_injOn {n : SceneNode} (hn : n ∈ x.list.stList) {m' : CondPtr .event × EventCond}
    (hm : m ∈ n.stSceneInfo.members) (hm' : m' ∈ n.stSceneInfo.members)
    (h : e.request a m.2 = e.request a m'.2) : m = m' := by
  have hdev := congrArg SyncReq.acDevId h
  have hkey := congrArg SyncReq.acKey h
  refine hx.eq_of_hashKey_eq (hx.scene?_eq_some hn) hm hm' ?_
  exact congrArg₂ eventHashKey hdev hkey

theorem count_wanted {n : SceneNode} (hn : n ∈ x.list.stList) (hm : m ∈ n.stSceneInfo.members) :
    (e.wanted n).count (e.request n.addr m.2) = 1 ↔
      m.2 ∈ (n.stSceneInfo.list .or .event).conds.take condMaxNum ∧ e.same m.2 = false := by
  have hentries : (n.stSceneInfo.members.map fun m => e.request n.addr m.2).Nodup :=
    List.Nodup.map_on (fun m hm m' hm' => request_injOn hx hn hm hm')
      (List.Nodup.of_map _ (hx.placed n hn).chained.members_nodup)
  have hsub : (e.wanted n).Sublist (n.stSceneInfo.members.map fun m => e.request n.addr m.2) := by
    have hconds := (filter_sublist (p := fun c => !e.same c)).trans
      ((take_sublist condMaxNum _).trans (conds_sublist n.stSceneInfo))
    have := hconds.map (e.request n.addr)
    rw [List.map_map] at this
    exact this
  have hmem : e.request n.addr m.2 ∈ e.wanted n ↔
      m.2 ∈ (n.stSceneInfo.list .or .event).conds.take condMaxNum ∧ e.same m.2 = false := by
    rw [wanted, List.mem_map]
    constructor
    · rintro ⟨c, hc, hreq⟩
      obtain ⟨hc, hsame⟩ := mem_filter.mp hc
      obtain ⟨m', hm', rfl⟩ := List.mem_map.mp
        ((conds_sublist n.stSceneInfo).subset (mem_of_mem_take hc))
      rw [← request_injOn hx hn hm' hm hreq]
      exact ⟨hc, by simpa using hsame⟩
    · rintro ⟨hc, hsame⟩
      exact ⟨m.2, mem_filter.mpr ⟨hc, by simp [hsame]⟩, rfl⟩
  rw [← hmem]
  constructor
  · intro hone
    exact count_pos_iff.mp (hone ▸ Nat.one_pos)
  · exact count_eq_one_of_mem (hsub.nodup hentries)

/-- Of the scenes that see a change, one makes the requests for its members. -/
theorem count_requests (hleads : ∀ p ∈ e.nodes x.list, p.Leads x.list fun _ => True)
    {n : SceneNode} (hn : n ∈ e.changed x.list) (c : EventCond) :
    ((e.changed x.list).flatMap e.wanted).count (e.request n.addr c) =
      (e.wanted n).count (e.request n.addr c) := by
  obtain ⟨ns, ms, hsplit⟩ := append_of_mem hn
  have hnodup := changed_nodup hx hleads
  rw [hsplit, map_append, map_cons, nodup_middle, nodup_cons,
    ← map_append] at hnodup
  have hother : ∀ m ∈ ns ++ ms, (e.wanted m).count (e.request n.addr c) = 0 := by
    intro m hm
    rw [count_eq_zero]
    intro hmem
    obtain ⟨c', -, heq⟩ := List.mem_map.mp hmem
    have haddr : m.addr = n.addr := congrArg SyncReq.pstScene heq
    exact hnodup.1 (haddr ▸ List.mem_map_of_mem hm)
  have hzero : ∀ ks : List SceneNode, (∀ m ∈ ks, m ∈ ns ++ ms) →
      (ks.flatMap e.wanted).count (e.request n.addr c) = 0 := by
    intro ks hks
    rw [count_eq_zero]
    intro hmem
    obtain ⟨m, hm, hmem⟩ := mem_flatMap.mp hmem
    exact count_eq_zero.mp (hother m (hks m hm)) hmem
  rw [hsplit, flatMap_append, flatMap_cons, count_append, count_append,
    hzero ns fun m hm => mem_append_left _ hm,
    hzero ms fun m hm => mem_append_right _ hm, Nat.zero_add, Nat.add_zero]

end

theorem not_isFor_of_mem_wanted {n : SceneNode} {r : SyncReq} (hr : r ∈ e.wanted n) :
    ¬ (r.acDevId = e.acDevId ∧ r.acKey = e.acKey) := by
  obtain ⟨c, hc, rfl⟩ := List.mem_map.mp hr
  rintro ⟨hdev, hkey⟩
  have hdev : c.acDevId = e.acDevId := hdev
  have hkey : c.acKey = e.acKey := hkey
  have hsame : e.same c = true := by rw [same_iff, hdev, hkey]
  have hnot := (mem_filter.mp hc).2
  rw [hsame] at hnot
  cases hnot

theorem answers_once_iff {qs : List Nat} {ns : List SceneNode} :
    ((ns.drop qs.length).flatMap e.wanted = [] ∧ (qs.take ns.length).length = 1) ↔
      qs ≠ [] ∧ ∃ n ms, ns = n :: ms ∧
        (ms = [] ∨ qs.length = 1 ∧ ∀ m ∈ ms, e.wanted m = []) := by
  cases qs with
  | nil => simp
  | cons q qs =>
    cases ns with
    | nil => simp
    | cons n ms =>
      rw [length_cons, length_cons, drop_succ_cons, take_succ_cons,
        length_cons, length_take, flatMap_eq_nil_iff]
      simp only [ne_eq, reduceCtorEq, not_false_eq_true, true_and, List.cons.injEq]
      constructor
      · rintro ⟨hnone, hlen⟩
        refine ⟨n, ms, ⟨rfl, rfl⟩, ?_⟩
        rcases Nat.min_eq_zero_iff.mp (Nat.succ.inj hlen) with hms | hqs
        · exact .inl (length_eq_zero_iff.mp hms)
        · rw [hqs, drop_zero] at hnone
          exact .inr ⟨by rw [hqs], hnone⟩
      · rintro ⟨n', ms', ⟨rfl, rfl⟩, rfl | ⟨hqs, hnone⟩⟩
        · simp
        · have hqs : qs.length = 0 := Nat.succ.inj hqs
          rw [hqs, drop_zero, Nat.min_zero]
          exact ⟨hnone, rfl⟩

/-! ### The theorem -/

/-- In every state reached in which the scenes are not disabled and their `Or` event conditions of
type `StateSync`, an event is propagated when and only when nothing disturbs it. -/
theorem sceneListEvent_propagates_iff {as : List Act}
    (hrun : Run.run Engine.noteStep .init as = some (x, log)) (hconf : StateSynced x.list)
    (iTime : Int) (e : Event) : Propagates x log iTime e ↔ Undisturbed x log iTime e := by
  obtain ⟨hx, htracked⟩ := run_tracked hrun
  -- what a run of the event answers and requests
  have hnotes : ∀ y os, sceneListEventNotes x iTime e = some (y, os) →
      answers os = (x.sync.pending e).take (e.changed x.list).length ∧
      requests os = ((e.changed x.list).drop (x.sync.pending e).length).flatMap e.wanted :=
    fun y os h => (run_stateSync htracked (sceneListEventNotes_sync hx h)).2
  have hresponse : ∀ y os, sceneListEventNotes x iTime e = some (y, os) →
      (requests os = [] ∧ (∃ q ∈ outstanding log e, answers os = [q]) ↔
        x.sync.pending e ≠ [] ∧ ∃ n ns, e.changed x.list = n :: ns ∧
          (ns = [] ∨ (x.sync.pending e).length = 1 ∧ ∀ m ∈ ns, e.wanted m = [])) := by
    intro y os h
    obtain ⟨hansw, hreqs⟩ := hnotes y os h
    rw [hansw, hreqs, ← answers_once_iff]
    refine and_congr_right fun _ => ?_
    rw [length_eq_one_iff]
    constructor
    · rintro ⟨q, -, hq⟩
      exact ⟨q, hq⟩
    · rintro ⟨q, hq⟩
      have hmem : q ∈ (x.sync.pending e).take (e.changed x.list).length := by
        rw [hq]
        exact mem_singleton_self q
      exact ⟨q, htracked.mem_outstanding (mem_of_mem_take hmem), hq⟩
  have hrequests : outstanding log e = [] → ∀ y os,
      sceneListEventNotes x iTime e = some (y, os) →
      requests os = (e.changed x.list).flatMap e.wanted := by
    intro hnone y os h
    have hpending : x.sync.pending e = [] := by
      rw [eq_nil_iff_forall_not_mem]
      intro q hq
      have hmem := htracked.mem_outstanding hq
      rw [hnone] at hmem
      cases hmem
    rw [(hnotes y os h).2, hpending]
    rfl
  constructor
  · rintro ⟨y, os, h, hprop⟩
    obtain ⟨hleads, hroom, hpanels⟩ :=
      (sceneListEventNotes_isSome_iff hx).mp (isSome_iff_exists.mpr ⟨_, h⟩)
    refine ⟨hleads, hroom, hpanels, (last_iff hx hconf h).mp hprop.last,
      fun hne => (hresponse y os h).mp (hprop.response hne), ?_⟩
    intro hnone n hn m hm hfor hlast m' hm' hother
    have hone := (hprop.report hnone n hn m hm hfor hlast).1 m' hm' hother
    rw [hrequests hnone y os h,
      count_requests hx hleads (mem_changed hx hconf hn hm hfor hlast)] at hone
    exact (count_wanted hx hn hm').mp hone
  · intro hundist
    obtain ⟨⟨y, os⟩, h⟩ := isSome_iff_exists.mp
      ((sceneListEventNotes_isSome_iff hx).mpr ⟨hundist.leads, hundist.room, hundist.panels⟩)
    refine ⟨y, os, h, fun hne => (hresponse y os h).mpr (hundist.response hne), ?_,
      (last_iff hx hconf h).mpr hundist.pairs⟩
    intro hnone n hn m hm hfor hlast
    rw [hrequests hnone y os h]
    refine ⟨fun m' hm' hother => ?_, fun r hr _ => ?_⟩
    · rw [count_requests hx hundist.leads (mem_changed hx hconf hn hm hfor hlast)]
      exact (count_wanted hx hn hm').mpr (hundist.report hnone n hn m hm hfor hlast m' hm' hother)
    · obtain ⟨n', -, hr⟩ := mem_flatMap.mp hr
      exact not_isFor_of_mem_wanted hr

namespace Sample

/-- The attribute `key` of `d` follows the others of its scene. -/
def follower (key : CText) : EventCond :=
  { eventCond key [] with acTriggerType := triggerStateSync }

/-- A scene with these attributes of `d`. -/
def followers (acSceneId : CText) (keys : List CText) : List Act :=
  .sceneAdd { text with acSceneId := acSceneId } ::
    keys.map fun key => .condAdd acSceneId .or .event (follower key)

/-- The attribute `m` of `d` becomes 1, and what is requested then is sent. -/
def asked : List Act := [.event 0 (reported ['d'] ['m']), .execQueue 0]

/-- The attribute `k` was asked to follow `m` in one scene. -/
def oneScene : List Act := followers ['1'] [['k'], ['m']] ++ asked

/-- In another scene, `n` follows `k`. -/
def twoScenes : List Act := followers ['1'] [['k'], ['m']] ++ followers ['2']
    [['k'], ['n']] ++ asked

/-- The state after some actions, and what happened to requests. -/
def noted (as : List Act) : Engine × List SyncNote :=
  (Run.run Engine.noteStep .init as).getD (.init, [])

end Sample

open Sample in
/-- The answer of `k` in the one scene. -/
theorem sceneListEvent_propagates_oneScene :
    Run.run Engine.noteStep .init oneScene = some (noted oneScene) ∧
      StateSynced (noted oneScene).1.list ∧
      Propagates (noted oneScene).1 (noted oneScene).2 0 (reported ['d'] ['k']) := by
  have hrun : Run.run Engine.noteStep .init oneScene = some (noted oneScene) := by decide +kernel
  have hconf : StateSynced (noted oneScene).1.list := ⟨by decide +kernel, by decide +kernel⟩
  refine ⟨hrun, hconf, (sceneListEvent_propagates_iff hrun hconf 0 _).mpr ?_⟩
  refine ⟨by decide +kernel, by decide +kernel, by decide +kernel, by decide +kernel,
    fun _ => ⟨by decide +kernel, ?_⟩, by decide +kernel⟩
  have hone : ((reported ['d'] ['k']).changed (noted oneScene).1.list).length = 1 := by
    decide +kernel
  obtain ⟨n, hn⟩ := length_eq_one_iff.mp hone
  exact ⟨n, [], hn, .inl rfl⟩

open Sample in
/-- The answer of `k` is taken for one in one of the two scenes, and for a report in the other,
which asks `m` for the value it gave. -/
theorem sceneListEvent_not_propagates :
    Run.run Engine.noteStep .init twoScenes = some (noted twoScenes) ∧
      StateSynced (noted twoScenes).1.list ∧
      ¬ Propagates (noted twoScenes).1 (noted twoScenes).2 0 (reported ['d'] ['k']) := by
  refine ⟨by decide +kernel, ⟨by decide +kernel, by decide +kernel⟩, ?_⟩
  rintro ⟨y, os, h, hprop⟩
  obtain ⟨hnone, -⟩ := hprop.response (by decide +kernel)
  have hechoed : (sceneListEventNotes (noted twoScenes).1 0 (reported ['d'] ['k'])).map
      (fun r => requests r.2) = some [⟨0, ['d'], ['m'], ['1']⟩] := by decide +kernel
  rw [h, map_some, hnone] at hechoed
  cases hechoed

end Honyar.LocalScene
