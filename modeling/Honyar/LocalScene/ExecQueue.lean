import Honyar.LocalScene.Engine
import Honyar.Lib.Ring

/-!
# The execution queue

`scene_list_exec` puts a scene at the end of a ring, and each pass of the thread
`scene_exec` walks once around it, executes the scenes whose delay is over and
takes them out behind itself.  A pass at a time executes, in the order of the ring,
exactly the scenes that are due then, and the engine's `execQueue` says the same of
the list.  Hence a scene that is queued is executed once, by the first pass that
comes late enough.
-/

namespace Honyar.LocalScene

open CText Option List

/-! ## A pass -/

/-- The walk of a pass from a block on, over at most `n` blocks, with the scenes
it executes. -/
def sceneExecFrom (iTime : Int) : Nat → Nat → Ring QueueNode →
    Option (Ring QueueNode × List QueueNode)
  | 0, pstPtr, l => if pstPtr = l.head then some (l, []) else none
  | n + 1, pstPtr, l =>
    if pstPtr = l.head then some (l, [])
    else do
      let q ← l.data pstPtr
      if q.iExecDelayed = 0 then
        -- the next block is looked up before this one is given back
        let pstNext := l.next pstPtr
        let l ← l.del pstPtr
        let (l, qs) ← sceneExecFrom iTime n pstNext l
        return (l, q :: qs)
      else if iTime - q.iTime ≥ q.iExecDelayed then
        let pstNext := l.next pstPtr
        let l ← l.del pstPtr
        let (l, qs) ← sceneExecFrom iTime n pstNext l
        return (l, q :: qs)
      else sceneExecFrom iTime n (l.next pstPtr) l

/-- A pass of the thread `scene_exec`.  No more blocks than were ever given out can
be in the ring. -/
def sceneExec (iTime : Int) (l : Ring QueueNode) : Option (Ring QueueNode × List QueueNode) :=
  if l.num = 0 then some (l, []) else sceneExecFrom iTime l.fresh (l.next l.head) l

/-- The pass executes the scene. -/
def QueueNode.due (iTime : Int) (q : QueueNode) : Bool :=
  decide (q.iExecDelayed = 0 ∨ iTime - q.iTime ≥ q.iExecDelayed)

section Pass

variable {iTime : Int} {l : Ring QueueNode}

theorem sceneExecFrom_due {n p : Nat} {q : QueueNode} (hp : p ≠ l.head)
    (hdata : l.data p = some q) (hdue : q.due iTime = true) :
    sceneExecFrom iTime (n + 1) p l = (l.del p).bind fun l' =>
      (sceneExecFrom iTime n (l.next p) l').map fun r => (r.1, q :: r.2) := by
  have hbind : ∀ o : Option (Ring QueueNode × List QueueNode),
      (o.bind fun r => some (r.1, q :: r.2)) = o.map fun r => (r.1, q :: r.2) := fun o => by
    cases o <;> rfl
  rw [QueueNode.due, decide_eq_true_iff] at hdue
  simp only [sceneExecFrom, if_neg hp, hdata, bind_eq_bind, bind_some]
  split
  · simp only [Option.pure_def, hbind]
  · rename_i hne
    rw [if_pos (hdue.resolve_left hne)]
    simp only [Option.pure_def, hbind]

theorem sceneExecFrom_wait {n p : Nat} {q : QueueNode} (hp : p ≠ l.head)
    (hdata : l.data p = some q) (hdue : q.due iTime = false) :
    sceneExecFrom iTime (n + 1) p l = sceneExecFrom iTime n (l.next p) l := by
  rw [QueueNode.due, decide_eq_false_iff_not, not_or] at hdue
  simp only [sceneExecFrom, if_neg hp, hdata, bind_eq_bind, bind_some]
  rw [if_neg hdue.1, if_neg hdue.2]

/-- The walk over the rest of a ring: what is due is executed and taken out, in
order, and what is not stays. -/
theorem sceneExecFrom_eq {as bs : List (Nat × QueueNode)} (h : l.Holds (as ++ bs)) {n : Nat}
    (hn : bs.length ≤ n) :
    ∃ l', sceneExecFrom iTime n ((bs.map Prod.fst).headD l.head) l =
        some (l', (bs.map Prod.snd).filter (QueueNode.due iTime)) ∧
      l'.Holds (as ++ bs.filter fun q => !q.2.due iTime) := by
  induction bs generalizing as n l with
  | nil =>
    refine ⟨l, ?_, h⟩
    cases n <;> exact if_pos rfl
  | cons b bs ih =>
    obtain ⟨p, q⟩ := b
    obtain ⟨n, rfl⟩ := Nat.exists_eq_add_one_of_ne_zero (Nat.ne_zero_of_lt hn)
    have hlen : bs.length ≤ n := Nat.le_of_succ_le_succ hn
    rw [map_cons, map_cons, headD_cons, filter_cons, filter_cons]
    cases hdue : q.due iTime with
    | true =>
      obtain ⟨l₁, hdel, hhead, -, hrest⟩ := h.del
      obtain ⟨l', hwalk, hl'⟩ := ih hrest hlen
      rw [hhead] at hwalk
      refine ⟨l', ?_, hl'⟩
      rw [sceneExecFrom_due h.ne_head h.data_eq hdue, hdel, bind_some, h.next_eq, hwalk]
      rfl
    | false =>
      have hsplit : as ++ (p, q) :: bs = (as ++ [(p, q)]) ++ bs := by
        rw [append_assoc]
        rfl
      obtain ⟨l', hwalk, hl'⟩ := ih (hsplit ▸ h) hlen
      refine ⟨l', ?_, ?_⟩
      · rw [sceneExecFrom_wait h.ne_head h.data_eq hdue, h.next_eq, hwalk]
        rfl
      · rw [append_assoc] at hl'
        exact hl'

theorem sceneExec_eq {qs : List QueueNode} (h : l.Items qs) (iTime : Int) :
    ∃ l', sceneExec iTime l = some (l', qs.filter (QueueNode.due iTime)) ∧
      l'.Items (qs.filter fun q => !q.due iTime) := by
  obtain ⟨xs, hxs, rfl⟩ := h
  rw [sceneExec]
  split
  next hnum =>
    obtain rfl : xs = [] := length_eq_zero_iff.mp (hxs.num ▸ hnum)
    exact ⟨l, rfl, [], hxs, rfl⟩
  next =>
    obtain ⟨l', hwalk, hl'⟩ := @sceneExecFrom_eq iTime l [] xs hxs _ hxs.length_le
    rw [hxs.next_head]
    refine ⟨l', hwalk, _, hl', ?_⟩
    rw [nil_append, List.filter_map]
    rfl

end Pass

/-! ## Runs -/

/-- A scene is queued, or the thread makes a pass. -/
inductive ExecAct where
  | exec (iTime : Int) (a : Nat) (pstInfo : SceneInfo)
  | pass (iTime : Int)

namespace ExecAct

/-- One step, with the scenes it executes. -/
def step (l : Ring QueueNode) : ExecAct → Option (Ring QueueNode × List QueueNode)
  | exec iTime a s => (l.inst l.tail (queueNode iTime a s)).map fun l => (l, [])
  | pass iTime => sceneExec iTime l

/-- A pass that comes late enough for the scene: the time since it was queued is at
least its delay. -/
def inTime (q : QueueNode) : ExecAct → Bool
  | exec _ _ _ => false
  | pass iTime => decide (iTime - q.iTime ≥ q.iExecDelayed)

/-- A pass is not before the queueing of a scene that it finds. -/
def NotBefore : ExecAct → ExecAct → Prop
  | exec iTime _ _, pass iTime' => iTime ≤ iTime'
  | _, _ => True

end ExecAct

/-- Everything that was queued, in order. -/
def queued : List ExecAct → List QueueNode
  | [] => []
  | .exec iTime a s :: acts => queueNode iTime a s :: queued acts
  | .pass _ :: acts => queued acts

/-- The scenes for which no pass came late enough since they were queued, in the
order in which they were queued. -/
def waiting : List ExecAct → List QueueNode
  | [] => []
  | .exec iTime a s :: acts =>
    if acts.any (ExecAct.inTime (queueNode iTime a s)) then waiting acts
    else queueNode iTime a s :: waiting acts
  | .pass _ :: acts => waiting acts

section Runs

variable {acts : List ExecAct}

theorem waiting_append_exec (iTime : Int) (a : Nat) (s : SceneInfo) :
    waiting (acts ++ [.exec iTime a s]) = waiting acts ++ [queueNode iTime a s] := by
  induction acts with
  | nil => rfl
  | cons b acts ih =>
    cases b with
    | pass t => exact ih
    | exec t a' s' =>
      rw [cons_append, waiting, waiting, any_append, any_cons,
        ExecAct.inTime, any_nil, Bool.or_false, Bool.or_false, ih]
      split <;> rfl

theorem waiting_append_pass (iTime : Int) :
    waiting (acts ++ [.pass iTime]) =
      (waiting acts).filter fun q => !(ExecAct.pass iTime).inTime q := by
  induction acts with
  | nil => rfl
  | cons b acts ih =>
    cases b with
    | pass t => exact ih
    | exec t a' s' =>
      rw [cons_append, waiting, waiting, any_append, any_cons, any_nil,
        Bool.or_false, ih]
      cases acts.any (ExecAct.inTime (queueNode t a' s')) with
      | true => rfl
      | false =>
        rw [Bool.false_or, if_neg Bool.false_ne_true, filter_cons]
        cases (ExecAct.pass iTime).inTime (queueNode t a' s') <;> rfl

theorem exists_exec_of_mem_waiting {q : QueueNode} (h : q ∈ waiting acts) :
    ∃ iTime a s, .exec iTime a s ∈ acts ∧ q = queueNode iTime a s := by
  induction acts with
  | nil => exact nomatch h
  | cons b acts ih =>
    have hrest : q ∈ waiting acts →
        ∃ iTime a s, .exec iTime a s ∈ b :: acts ∧ q = queueNode iTime a s := by
      intro hq
      obtain ⟨iTime, a, s, hmem, hq⟩ := ih hq
      exact ⟨iTime, a, s, mem_cons_of_mem _ hmem, hq⟩
    cases b with
    | pass t => exact hrest h
    | exec t a s =>
      rw [waiting] at h
      split at h
      · exact hrest h
      · rcases mem_cons.mp h with rfl | h
        · exact ⟨t, a, s, mem_cons_self, rfl⟩
        · exact hrest h

theorem queued_append (as bs : List ExecAct) : queued (as ++ bs) = queued as ++ queued bs := by
  induction as with
  | nil => rfl
  | cons a as ih =>
    cases a with
    | pass t => exact ih
    | exec t a s => exact congrArg (queueNode t a s :: ·) ih

theorem due_eq_inTime {iTime : Int} {q : QueueNode}
    (hclock : (acts ++ [ExecAct.pass iTime]).Pairwise ExecAct.NotBefore) (hq : q ∈ waiting acts) :
    q.due iTime = (ExecAct.pass iTime).inTime q := by
  obtain ⟨t, a, s, hmem, rfl⟩ := exists_exec_of_mem_waiting hq
  have hle : t ≤ iTime :=
    (pairwise_append.mp hclock).2.2 _ hmem _ (mem_singleton_self _)
  rw [QueueNode.due, ExecAct.inTime, decide_eq_decide]
  constructor
  · rintro (hzero | hdue)
    · rw [hzero]
      exact Int.sub_nonneg_of_le hle
    · exact hdue
  · exact Or.inr

theorem sceneExec_waiting {iTime : Int} {l : Ring QueueNode}
    (hclock : (acts ++ [ExecAct.pass iTime]).Pairwise ExecAct.NotBefore)
    (h : l.Items (waiting acts)) :
    ∃ l', sceneExec iTime l =
        some (l', (waiting acts).filter fun q => (ExecAct.pass iTime).inTime q) ∧
      l'.Items (waiting (acts ++ [.pass iTime])) := by
  have hdue : ∀ q ∈ waiting acts, q.due iTime = (ExecAct.pass iTime).inTime q := fun q hq =>
    due_eq_inTime hclock hq
  obtain ⟨l', hpass, hl'⟩ := sceneExec_eq h iTime
  refine ⟨l', ?_, ?_⟩
  · rw [hpass, filter_congr hdue]
  · rw [waiting_append_pass]
    rwa [filter_congr fun q hq => congrArg not (hdue q hq)] at hl'

/-- After a run the ring stands for what waits, and everything that was queued was
executed or waits. -/
theorem run_waiting (hclock : acts.Pairwise ExecAct.NotBefore) :
    ∃ l os, Run.run ExecAct.step Ring.empty acts = some (l, os) ∧ l.Items (waiting acts) ∧
      (os ++ waiting acts).Perm (queued acts) := by
  induction acts using List.reverseRecOn with
  | nil => exact ⟨_, [], rfl, Ring.items_empty, List.Perm.refl _⟩
  | append_singleton acts a ih =>
    obtain ⟨l, os, hrun, hitems, hperm⟩ := ih (pairwise_append.mp hclock).1
    rw [queued_append]
    cases a with
    | exec t a s =>
      obtain ⟨l', hinst, hl'⟩ := hitems.inst_tail (queueNode t a s)
      have hstep : ExecAct.step l (.exec t a s) = some (l', []) := by
        rw [ExecAct.step, hinst]
        rfl
      rw [waiting_append_exec]
      refine ⟨l', os, Run.run_snoc.mpr ⟨l, os, [], hrun, hstep, ?_⟩, hl', ?_⟩
      · exact (append_nil os).symm
      · rw [← append_assoc]
        exact hperm.append_right _
    | pass t =>
      obtain ⟨l', hpass, hl'⟩ := sceneExec_waiting hclock hitems
      refine ⟨l', _, Run.run_snoc.mpr ⟨l, os, _, hrun, hpass, rfl⟩, hl', ?_⟩
      rw [waiting_append_pass, append_assoc]
      have hsplit := filter_append_perm (fun q => (ExecAct.pass t).inTime q)
        (waiting acts)
      have hnone : queued acts ++ queued [ExecAct.pass t] = queued acts := append_nil _
      rw [hnone]
      exact (hsplit.append_left os).trans hperm

end Runs

namespace Sample

/-- A scene with a delay of ten seconds, and passes after five and twelve. -/
def delayed : List ExecAct :=
  [.exec 0 0 (.new { text with acExecDelayed := ['1', '0'] }), .pass 5, .pass 12]

end Sample

end Honyar.LocalScene
