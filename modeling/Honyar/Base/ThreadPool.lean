import Honyar.Lib.Lists
import Honyar.Lib.Run
import Mathlib.Data.List.Nodup
import Mathlib.Data.List.Perm.Subperm
import Mathlib.Tactic.Common

/-!
# The thread pool

The tasks of a pool are nodes of one singly linked list: those that wait and those that a
thread is carrying out.  A thread keeps the address of its node while it runs the task and
takes the node out of the list by that address; `thread_pool_del_worker` takes it out by the
task's id.  Every critical section is one action of the machine below, and so is the part of
`thread_pool_add_worker` that runs before the lock is taken.

The list is compared with the history: the tasks added and neither completed nor deleted, in
the order in which they were added.
-/

namespace Honyar.Base

open Option List Function

/-! ## The pool -/

/-- `thread_worker_t`.  `addr` is the address `base_calloc` gave the node, and `task` stands
for `process` and its argument. -/
structure Worker (τ : Type) where
  addr : Nat
  workerId : Nat
  threadid : Option Nat
  task : τ
deriving DecidableEq

/-- Where a thread of the pool is: at `pthread_cond_wait`, in the task whose node it holds,
in such a task with a cancellation pending, or ended. -/
inductive Thread where
  | idle
  | running (worker workerId : Nat)
  | cancelled (worker workerId : Nat)
  | gone
deriving DecidableEq

namespace Thread

/-- The node the thread holds, with the id of the task it was taken for. -/
def task : Thread → Option (Nat × Nat)
  | running p i => some (p, i)
  | cancelled p i => some (p, i)
  | _ => none

/-- `pthread_cancel`: a thread that waits is at a cancellation point, one that runs a task
comes to the next one after it. -/
def cancel : Thread → Thread
  | running p i => cancelled p i
  | cancelled p i => cancelled p i
  | _ => gone

/-- After the task: back to the wait, where a pending cancellation ends the thread. -/
def finish : Thread → Thread
  | running _ _ => idle
  | _ => gone

@[simp] theorem task_idle : idle.task = none := rfl

@[simp] theorem task_cancel (t : Thread) : t.cancel.task = t.task := by
  cases t <;> rfl

@[simp] theorem task_finish (t : Thread) : t.finish.task = none := by
  cases t <;> rfl

end Thread

/-- `thread_pool_t` with the program's `g_worker_id`, the addresses in use and the nodes
made by calls of `thread_pool_add_worker` that do not have the lock yet.  `head` is the list
that starts there. -/
structure ThreadPool (τ : Type) where
  gWorkerId : Nat
  heap : List Nat
  created : List (Worker τ)
  head : List (Worker τ)
  queueSize : Int
  thread : Nat → Thread

/-- What happens to the tasks. -/
inductive Event (τ : Type) where
  | added (workerId : Nat) (task : τ)
  | started (workerId : Nat)
  | completed (workerId : Nat)
  | deleted (workerId : Nat)
deriving DecidableEq

inductive Action (τ : Type) where
  /-- `thread_pool_add_worker` up to the lock; the node is at a free address. -/
  | create (addr : Nat) (task : τ)
  /-- Its critical section. -/
  | append (addr : Nat)
  /-- The first critical section of `thread_routine`, after the wait. -/
  | start (t : Nat)
  /-- The task has returned: the second one. -/
  | complete (t : Nat)
  /-- `thread_pool_del_worker`. -/
  | delete (workerId : Nat)
  /-- `thread_keepalive` replaces an ended thread. -/
  | renew (t : Nat)

variable {τ : Type}

/-- What the list shows of a node. -/
def Worker.entry (w : Worker τ) : Nat × τ :=
  (w.workerId, w.task)

namespace ThreadPool

variable {found : Worker τ → Bool} {s s' : ThreadPool τ}

/-- The pool before any task; any number of tasks may have been numbered before. -/
def empty (gWorkerId : Nat) : ThreadPool τ where
  gWorkerId := gWorkerId
  heap := []
  created := []
  head := []
  queueSize := 0
  thread := fun _ => .idle

def setThread (s : ThreadPool τ) (t : Nat) (th : Thread) : ThreadPool τ :=
  { s with thread := Function.update s.thread t th }

/-- The list without the first node that is `found`, and that node.  When it is the head,
`head` becomes `NULL` and not the node behind it. -/
def takeOut (found : Worker τ → Bool) : List (Worker τ) → List (Worker τ) × Option (Worker τ)
  | [] => ([], none)
  | w :: ws => if found w then ([], some w) else (w :: ws.eraseP found, ws.find? found)

/-- Taking a node out, with the size counted down and the node given back. -/
def unlink (found : Worker τ → Bool) (s : ThreadPool τ) : ThreadPool τ :=
  match takeOut found s.head with
  | (_, none) => s
  | (ws, some w) =>
    { s with head := ws, queueSize := s.queueSize - 1, heap := s.heap.erase w.addr }

/-- The search for a task nobody carries out: the node found and the list with the thread
written to it. -/
def takePending (t : Nat) : List (Worker τ) → Option (Worker τ × List (Worker τ))
  | [] => none
  | w :: ws =>
    match w.threadid with
    | none => some (w, { w with threadid := some t } :: ws)
    | some _ => (takePending t ws).map fun (v, vs) => (v, w :: vs)

/-- The thread to cancel for `workerId`, if the task is in the list and has one. -/
def threadOf (workerId : Nat) (s : ThreadPool τ) : Option Nat :=
  (s.head.find? (·.workerId = workerId)).bind (·.threadid)

/-- `thread_pool_del_worker`: the running task's thread is cancelled, the node goes. -/
def delWorker (workerId : Nat) (s : ThreadPool τ) : ThreadPool τ :=
  let s' := match threadOf workerId s with
    | some t => s.setThread t (s.thread t).cancel
    | none => s
  s'.unlink (·.workerId = workerId)

/-- One critical section.  An action the state does not allow (an address in use, a thread
that is elsewhere) is no step. -/
def step (s : ThreadPool τ) : Action τ → Option (ThreadPool τ × List (Event τ))
  | .create p x =>
    if p ∈ s.heap then none
    else
      let w : Worker τ := ⟨p, s.gWorkerId + 1, none, x⟩
      some ({ s with gWorkerId := s.gWorkerId + 1, heap := p :: s.heap,
                     created := s.created ++ [w] }, [])
  | .append p =>
    match s.created.find? (·.addr = p) with
    | none => none
    | some w =>
      some ({ s with created := s.created.eraseP (·.addr = p), head := s.head ++ [w],
                     queueSize := s.queueSize + 1 }, [.added w.workerId w.task])
  | .start t =>
    if s.thread t = .idle then
      match takePending t s.head with
      | none => some (s, [])
      | some (w, ws) =>
        some ({ s with head := ws }.setThread t (.running w.addr w.workerId),
          [.started w.workerId])
    else none
  | .complete t =>
    (s.thread t).task.map fun (p, i) =>
      ((s.unlink (·.addr = p)).setThread t (s.thread t).finish, [.completed i])
  | .delete i => some (s.delWorker i, [.deleted i])
  | .renew t => if s.thread t = .gone then some (s.setThread t .idle, []) else none

/-! ## What the list should hold -/

/-- The tasks added and neither completed nor deleted, once `e` has happened too. -/
def after : List (Nat × τ) → Event τ → List (Nat × τ)
  | l, .added i x => l ++ [(i, x)]
  | l, .started _ => l
  | l, .completed i => l.eraseP (·.1 = i)
  | l, .deleted i => l.eraseP (·.1 = i)

/-- The tasks added and neither completed nor deleted, in order of addition. -/
def live (log : List (Event τ)) : List (Nat × τ) :=
  log.foldl after []

/-- The tasks that were started, one entry for each start. -/
def starts (log : List (Event τ)) : List Nat :=
  log.filterMap fun
    | .started i => some i
    | _ => none

/-- The pool has lost no task and started none twice. -/
structure Faithful (s : ThreadPool τ) (log : List (Event τ)) : Prop where
  tasks : s.head.map Worker.entry = live log
  size : s.queueSize = s.head.length
  once : (starts log).Nodup

/-- No node is behind a head that is `found`. -/
def Alone (found : Worker τ → Bool) (ws : List (Worker τ)) : Prop :=
  ∀ w ∈ ws.head?, found w → ws.tail = []

/-- Where a critical section is safe: a task that is completed or deleted is not at the head
of a list that goes on, and the node at the address a thread has kept, if there is one, is
still that of its task. -/
def Safe (s : ThreadPool τ) : Action τ → Prop
  | .complete t => ∀ q ∈ (s.thread t).task,
      Alone (·.addr = q.1) s.head ∧ ∀ w ∈ s.head.find? (·.addr = q.1), w.workerId = q.2
  | .delete i => Alone (·.workerId = i) s.head
  | _ => True

/-! ## Taking nodes out -/

theorem takeOut_of_alone {ws : List (Worker τ)} (h : Alone found ws) :
    takeOut found ws = (ws.eraseP found, ws.find? found) := by
  cases ws with
  | nil => rfl
  | cons w ws =>
    by_cases hw : found w
    · obtain rfl : ws = [] := h w rfl hw
      simp [takeOut, hw]
    · simp [takeOut, hw]

theorem takeOut_of_not_alone {ws : List (Worker τ)} (h : ¬ Alone found ws) :
    ∃ w v vs, ws = w :: v :: vs ∧ found w ∧ takeOut found ws = ([], some w) := by
  match ws with
  | [] => exact absurd (fun _ hw => absurd hw (by simp)) h
  | [w] => exact absurd (fun _ _ _ => rfl) h
  | w :: v :: vs =>
    have hw : found w := by
      by_contra hw
      refine h fun u hu hfound => absurd hfound ?_
      obtain rfl : w = u := by simpa using hu
      exact hw
    exact ⟨w, v, vs, rfl, hw, by simp [takeOut, hw]⟩

theorem takeOut_sublist (found : Worker τ → Bool) (ws : List (Worker τ)) :
    (takeOut found ws).1.Sublist ws := by
  cases ws with
  | nil => exact List.Sublist.refl _
  | cons w ws =>
    by_cases hw : found w
    · simp [takeOut, hw]
    · simpa [takeOut, hw] using eraseP_sublist

theorem takeOut_eq_none {ws : List (Worker τ)} (h : (takeOut found ws).2 = none) :
    (takeOut found ws).1 = ws := by
  cases ws with
  | nil => rfl
  | cons w ws =>
    by_cases hw : found w
    · simp [takeOut, hw] at h
    · simp only [takeOut, hw, Bool.false_eq_true, if_false, find?_eq_none] at h ⊢
      rw [eraseP_of_forall_not h]

@[simp] theorem unlink_head (found : Worker τ → Bool) (s : ThreadPool τ) :
    (s.unlink found).head = (takeOut found s.head).1 := by
  unfold unlink
  split
  next ws h =>
    have hnone : (takeOut found s.head).2 = none := by rw [h]
    rw [takeOut_eq_none hnone]
  next ws w h => rw [h]

@[simp] theorem unlink_created (found : Worker τ → Bool) (s : ThreadPool τ) :
    (s.unlink found).created = s.created := by
  unfold unlink; split <;> rfl

@[simp] theorem unlink_gWorkerId (found : Worker τ → Bool) (s : ThreadPool τ) :
    (s.unlink found).gWorkerId = s.gWorkerId := by
  unfold unlink; split <;> rfl

@[simp] theorem unlink_thread (found : Worker τ → Bool) (s : ThreadPool τ) :
    (s.unlink found).thread = s.thread := by
  unfold unlink; split <;> rfl

/-! ## The history -/

@[simp] theorem live_append (log : List (Event τ)) (e : Event τ) :
    live (log ++ [e]) = after (live log) e := by
  simp [live, foldl_append]

@[simp] theorem starts_append (log os : List (Event τ)) :
    starts (log ++ os) = starts log ++ starts os := by
  simp [starts]

theorem map_eraseP_entry {i : Nat} {ws : List (Worker τ)}
    (hown : ∀ w ∈ ws, w.workerId = i → found w) (h : ∀ w ∈ ws.find? found, w.workerId = i) :
    (ws.eraseP found).map Worker.entry = (ws.map Worker.entry).eraseP (·.1 = i) := by
  induction ws with
  | nil => rfl
  | cons w ws ih =>
    obtain ⟨hw, hws⟩ := forall_mem_cons.mp hown
    by_cases hf : found w
    · have hi : w.workerId = i := h w (by simp [hf])
      simp [hf, Worker.entry, hi]
    · rw [find?_cons_of_neg hf] at h
      have hi : w.workerId ≠ i := fun hi => hf (hw hi)
      rw [eraseP_cons_of_neg hf, map_cons, map_cons,
        eraseP_cons_of_neg (by simp [Worker.entry, hi]), ih hws h]

/-! ## What the steps rely on -/

/-- The nodes `ws` of the list and of the calls on their way to it are numbered apart, those
without a thread were not started, and a thread whose task is among them holds its node. -/
structure Numbered (g : Nat) (thread : Nat → Thread) (log : List (Event τ))
    (ws : List (Worker τ)) : Prop where
  nodup : (ws.map (·.workerId)).Nodup
  le : ∀ w ∈ ws, w.workerId ≤ g
  unstarted : ∀ w ∈ ws, w.threadid = none → w.workerId ∉ starts log
  startsLe : ∀ i ∈ starts log, i ≤ g
  once : (starts log).Nodup
  taskLe : ∀ t, ∀ q ∈ (thread t).task, q.2 ≤ g
  own : ∀ t, ∀ q ∈ (thread t).task, ∀ w ∈ ws, w.workerId = q.2 → w.addr = q.1

namespace Numbered

variable {g : Nat} {thread : Nat → Thread} {log : List (Event τ)} {ws vs : List (Worker τ)}

theorem of_subperm (h : Numbered g thread log ws) (hvs : vs.Subperm ws) :
    Numbered g thread log vs where
  nodup := by
    obtain ⟨us, hperm, hsub⟩ := hvs
    exact (hperm.map _).nodup_iff.mp (h.nodup.sublist (hsub.map _))
  le w hw := h.le w (hvs.subset hw)
  unstarted w hw := h.unstarted w (hvs.subset hw)
  startsLe := h.startsLe
  once := h.once
  taskLe := h.taskLe
  own t q hq w hw := h.own t q hq w (hvs.subset hw)

theorem update (h : Numbered g thread log ws) (t : Nat) (th : Thread)
    (hth : ∀ q ∈ th.task, q ∈ (thread t).task) :
    Numbered g (Function.update thread t th) log ws := by
  have hsub : ∀ u, ∀ q ∈ (Function.update thread t th u).task, q ∈ (thread u).task := by
    intro u q hq
    by_cases hu : u = t
    · subst hu
      rw [Function.update_self] at hq
      exact hth q hq
    · rwa [Function.update_of_ne hu] at hq
  exact { h with
    taskLe := fun u q hq => h.taskLe u q (hsub u q hq)
    own := fun u q hq => h.own u q (hsub u q hq) }

theorem log_append (h : Numbered g thread log ws) (os : List (Event τ)) (hos : starts os = []) :
    Numbered g thread (log ++ os) ws :=
  { h with
    unstarted := by simpa [hos] using h.unstarted
    startsLe := by simpa [hos] using h.startsLe
    once := by simpa [hos] using h.once }

theorem create (h : Numbered g thread log ws) (p : Nat) (x : τ) :
    Numbered (g + 1) thread log (ws ++ [⟨p, g + 1, none, x⟩]) where
  nodup := by
    rw [map_append, nodup_append]
    refine ⟨h.nodup, nodup_singleton _, ?_⟩
    rintro i hi j hj rfl
    obtain ⟨w, hw, rfl⟩ := List.mem_map.mp hi
    have hle := h.le w hw
    have hj : w.workerId = g + 1 := by simpa using hj
    omega
  le w hw := by
    rcases mem_append.mp hw with hw | hw
    · exact Nat.le_succ_of_le (h.le w hw)
    · exact (mem_singleton.mp hw) ▸ Nat.le_refl _
  unstarted w hw hnone := by
    rcases mem_append.mp hw with hw | hw
    · exact h.unstarted w hw hnone
    · rw [mem_singleton.mp hw]
      intro hstart
      exact absurd (h.startsLe _ hstart) (Nat.not_succ_le_self g)
  startsLe i hi := Nat.le_succ_of_le (h.startsLe i hi)
  once := h.once
  taskLe t q hq := Nat.le_succ_of_le (h.taskLe t q hq)
  own t q hq w hw hi := by
    rcases mem_append.mp hw with hw | hw
    · exact h.own t q hq w hw hi
    · rw [mem_singleton.mp hw] at hi
      have hle := h.taskLe t q hq
      have hi : g + 1 = q.2 := hi
      omega

theorem start {w : Worker τ} (h : Numbered g thread log (w :: ws)) (hw : w.threadid = none)
    (t : Nat) :
    Numbered g (Function.update thread t (.running w.addr w.workerId))
      (log ++ [.started w.workerId]) ({ w with threadid := some t } :: ws) := by
  have hne : ∀ v ∈ ws, v.workerId ≠ w.workerId := by
    intro v hv heq
    exact (nodup_cons.mp h.nodup).1 (List.mem_map.mpr ⟨v, hv, heq⟩)
  have hnew : w.workerId ∉ starts log := h.unstarted w mem_cons_self hw
  have hle : ∀ v ∈ w :: ws, v.workerId ≤ g := h.le
  constructor
  case nodup => exact h.nodup
  case le =>
    intro v hv
    rcases mem_cons.mp hv with rfl | hv
    · exact hle w mem_cons_self
    · exact hle v (mem_cons_of_mem _ hv)
  case unstarted =>
    intro v hv hnone
    rcases mem_cons.mp hv with rfl | hv
    · simp at hnone
    · have hold := h.unstarted v (mem_cons_of_mem _ hv) hnone
      have := hne v hv
      simp [starts] at hold ⊢
      tauto
  case startsLe =>
    intro i hi
    rw [starts_append] at hi
    rcases mem_append.mp hi with hi | hi
    · exact h.startsLe i hi
    · obtain rfl : i = w.workerId := by simpa [starts] using hi
      exact hle w mem_cons_self
  case once =>
    rw [starts_append]
    refine nodup_append.mpr ⟨h.once, by simp [starts], ?_⟩
    rintro i hi j hj rfl
    obtain rfl : i = w.workerId := by simpa [starts] using hj
    exact hnew hi
  case taskLe =>
    intro u q hq
    by_cases hu : u = t
    · subst hu
      rw [update_self] at hq
      obtain rfl : (w.addr, w.workerId) = q := by simpa [Thread.task] using hq
      exact hle w mem_cons_self
    · rw [update_of_ne hu] at hq
      exact h.taskLe u q hq
  case own =>
    intro u q hq v hv hi
    by_cases hu : u = t
    · subst hu
      rw [update_self] at hq
      obtain rfl : (w.addr, w.workerId) = q := by simpa [Thread.task] using hq
      rcases mem_cons.mp hv with rfl | hv
      · rfl
      · exact absurd hi (hne v hv)
    · rw [update_of_ne hu] at hq
      rcases mem_cons.mp hv with rfl | hv
      · exact h.own u q hq w mem_cons_self hi
      · exact h.own u q hq v (mem_cons_of_mem _ hv) hi

end Numbered

theorem takePending_eq_some {t : Nat} {ws vs : List (Worker τ)} {w : Worker τ}
    (h : takePending t ws = some (w, vs)) :
    w.threadid = none ∧ ∃ as bs, ws = as ++ w :: bs ∧
      vs = as ++ { w with threadid := some t } :: bs := by
  induction ws generalizing vs with
  | nil => simp [takePending] at h
  | cons u us ih =>
    rw [takePending] at h
    split at h
    next hu =>
      simp only [some.injEq, Prod.mk.injEq] at h
      obtain ⟨rfl, rfl⟩ := h
      exact ⟨hu, [], us, rfl, rfl⟩
    next =>
      obtain ⟨⟨w', vs'⟩, hrest, heq⟩ := map_eq_some_iff.mp h
      simp only [Prod.mk.injEq] at heq
      obtain ⟨rfl, rfl⟩ := heq
      obtain ⟨hw, as, bs, rfl, rfl⟩ := ih hrest
      exact ⟨hw, u :: as, bs, rfl, rfl⟩

@[simp] theorem delWorker_head (i : Nat) (s : ThreadPool τ) :
    (s.delWorker i).head = (takeOut (·.workerId = i) s.head).1 := by
  unfold delWorker
  cases threadOf i s <;> simp [setThread]

/-- The nodes of the list and of the calls on their way to it. -/
def nodes (s : ThreadPool τ) : List (Worker τ) :=
  s.head ++ s.created

theorem nodes_unlink (found : Worker τ → Bool) (s : ThreadPool τ) :
    (s.unlink found).nodes.Subperm s.nodes := by
  rw [nodes, nodes, unlink_head, unlink_created]
  exact ((takeOut_sublist found s.head).append_right s.created).subperm

theorem numbered_step {log o : List (Event τ)} {a : Action τ}
    (h : Numbered s.gWorkerId s.thread log s.nodes) (hs : step s a = some (s', o)) :
    Numbered s'.gWorkerId s'.thread (log ++ o) s'.nodes := by
  cases a with
  | create p x =>
    simp only [step, ite_none_left_eq_some, some.injEq, Prod.mk.injEq] at hs
    obtain ⟨-, rfl, rfl⟩ := hs
    simpa [nodes] using h.create p x
  | append p =>
    simp only [step] at hs
    split at hs
    · simp at hs
    next w hw =>
      simp only [some.injEq, Prod.mk.injEq] at hs
      obtain ⟨rfl, rfl⟩ := hs
      refine (h.of_subperm (List.Perm.subperm ?_)).log_append _ (by simp [starts])
      simpa [nodes] using (perm_eraseP hw).symm.append_left s.head
  | start t =>
    simp only [step] at hs
    split at hs
    next hidle =>
      split at hs
      · simp only [some.injEq, Prod.mk.injEq] at hs
        obtain ⟨rfl, rfl⟩ := hs
        simpa using h
      next w ws hfind =>
        simp only [some.injEq, Prod.mk.injEq] at hs
        obtain ⟨rfl, rfl⟩ := hs
        obtain ⟨hw, as, bs, has, rfl⟩ := takePending_eq_some hfind
        have hmid (v : Worker τ) :
            (as ++ v :: bs ++ s.created).Perm (v :: (as ++ bs ++ s.created)) := by
          simp [perm_middle]
        have hsub : (w :: (as ++ bs ++ s.created)).Subperm s.nodes := by
          rw [nodes, has]
          exact (hmid w).symm.subperm
        have hcons := h.of_subperm hsub
        exact (hcons.start hw t).of_subperm (hmid _).subperm
    next => simp at hs
  | complete t =>
    obtain ⟨⟨p, i⟩, hq, heq⟩ := map_eq_some_iff.mp hs
    simp only [Prod.mk.injEq] at heq
    obtain ⟨rfl, rfl⟩ := heq
    have hsub := nodes_unlink (·.addr = p) s
    simpa [setThread, nodes] using
      ((h.of_subperm hsub).update t (s.thread t).finish (by simp)).log_append
        [.completed i] (by simp [starts])
  | delete i =>
    simp only [step, some.injEq, Prod.mk.injEq] at hs
    obtain ⟨rfl, rfl⟩ := hs
    have hsub := nodes_unlink (·.workerId = i) s
    have hlog := (h.of_subperm hsub).log_append [.deleted i] (by simp [starts])
    unfold delWorker
    cases threadOf i s with
    | none => simpa [nodes] using hlog
    | some t => simpa [setThread, nodes] using hlog.update t (s.thread t).cancel (by simp)
  | renew t =>
    simp only [step, ite_none_right_eq_some, some.injEq, Prod.mk.injEq] at hs
    obtain ⟨-, rfl, rfl⟩ := hs
    simpa [setThread, nodes] using h.update t .idle (by simp)

/-! ## The list and the history -/

theorem unlink_queueSize (found : Worker τ → Bool) (s : ThreadPool τ) :
    (s.unlink found).queueSize =
      s.queueSize - if (takeOut found s.head).2.isSome then 1 else 0 := by
  unfold unlink
  split
  next ws h => simp [h]
  next ws w h => simp [h]

/-- One task ended, by its completion or its deletion: the list still agrees with the history
exactly when nothing was behind a head that went and the node that went was the task's. -/
theorem faithful_unlink_iff {log : List (Event τ)} {e : Event τ} {i : Nat} (h : Faithful s log)
    (hnodup : (s.head.map (·.workerId)).Nodup) (hown : ∀ w ∈ s.head, w.workerId = i → found w)
    (he : ∀ l : List (Nat × τ), after l e = l.eraseP (·.1 = i)) (hstarts : starts [e] = [])
    (hhead : s'.head = (takeOut found s.head).1)
    (hsize : s'.queueSize = (s.unlink found).queueSize) :
    Faithful s' (log ++ [e]) ↔
      Alone found s.head ∧ ∀ w ∈ s.head.find? found, w.workerId = i := by
  constructor
  · rintro ⟨htasks, -, -⟩
    rw [live_append, he, ← h.tasks, hhead] at htasks
    have halone : Alone found s.head := by
      by_contra hnot
      obtain ⟨w, v, vs, hws, -, htake⟩ := takeOut_of_not_alone hnot
      have hnil := htasks.symm
      rw [htake, map_nil, eraseP_eq_nil_iff, hws] at hnil
      simp at hnil
    refine ⟨halone, fun v hv => ?_⟩
    by_contra hi
    -- the history keeps the task of the node that went
    rw [takeOut_of_alone halone] at htasks
    have hmem : v.entry ∈ (s.head.map Worker.entry).eraseP (·.1 = i) :=
      (mem_eraseP_of_neg (by simp [Worker.entry, hi])).mpr
        (List.mem_map_of_mem (mem_of_find?_eq_some hv))
    rw [← htasks] at hmem
    obtain ⟨u, hu, heq⟩ := List.mem_map.mp hmem
    have hperm := ((perm_eraseP hv).map (·.workerId)).nodup_iff.mp hnodup
    exact (nodup_cons.mp hperm).1 (List.mem_map.mpr ⟨u, hu, congrArg Prod.fst heq⟩)
  · rintro ⟨halone, hid⟩
    rw [takeOut_of_alone halone] at hhead
    constructor
    case tasks => rw [live_append, he, ← h.tasks, hhead, map_eraseP_entry hown hid]
    case size =>
      rw [hsize, unlink_queueSize, takeOut_of_alone halone, hhead, h.size]
      cases hf : s.head.find? found with
      | none =>
        rw [eraseP_of_forall_not (find?_eq_none.mp hf)]
        simp
      | some w =>
        rw [(perm_eraseP hf).length_eq]
        simp
    case once => simpa [hstarts] using h.once

/-- A critical section leaves a list that agrees with the history exactly where it is safe. -/
theorem faithful_step_iff {log o : List (Event τ)} {a : Action τ} (h : Faithful s log)
    (hn : Numbered s.gWorkerId s.thread log s.nodes) (hs : step s a = some (s', o)) :
    Faithful s' (log ++ o) ↔ Safe s a := by
  have honce := (numbered_step hn hs).once
  have hnodup : (s.head.map (·.workerId)).Nodup :=
    hn.nodup.sublist ((sublist_append_left s.head s.created).map _)
  cases a with
  | create p x =>
    simp only [step, ite_none_left_eq_some, some.injEq, Prod.mk.injEq] at hs
    obtain ⟨-, rfl, rfl⟩ := hs
    exact iff_of_true ⟨by simpa using h.tasks, h.size, honce⟩ trivial
  | append p =>
    simp only [step] at hs
    split at hs
    · simp at hs
    next w hw =>
      simp only [some.injEq, Prod.mk.injEq] at hs
      obtain ⟨rfl, rfl⟩ := hs
      refine iff_of_true ⟨?_, ?_, honce⟩ trivial
      · simp [h.tasks, after, Worker.entry]
      · simp [h.size]
  | start t =>
    simp only [step] at hs
    split at hs
    next hidle =>
      split at hs
      · simp only [some.injEq, Prod.mk.injEq] at hs
        obtain ⟨rfl, rfl⟩ := hs
        exact iff_of_true (by simpa using h) trivial
      next w ws hfind =>
        simp only [some.injEq, Prod.mk.injEq] at hs
        obtain ⟨rfl, rfl⟩ := hs
        obtain ⟨-, as, bs, has, rfl⟩ := takePending_eq_some hfind
        have htasks := h.tasks
        have hsize := h.size
        rw [has] at htasks hsize
        refine iff_of_true ⟨?_, ?_, honce⟩ trivial
        · simpa [setThread, after, Worker.entry] using htasks
        · simpa [setThread] using hsize
    next => simp at hs
  | complete t =>
    obtain ⟨⟨p, i⟩, hq, heq⟩ := map_eq_some_iff.mp hs
    simp only [Prod.mk.injEq] at heq
    obtain ⟨rfl, rfl⟩ := heq
    have hown : ∀ w ∈ s.head, w.workerId = i → decide (w.addr = p) = true := by
      intro w hw hi
      exact decide_eq_true (hn.own t (p, i) hq w (mem_append_left _ hw) hi)
    rw [faithful_unlink_iff h hnodup hown (fun _ => rfl) rfl (by simp [setThread])
      (by simp [setThread]), Safe, hq]
    simp
  | delete i =>
    simp only [step, some.injEq, Prod.mk.injEq] at hs
    obtain ⟨rfl, rfl⟩ := hs
    have hsize : (s.delWorker i).queueSize = (s.unlink (·.workerId = i)).queueSize := by
      unfold delWorker
      cases threadOf i s with
      | none => rfl
      | some t => simp [unlink_queueSize, setThread]
    rw [faithful_unlink_iff h hnodup (fun w _ hi => decide_eq_true hi) (fun _ => rfl) rfl
      (delWorker_head i s) hsize, Safe, and_iff_left_iff_imp]
    intro _ w hw
    simpa using find?_some hw
  | renew t =>
    simp only [step, ite_none_right_eq_some, some.injEq, Prod.mk.injEq] at hs
    obtain ⟨-, rfl, rfl⟩ := hs
    exact iff_of_true ⟨by simpa [setThread] using h.tasks, h.size, honce⟩ trivial

end ThreadPool

end Honyar.Base
