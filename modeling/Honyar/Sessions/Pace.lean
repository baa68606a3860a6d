import Honyar.Lib.Lists
import Honyar.Sessions.Payload
import Honyar.Sessions.Spacing

/-!
# The pace of the send loop

The part of `session_sys_exec` that sends: a pass reads the clock once, and then takes one message
after another from the send queue.  Before a message is written it waits until the spacing of its
session has passed since the time stamp of the session, and reads the clock again while it waits.

`session_open` leaves the time stamp zero, and nothing writes it afterwards.  So no message waits
for the one before it.
-/

namespace Honyar.Sessions

open Option List

/-- What the spacing of a session is taken from, in its `session_conf_t`. -/
structure Pace where
  iDataSpacing : Int
  stTimestamp : Timeval

/-- What `session_open` leaves of it. -/
def sessionOpenPace (pSessionInfo : SessionInfo) : Pace := ⟨pSessionInfo.iDataSpacing, ⟨0, 0⟩⟩

/-- A message of the send queue, and whether it has a payload. -/
abbrev SendMsg := SessionData × Bool

/-- Where the thread stands. -/
inductive SendPc where
  /-- Before the clock is read. -/
  | pass
  /-- Before a message is taken from the queue. -/
  | pop
  /-- Before the spacing is tested. -/
  | wait (m : SendMsg)
  /-- Before the message is written. -/
  | write (m : SendMsg)

/-- The thread, with what it shares with the others. -/
structure SendExec where
  pc : SendPc
  loop : SendLoop
  pace : Id → Pace
  pstSendMsgQueue : List SendMsg
  /-- What type is asked of the queue; `none` is `-1`. -/
  iMsgType : Option Id
  stNew : Timeval
  /-- The milliseconds of the clock. -/
  now : Nat

/-- What happens up to a step, and what its calls return. -/
structure Tick where
  elapsed : Nat
  pushed : List SendMsg
  iSendDataLen : Int
  mem : Bool

/-- A call of the write function. -/
structure Write where
  iSessionId : Id
  time : Nat
deriving DecidableEq

/-- `pop` of the send queue without waiting: the oldest message of a type. -/
def popSend (iMsgType : Option Id) (q : List SendMsg) : Option (SendMsg × List SendMsg) :=
  let asked : SendMsg → Bool := fun m => iMsgType.all (· == m.1.iSessionId)
  (q.find? asked).map fun m => (m, q.eraseP asked)

namespace SendExec

/-- The sessions were opened, and the thread starts. -/
def start (loop : SendLoop) (infos : Id → SessionInfo) (now : Nat) : SendExec where
  pc := .pass
  loop := loop
  pace := fun id => sessionOpenPace (infos id)
  pstSendMsgQueue := []
  iMsgType := none
  stNew := ⟨0, 0⟩
  now := now

/-- The time goes on, and other threads push. -/
def after (x : SendExec) (i : Tick) : SendExec :=
  { x with now := x.now + i.elapsed, pstSendMsgQueue := x.pstSendMsgQueue ++ i.pushed }

/-- What the thread does at a place.  When a session is not found, the next message is asked of
its type. -/
def act (x : SendExec) (i : Tick) : Option (SendExec × List Write) :=
  match x.pc with
  | .pass => some ({ x with pc := .pop, stNew := .ofMillis x.now, iMsgType := none }, [])
  | .pop =>
    match popSend x.iMsgType x.pstSendMsgQueue with
    | none => some ({ x with pc := .pass }, [])
    | some (m, q) =>
      if (x.loop.sessions m.1.iSessionId).isSome then
        some ({ x with
          pc := .wait m, pstSendMsgQueue := q, iMsgType := some m.1.iSessionId }, [])
      else
        (x.loop.send m.1 m.2 i.iSendDataLen x.stNew i.mem).map fun z =>
          ({ x with loop := z, pstSendMsgQueue := q, iMsgType := some m.1.iSessionId }, [])
  | .wait m =>
    if spacingOver (x.pace m.1.iSessionId).iDataSpacing x.stNew
        (x.pace m.1.iSessionId).stTimestamp then
      some ({ x with pc := .write m }, [])
    else some ({ x with stNew := .ofMillis x.now }, [])
  | .write m =>
    (x.loop.send m.1 m.2 i.iSendDataLen (.ofMillis x.now) i.mem).map fun z =>
      ({ x with loop := z, pc := .pop, iMsgType := none }, [⟨m.1.iSessionId, x.now⟩])

/-- A step of the loop. -/
def step (x : SendExec) (i : Tick) : Option (SendExec × List Write) := (x.after i).act i

end SendExec

/-- When a session was written to. -/
def timesOf (id : Id) (ws : List Write) : List Nat :=
  (ws.filter fun w => w.iSessionId == id).map Write.time

/-- The messages for a session. -/
def msgsOf (id : Id) (ms : List SendMsg) : List SendMsg := ms.filter fun m => m.1.iSessionId == id

/-- Two writes that follow on each other are this far apart. -/
def Spaced (d : Int) (ts : List Nat) : Prop := ts.IsChain fun t t' : Nat => (t : Int) + d ≤ t'

instance decidableSpaced (d : Int) (ts : List Nat) : Decidable (Spaced d ts) :=
  inferInstanceAs (Decidable (ts.IsChain fun t t' : Nat => (t : Int) + d ≤ t'))

/-- The message the thread has in its hands. -/
def SendPc.inHand : SendPc → List SendMsg
  | .pass | .pop => []
  | .wait m | .write m => [m]

/-- The messages that were not written yet. -/
def SendExec.unwritten (x : SendExec) : List SendMsg := x.pc.inHand ++ x.pstSendMsgQueue

section

variable {id : Id} {t : Option Id} {m : SendMsg} {q q' : List SendMsg}

theorem timesOf_cons (w : Write) (ws : List Write) :
    timesOf id (w :: ws) =
      if w.iSessionId = id then w.time :: timesOf id ws else timesOf id ws := by
  rw [timesOf, timesOf, filter_cons]
  by_cases h : w.iSessionId = id
  · rw [if_pos h, if_pos (beq_iff_eq.mpr h), map_cons]
  · rw [if_neg h, if_neg (mt beq_iff_eq.mp h)]

theorem msgsOf_cons (m : SendMsg) (ms : List SendMsg) :
    msgsOf id (m :: ms) = if m.1.iSessionId = id then m :: msgsOf id ms else msgsOf id ms := by
  rw [msgsOf, msgsOf, filter_cons]
  by_cases h : m.1.iSessionId = id
  · rw [if_pos h, if_pos (beq_iff_eq.mpr h)]
  · rw [if_neg h, if_neg (mt beq_iff_eq.mp h)]

theorem msgsOf_append (ms ms' : List SendMsg) :
    msgsOf id (ms ++ ms') = msgsOf id ms ++ msgsOf id ms' := filter_append ..

theorem perm_of_popSend (h : popSend t q = some (m, q')) : q.Perm (m :: q') := by
  obtain ⟨m', hfind, heq⟩ := map_eq_some_iff.mp h
  cases heq
  exact perm_eraseP hfind

theorem popSend_none_cons (m : SendMsg) (q : List SendMsg) :
    popSend none (m :: q) = some (m, q) := by
  rw [popSend, find?_cons_of_pos (by rfl), eraseP_cons_of_pos (by rfl)]
  rfl

end

namespace SendExec

variable {x x' : SendExec} {i : Tick} {ws : List Write}

theorem unwritten_after (x : SendExec) (i : Tick) :
    (x.after i).unwritten = x.unwritten ++ i.pushed := (append_assoc ..).symm

/-- What the thread does takes no time and changes the pace of no session, and a message leaves
those that are not written only with a write, or for want of its session. -/
theorem act_cases (h : x.act i = some (x', ws)) :
    x'.now = x.now ∧ x'.pace = x.pace ∧
      ((ws = [] ∧ x'.unwritten.Subperm x.unwritten) ∨
        ∃ m : SendMsg, ws = [⟨m.1.iSessionId, x.now⟩] ∧ m :: x'.unwritten = x.unwritten) := by
  cases hpc : x.pc with
  | pass =>
    rw [act, hpc] at h
    cases h
    refine ⟨rfl, rfl, Or.inl ⟨rfl, ?_⟩⟩
    rw [unwritten, unwritten, hpc]
    exact List.Subperm.refl _
  | pop =>
    rw [act, hpc] at h
    simp only at h
    have hqueue : x.unwritten = x.pstSendMsgQueue := by
      rw [unwritten, hpc]
      rfl
    rw [hqueue]
    split at h
    · cases h
      exact ⟨rfl, rfl, Or.inl ⟨rfl, List.Subperm.refl _⟩⟩
    · rename_i m q hpop
      have hperm := perm_of_popSend hpop
      split at h
      · cases h
        exact ⟨rfl, rfl, Or.inl ⟨rfl, hperm.symm.subperm⟩⟩
      · obtain ⟨z, -, heq⟩ := map_eq_some_iff.mp h
        cases heq
        exact ⟨rfl, rfl, Or.inl ⟨rfl, (sublist_cons_self m q).subperm.trans
          hperm.symm.subperm⟩⟩
  | wait m =>
    rw [act, hpc] at h
    simp only at h
    split at h
    · cases h
      refine ⟨rfl, rfl, Or.inl ⟨rfl, ?_⟩⟩
      rw [unwritten, unwritten, hpc]
      exact List.Subperm.refl _
    · cases h
      refine ⟨rfl, rfl, Or.inl ⟨rfl, ?_⟩⟩
      rw [unwritten, unwritten, hpc]
  | write m =>
    rw [act, hpc] at h
    obtain ⟨z, -, heq⟩ := map_eq_some_iff.mp h
    cases heq
    refine ⟨rfl, rfl, Or.inr ⟨m, rfl, ?_⟩⟩
    rw [unwritten, unwritten, hpc]
    rfl

/-! ## Runs -/

theorem times_isChain {is : List Tick} (id : Id) (h : Run.run step x is = some (x', ws)) :
    (x.now :: timesOf id ws).IsChain (· ≤ ·) := by
  induction is generalizing x ws with
  | nil =>
    cases h
    exact isChain_singleton _
  | cons i is ih =>
    obtain ⟨x₁, o, ws', hstep, hrun, rfl⟩ := Run.run_cons.mp h
    obtain ⟨hnow, -, hcases⟩ := act_cases hstep
    have hle : x.now ≤ x₁.now := hnow ▸ Nat.le_add_right ..
    have hrest := ih hrun
    have hlater : (x.now :: timesOf id ws').IsChain (· ≤ ·) := by
      cases htimes : timesOf id ws' with
      | nil => exact isChain_singleton _
      | cons t ts =>
        rw [htimes] at hrest
        obtain ⟨hfirst, hchain⟩ := isChain_cons_cons.mp hrest
        exact isChain_cons_cons.mpr ⟨hle.trans hfirst, hchain⟩
    obtain ⟨rfl, -⟩ | ⟨m, rfl, -⟩ := hcases
    · exact hlater
    · rw [singleton_append, timesOf_cons]
      split
      · rw [hnow] at hrest
        exact isChain_cons_cons.mpr ⟨Nat.le_add_right .., hrest⟩
      · exact hlater

/-- A session is written to no more often than there are messages for it. -/
theorem length_timesOf_le {is : List Tick} (id : Id) (h : Run.run step x is = some (x', ws)) :
    (timesOf id ws).length ≤ (msgsOf id (x.unwritten ++ is.flatMap Tick.pushed)).length := by
  induction is generalizing x ws with
  | nil =>
    cases h
    exact Nat.zero_le _
  | cons i is ih =>
    obtain ⟨x₁, o, ws', hstep, hrun, rfl⟩ := Run.run_cons.mp h
    obtain ⟨-, -, hcases⟩ := act_cases hstep
    have hrest := ih hrun
    rw [unwritten_after] at hcases
    rw [msgsOf_append, length_append] at hrest
    rw [flatMap_cons, ← append_assoc, msgsOf_append, length_append]
    obtain ⟨rfl, hsub⟩ | ⟨m, rfl, heq⟩ := hcases
    · have hcount := (hsub.filter fun m => m.1.iSessionId == id).length_le
      exact hrest.trans (Nat.add_le_add_right hcount _)
    · rw [← heq, singleton_append, timesOf_cons, msgsOf_cons]
      split
      · rw [length_cons, length_cons]
        omega
      · exact hrest

/-! ## A backlog -/

/-- A step at which nobody pushes and the clock stands still; the write function returns `n`. -/
def quiet (n : Int) : Tick := ⟨0, [], n, false⟩

/-- Every session's spacing has passed since its time stamp. -/
def Ready (x : SendExec) : Prop :=
  ∀ id, spacingOver (x.pace id).iDataSpacing x.stNew (x.pace id).stTimestamp = true

/-- The thread leaves a state for a later one in which nothing but the messages changed. -/
structure Serves (x x' : SendExec) (ws : List Write) : Prop where
  run : ∃ is : List Tick, is.flatMap Tick.pushed = [] ∧ Run.run step x is = some (x', ws)
  pc : x'.pc = .pop
  pace : x'.pace = x.pace
  stNew : x'.stNew = x.stNew
  now : x'.now = x.now
  sessions : ∀ id, (x'.loop.sessions id).isSome = (x.loop.sessions id).isSome

end SendExec

namespace SendLoop

theorem take_fields (z : SendLoop) (d : SessionData) (hasPayload : Bool) :
    (z.take d hasPayload).1.sessions = z.sessions ∧
      (z.take d hasPayload).2.iSessionId = d.iSessionId ∧
      (z.take d hasPayload).2.iDataLen = d.iDataLen := by
  cases hasPayload <;> exact ⟨rfl, rfl, rfl⟩

theorem isSome_setSession {z : SendLoop} {i : Id} (h : (z.sessions i).isSome = true) (s : Sending)
    (id : Id) : ((z.setSession i (some s)).sessions id).isSome = (z.sessions id).isSome := by
  by_cases hid : id = i
  · have hself : (z.setSession i (some s)).sessions i = some s := Function.update_self ..
    rw [hid, h, hself]
    rfl
  · rw [sessions_setSession_of_ne z (some s) hid]

/-- A message that is written entirely, with no memory for the repeater, fails nowhere. -/
theorem exists_send (z : SendLoop) (m : SendMsg) (stNow : Timeval) :
    ∃ z', z.send m.1 m.2 m.1.iDataLen stNow false = some z' ∧
      ∀ id, (z'.sessions id).isSome = (z.sessions id).isSome := by
  obtain ⟨hsessions, hid, hlen⟩ := z.take_fields m.1 m.2
  rw [send]
  generalize z.take m.1 m.2 = zd at *
  obtain ⟨z₁, d⟩ := zd
  simp only at hsessions hid hlen ⊢
  rw [← hsessions]
  cases hs : z₁.sessions d.iSessionId with
  | none => exact ⟨z₁, rfl, fun _ => rfl⟩
  | some s =>
    have hsome : (z₁.sessions d.iSessionId).isSome = true := hs ▸ rfl
    simp only [if_neg (not_not_intro hlen.symm)]
    cases hrep : s.repeats d with
    | none => exact ⟨z₁.baseFree d.pProcessedData, rfl, fun _ => rfl⟩
    | some r =>
      have hpush : dataRepeaterSendPush r d.iSync d sizeofSessionData stNow false =
          some (r, [.ret .listInsertErr]) := rfl
      refine ⟨z₁.setSession d.iSessionId (some { s with pstDataRepeater := some r }), ?_,
        isSome_setSession hsome _⟩
      simp only [hpush, map_some]

end SendLoop

namespace SendExec

variable {x : SendExec} {m : SendMsg} {q : List SendMsg}

theorem Serves.trans {y z : SendExec} {ws ws' : List Write} (h : Serves x y ws)
    (h' : Serves y z ws') : Serves x z (ws ++ ws') := by
  obtain ⟨is, hpushed, hrun⟩ := h.run
  obtain ⟨is', hpushed', hrun'⟩ := h'.run
  refine ⟨⟨is ++ is', ?_, Run.run_append.mpr ⟨y, ws, ws', hrun, hrun', rfl⟩⟩, h'.pc,
    h'.pace.trans h.pace, h'.stNew.trans h.stNew, h'.now.trans h.now,
    fun id => (h'.sessions id).trans (h.sessions id)⟩
  rw [flatMap_append, hpushed, hpushed', append_nil]

theorem after_quiet (x : SendExec) (n : Int) : x.after (quiet n) = x := by
  rw [after, quiet, append_nil, Nat.add_zero]

theorem step_quiet (x : SendExec) (n : Int) : x.step (quiet n) = x.act (quiet n) := by
  rw [step, after_quiet]

theorem serves_of_found (hx : x.Ready) (hpc : x.pc = .pop)
    (hpop : popSend x.iMsgType x.pstSendMsgQueue = some (m, q))
    (hfound : (x.loop.sessions m.1.iSessionId).isSome = true) :
    ∃ x', Serves x x' [⟨m.1.iSessionId, x.now⟩] ∧ x'.pstSendMsgQueue = q ∧ x'.iMsgType = none := by
  obtain ⟨z, hsend, hsessions⟩ := x.loop.exists_send m (.ofMillis x.now)
  let y : SendExec := { x with
    pc := .wait m, pstSendMsgQueue := q, iMsgType := some m.1.iSessionId }
  have hstep₁ : x.step (quiet 0) = some (y, []) := by
    rw [step_quiet, act, hpc]
    simp only [hpop]
    exact if_pos hfound
  have hstep₂ : y.step (quiet 0) = some ({ y with pc := .write m }, []) := by
    rw [step_quiet, act]
    exact if_pos (hx m.1.iSessionId)
  have hstep₃ : ({ y with pc := .write m } : SendExec).step (quiet m.1.iDataLen) =
      some ({ y with loop := z, pc := .pop, iMsgType := none }, [⟨m.1.iSessionId, x.now⟩]) := by
    rw [step_quiet]
    exact congrArg (Option.map _) hsend
  have hrun : Run.run step x [quiet 0, quiet 0, quiet m.1.iDataLen] =
      some ({ y with loop := z, pc := .pop, iMsgType := none }, [⟨m.1.iSessionId, x.now⟩]) := by
    simp only [Run.run, hstep₁, hstep₂, hstep₃, bind_eq_bind, bind_some]
    rfl
  exact ⟨_, ⟨⟨_, rfl, hrun⟩, rfl, rfl, rfl, rfl, hsessions⟩, rfl, rfl⟩

theorem serves_of_notFound (hpc : x.pc = .pop)
    (hpop : popSend x.iMsgType x.pstSendMsgQueue = some (m, q))
    (hfound : ¬ (x.loop.sessions m.1.iSessionId).isSome = true) :
    ∃ x', Serves x x' [] ∧ x'.pstSendMsgQueue = q := by
  obtain ⟨z, hsend, hsessions⟩ := x.loop.exists_send m x.stNew
  have hstep : x.step (quiet m.1.iDataLen) = some ({ x with
      loop := z, pstSendMsgQueue := q, iMsgType := some m.1.iSessionId }, []) := by
    rw [step_quiet, act, hpc]
    simp only [hpop]
    rw [if_neg hfound]
    exact congrArg (Option.map _) hsend
  have hrun : Run.run step x [quiet m.1.iDataLen] = some ({ x with
      loop := z, pstSendMsgQueue := q, iMsgType := some m.1.iSessionId }, []) := by
    simp only [Run.run, hstep, bind_eq_bind, bind_some]
    rfl
  exact ⟨_, ⟨⟨_, rfl, hrun⟩, hpc, rfl, rfl, rfl, hsessions⟩, rfl⟩

theorem serves_of_none (hpc : x.pc = .pop) (hnow : x.stNew = .ofMillis x.now)
    (hpop : popSend x.iMsgType x.pstSendMsgQueue = none) :
    ∃ x', Serves x x' [] ∧ x'.pstSendMsgQueue = x.pstSendMsgQueue ∧ x'.iMsgType = none := by
  have hstep₁ : x.step (quiet 0) = some ({ x with pc := .pass }, []) := by
    rw [step_quiet, act, hpc]
    simp only [hpop]
  have hstep₂ : ({ x with pc := .pass } : SendExec).step (quiet 0) =
      some ({ x with pc := .pop, stNew := .ofMillis x.now, iMsgType := none }, []) := by
    rw [step_quiet]
    rfl
  have hrun : Run.run step x [quiet 0, quiet 0] =
      some ({ x with pc := .pop, stNew := .ofMillis x.now, iMsgType := none }, []) := by
    simp only [Run.run, hstep₁, hstep₂, bind_eq_bind, bind_some]
    rfl
  exact ⟨_, ⟨⟨_, rfl, hrun⟩, rfl, rfl, hnow.symm, rfl, fun _ => rfl⟩, rfl, rfl⟩

/-- Of all messages that wait, those of an open session are written without a pause.  The type
that is asked can hide them once, when there is none of it: that costs a pass. -/
theorem exists_serves (n : Nat) (x : SendExec) (hlen : x.pstSendMsgQueue.length = n)
    (hx : x.Ready) (hpc : x.pc = .pop) (hnow : x.stNew = .ofMillis x.now) :
    ∃ x' ws, Serves x x' ws ∧ (∀ w ∈ ws, w.time = x.now) ∧
      ∀ id, (x.loop.sessions id).isSome = true →
        (timesOf id ws).length = (msgsOf id x.pstSendMsgQueue).length := by
  induction n generalizing x with
  | zero =>
    have hnil := eq_nil_of_length_eq_zero hlen
    refine ⟨x, [], ⟨⟨[], rfl, rfl⟩, hpc, rfl, rfl, rfl, fun _ => rfl⟩,
      fun _ h => absurd h not_mem_nil, fun id _ => ?_⟩
    rw [hnil]
    rfl
  | succ n ih =>
    -- what is left to do once a message is found
    have hfirst (x : SendExec) (hlen : x.pstSendMsgQueue.length = n + 1) (hx : x.Ready)
        (hpc : x.pc = .pop) (hnow : x.stNew = .ofMillis x.now) {m : SendMsg} {q : List SendMsg}
        (hpop : popSend x.iMsgType x.pstSendMsgQueue = some (m, q)) :
        ∃ x' ws, Serves x x' ws ∧ (∀ w ∈ ws, w.time = x.now) ∧
          ∀ id, (x.loop.sessions id).isSome = true →
            (timesOf id ws).length = (msgsOf id x.pstSendMsgQueue).length := by
      have hperm := perm_of_popSend hpop
      have hlen' : q.length = n := Nat.succ.inj (hperm.length_eq.symm.trans hlen)
      have hcount (id : Id) :
          (msgsOf id x.pstSendMsgQueue).length = (msgsOf id (m :: q)).length :=
        (hperm.filter _).length_eq
      have hready (y : SendExec) {ws : List Write} (hy : Serves x y ws) :
          y.Ready ∧ y.stNew = .ofMillis y.now := by
        refine ⟨fun id => ?_, by rw [hy.stNew, hy.now, hnow]⟩
        rw [hy.pace, hy.stNew]
        exact hx id
      by_cases hfound : (x.loop.sessions m.1.iSessionId).isSome = true
      · obtain ⟨y, hy, rfl, -⟩ := serves_of_found hx hpc hpop hfound
        obtain ⟨x', ws, hserves, htimes, hws⟩ := ih y hlen' (hready y hy).1 hy.pc (hready y hy).2
        refine ⟨x', _, hy.trans hserves, ?_, fun id hid => ?_⟩
        · intro w hw
          rcases mem_append.mp hw with hw | hw
          · rw [mem_singleton.mp hw]
          · rw [htimes w hw, hy.now]
        · have hrest := hws id ((hy.sessions id).trans hid)
          rw [singleton_append, timesOf_cons, hcount id, msgsOf_cons]
          split
          · rw [length_cons, length_cons, hrest]
          · exact hrest
      · obtain ⟨y, hy, rfl⟩ := serves_of_notFound hpc hpop hfound
        obtain ⟨x', ws, hserves, htimes, hws⟩ := ih y hlen' (hready y hy).1 hy.pc (hready y hy).2
        refine ⟨x', _, hy.trans hserves, fun w hw => (htimes w hw).trans hy.now,
          fun id hid => ?_⟩
        have hne : ¬ m.1.iSessionId = id := fun h => hfound (h ▸ hid)
        rw [nil_append, hws id ((hy.sessions id).trans hid), hcount id, msgsOf_cons,
          if_neg hne]
    cases hpop : popSend x.iMsgType x.pstSendMsgQueue with
    | some r => exact hfirst x hlen hx hpc hnow hpop
    | none =>
      obtain ⟨y, hy, hqueue, htype⟩ := serves_of_none hpc hnow hpop
      obtain ⟨m, q, hcons⟩ := exists_cons_of_length_eq_add_one (hqueue ▸ hlen)
      have hpop' : popSend y.iMsgType y.pstSendMsgQueue = some (m, q) := by
        rw [htype, hcons, popSend_none_cons]
      have hready : y.Ready := fun id => by
        rw [hy.pace, hy.stNew]
        exact hx id
      obtain ⟨x', ws, hserves, htimes, hws⟩ := hfirst y (hqueue ▸ hlen) hready hy.pc
        (by rw [hy.stNew, hy.now, hnow]) hpop'
      refine ⟨x', _, hy.trans hserves, fun w hw => (htimes w hw).trans hy.now,
        fun id hid => ?_⟩
      rw [nil_append, hws id ((hy.sessions id).trans hid), hqueue]

theorem spacingOver_zero {d : Int} (hd : 0 ≤ d) (hint : d < 2 ^ 31) (n : Nat) :
    spacingOver d (.ofMillis (1000 * (2147484 + 2 ^ 32 * n))) ⟨0, 0⟩ = true := by
  rw [spacingOver_eq hd hint, timedOut_eq, SplitClock.passed_eq_true_iff]
  refine Or.inl ?_
  rw [UInt32.sub_zero]
  show (d / 1000).toNat < (SplitClock.seconds _).toNat
  rw [SplitClock.toNat_seconds, Nat.mul_div_cancel_left _ (by decide), Nat.add_mul_mod_self_left]
  omega

end SendExec

/-! ## The spacing -/

theorem spaced_zero_of_isChain {ts : List Nat} {n : Nat} (h : (n :: ts).IsChain (· ≤ ·)) :
    Spaced 0 ts :=
  h.tail.imp fun _ _ hle => by omega

theorem spaced_of_length_le_one {d : Int} {ts : List Nat} (h : ts.length ≤ 1) : Spaced d ts := by
  obtain _ | ⟨t, _ | ⟨t', ts⟩⟩ := ts
  · exact List.isChain_nil
  · exact isChain_singleton t
  · simp at h

theorem not_spaced_of_const {d : Int} {ts : List Nat} {n : Nat} (hd : 0 < d)
    (hconst : ∀ t ∈ ts, t = n) (hlen : 1 < ts.length) : ¬ Spaced d ts := by
  obtain _ | ⟨t, _ | ⟨t', ts⟩⟩ := ts
  · exact absurd hlen (by decide)
  · exact absurd hlen (by simp)
  · intro h
    have hle := (isChain_cons_cons.mp h).1
    have ht := hconst t mem_cons_self
    have ht' := hconst t' (mem_cons_of_mem _ mem_cons_self)
    omega

/-- Whatever the clock does, the writes to a session keep its spacing exactly if the spacing is
zero or no more than one message is queued for it. -/
theorem writes_spaced_iff (loop : SendLoop) (infos : Id → SessionInfo)
    (hint : ∀ id, 0 ≤ (infos id).iDataSpacing ∧ (infos id).iDataSpacing < 2 ^ 31) (now : Nat)
    (id : Id) (hopen : (loop.sessions id).isSome = true) (ms : List SendMsg) :
    (∀ is x' ws, is.flatMap Tick.pushed = ms →
        Run.run SendExec.step (.start loop infos now) is = some (x', ws) →
          Spaced (infos id).iDataSpacing (timesOf id ws)) ↔
      (infos id).iDataSpacing = 0 ∨ (msgsOf id ms).length ≤ 1 := by
  constructor
  · intro hspaced
    by_contra hnot
    rw [not_or, Nat.not_le] at hnot
    obtain ⟨hd, hlen⟩ := hnot
    -- all messages are pushed at once, when every spacing has passed
    let t : Nat := 1000 * (2147484 + 2 ^ 32 * now)
    have ht : now + (t - now) = t := by omega
    let first : Tick := ⟨t - now, ms, 0, false⟩
    let y : SendExec := { SendExec.start loop infos now with
      pc := .pop, pstSendMsgQueue := ms, stNew := .ofMillis t, now := t }
    have hstep : (SendExec.start loop infos now).step first = some (y, []) := by
      show some ({ SendExec.start loop infos now with
        pc := .pop, pstSendMsgQueue := ms, stNew := .ofMillis (now + (t - now)),
        now := now + (t - now) }, []) = _
      rw [ht]
    have hready : y.Ready := fun j => SendExec.spacingOver_zero (hint j).1 (hint j).2 now
    obtain ⟨x', ws, hserves, htimes, hcount⟩ :=
      SendExec.exists_serves ms.length y rfl hready rfl rfl
    obtain ⟨is, hpushed, hrun⟩ := hserves.run
    have hall : (first :: is).flatMap Tick.pushed = ms := by
      rw [flatMap_cons, hpushed, append_nil]
    have hconst : ∀ s ∈ timesOf id ws, s = t := by
      intro s hs
      obtain ⟨w, hw, rfl⟩ := List.mem_map.mp hs
      exact htimes w (mem_of_mem_filter hw)
    refine not_spaced_of_const (lt_of_le_of_ne (hint id).1 (Ne.symm hd)) hconst
      (hlen.trans_eq (hcount id hopen).symm) ?_
    exact hspaced _ _ _ hall (Run.run_cons.mpr ⟨y, [], ws, hstep, hrun, rfl⟩)
  · rintro (hd | hlen) is x' ws rfl hrun
    · rw [hd]
      exact spaced_zero_of_isChain (SendExec.times_isChain id hrun)
    · exact spaced_of_length_le_one ((SendExec.length_timesOf_le id hrun).trans hlen)

/-- A loop with every session open, no repeater, and a spacing of a tenth of a second. -/
def tenth : SendExec :=
  .start ⟨fun _ => some ⟨true, none, none⟩, 0, []⟩ (fun _ => ⟨.uart, [], 200, 100, 3⟩) 5000

/-- A message of one byte. -/
def oneByte : SendMsg := (⟨.uart, 7, 0, 0, none, 1, [0]⟩, false)

/-- A single message. -/
theorem writes_spaced_single :
    ∃ ws, (Run.run SendExec.step tenth [⟨0, [oneByte], 0, false⟩, SendExec.quiet 0,
        SendExec.quiet 0, SendExec.quiet 1]).map Prod.snd = some ws ∧
      timesOf 7 ws = [5000] ∧ Spaced 100 (timesOf 7 ws) := by
  have hws : (Run.run SendExec.step tenth [⟨0, [oneByte], 0, false⟩, SendExec.quiet 0,
      SendExec.quiet 0, SendExec.quiet 1]).map Prod.snd = some [⟨7, 5000⟩] := by decide +kernel
  obtain ⟨⟨x', ws⟩, hrun, hws'⟩ := map_eq_some_iff.mp hws
  obtain rfl : ws = [⟨7, 5000⟩] := hws'
  refine ⟨_, hws, by decide, ?_⟩
  exact (writes_spaced_iff ⟨fun _ => some ⟨true, none, none⟩, 0, []⟩
    (fun _ => ⟨.uart, [], 200, 100, 3⟩) (fun _ => ⟨by decide, by decide⟩) 5000 7 rfl
    [oneByte]).mpr (Or.inr (by decide)) _ _ _ (by rfl) hrun

/-- Two messages in the queue are written in the same millisecond. -/
theorem writes_not_spaced :
    (Run.run SendExec.step tenth [⟨0, [oneByte, oneByte], 0, false⟩, SendExec.quiet 0,
        SendExec.quiet 0, SendExec.quiet 1, SendExec.quiet 0, SendExec.quiet 0,
        SendExec.quiet 1]).map Prod.snd = some [⟨7, 5000⟩, ⟨7, 5000⟩] ∧
      ¬ Spaced 100 (timesOf 7 [⟨7, 5000⟩, ⟨7, 5000⟩]) := by
  decide +kernel

end Honyar.Sessions
