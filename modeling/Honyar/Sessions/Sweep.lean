import Honyar.Sessions.Close

/-!
# The service loop over the sessions

A client that is to be closed is noted, and closed once the loop stands at the next one.  So the
loop never stands at a block that was given back.
-/

namespace Honyar.Sessions

open SessionSer Option List Listing

variable {s s' : SessionSer} {p q : Nat} {c : Session} {d : SessionConf}
variable {as bs : List (Nat × Session)} {l : Listing SessionConf} {created : Id → Bool}

/-- Closing the client that was noted leaves the others of its list. -/
theorem closeNoted_sound (created : Id → Bool) (hs : Sound s)
    (h : s.stLinkList.nodes = as ++ (p, c) :: bs) (hl : c.pstClientList = some l)
    {done todo : List Nat} (hlist : l.nodes.map Prod.fst = done ++ todo) {noted : Option Nat}
    (hnoted : ∀ r ∈ noted, r ∈ done) :
    ∃ s' fx l' done', closeNoted created s p noted = some (s', fx) ∧ Sound s' ∧ Quiet fx ∧
      (∃ c', s'.stLinkList.nodes = as ++ (p, c') :: bs ∧ c'.pstClientList = some l') ∧
      l'.nodes.map Prod.fst = done' ++ todo := by
  cases noted with
  | none => exact ⟨s, [], l, done, rfl, hs, quiet_nil, ⟨c, h, hl⟩, hlist⟩
  | some r =>
    have hr : r ∈ done := hnoted r rfl
    have hmem : r ∈ l.nodes.map Prod.fst := hlist ▸ mem_append_left _ hr
    obtain ⟨d, cs, ds, hq⟩ := exists_split hmem
    obtain ⟨s', fx, hclose, hs', hfx, hcases⟩ :=
      closeWith_client_cases (closeClient created) created hs h hl hq
    have hnote : closeNoted created s p (some r) = some (s', fx) := by
      rw [closeNoted, client_eq h hl hq]
      exact hclose
    rcases hcases with rfl | ⟨l', hnodes', hl'⟩
    · exact ⟨_, fx, l, done, hnote, hs', hfx, ⟨c, h, hl⟩, hlist⟩
    · refine ⟨s', fx, l', done.erase r, hnote, hs', hfx, ⟨_, hnodes', rfl⟩, ?_⟩
      have hnot := (notMem_of_split hq).1
      rw [hl', ← erase_append_left todo hr, ← hlist, hq, map_append, map_append,
        map_cons, erase_append_right _ hnot, erase_cons_head]

theorem sweepClients_sound (created : Id → Bool) (p : Nat) (as bs : List (Nat × Session))
    {n : Nat} {todo done : List Nat} (hs : Sound s) (h : s.stLinkList.nodes = as ++ (p, c) :: bs)
    (hl : c.pstClientList = some l) (hlist : l.nodes.map Prod.fst = done ++ todo)
    {noted : Option Nat} (hnoted : ∀ r ∈ noted, r ∈ done) (hn : todo.length ≤ n) :
    ∃ s' fx, sweepClients created p n todo.head? noted s = some (s', fx) ∧ Sound s' ∧ Quiet fx ∧
      ∃ c', s'.stLinkList.nodes = as ++ (p, c') :: bs := by
  induction todo generalizing s c l done noted n with
  | nil =>
    obtain ⟨s', fx, l', done', hnote, hs', hfx, ⟨c', hnodes', -⟩, -⟩ :=
      closeNoted_sound created hs h hl hlist hnoted
    refine ⟨s', fx, ?_, hs', hfx, c', hnodes'⟩
    cases n <;> exact hnote
  | cons q todo ih =>
    obtain ⟨n, rfl⟩ : ∃ m, n = m + 1 := Nat.exists_eq_succ_of_ne_zero (by
      rintro rfl
      exact absurd hn (Nat.not_succ_le_zero _))
    obtain ⟨s₁, fx₁, l₁, done₁, hnote, hs₁, hfx₁, ⟨c₁, hnodes₁, hl₁⟩, hlist₁⟩ :=
      closeNoted_sound created hs h hl hlist hnoted
    have hq : q ∈ l₁.nodes.map Prod.fst := by
      rw [hlist₁]
      simp
    obtain ⟨d, cs, ds, hsplit⟩ := exists_split hq
    have hgone : l₁.gone = false := (hs₁.proper_at hnodes₁).here l₁ hl₁
    have hlist₁' : l₁.nodes.map Prod.fst = (done₁ ++ [q]) ++ todo := by
      rw [hlist₁]
      simp
    have hnoted₁ : ∀ r ∈ (if d.iActiveFlag then none else some q), r ∈ done₁ ++ [q] := by
      intro r hr
      split at hr
      · cases hr
      · obtain rfl := some.inj hr
        simp
    have hnext : l₁.next (some q) = some todo.head? := by
      have hnext := next_eq hlist₁' hgone
      rwa [getLast?_append, getLast?_singleton, some_or] at hnext
    obtain ⟨s', fx', hrest, hs', hfx', hnodes'⟩ :=
      ih hs₁ hnodes₁ hl₁ hlist₁' hnoted₁ (Nat.le_of_succ_le_succ hn)
    refine ⟨s', fx₁ ++ fx', ?_, hs', hfx₁.append hfx', hnodes'⟩
    rw [head?_cons, sweepClients, hnote]
    simp only [bind_eq_bind, bind_some, client_eq hnodes₁ hl₁ hsplit,
      session_eq hnodes₁, hl₁, hnext, hrest]
    rfl

theorem sweepSession_sound (created : Id → Bool) {p : Nat} {c : Session}
    {as bs : List (Nat × Session)} (hs : Sound s)
    (hsplit : s.stLinkList.nodes = as ++ (p, c) :: bs) :
    ∃ s₁ fx₁,
      (match c.pstClientList with
        | none => some (s, [])
        | some l => (l.next none).bind fun cur =>
          sweepClients created p l.fresh cur none s) = some (s₁, fx₁) ∧
      Sound s₁ ∧ Quiet fx₁ ∧ ∃ c₁, s₁.stLinkList.nodes = as ++ (p, c₁) :: bs := by
  cases hl : c.pstClientList with
  | none => exact ⟨s, [], rfl, hs, quiet_nil, c, hsplit⟩
  | some l =>
    have hgone : l.gone = false := (hs.proper_at hsplit).here l hl
    have hnext : l.next none = some (l.nodes.map Prod.fst).head? :=
      next_eq (nil_append _).symm hgone
    obtain ⟨s₁, fx₁, hloop, hrest⟩ := sweepClients_sound created p as bs hs hsplit hl
      (nil_append _).symm (show ∀ r ∈ none, r ∈ [] by rintro r ⟨⟩) l.length_le
    refine ⟨s₁, fx₁, ?_, hrest⟩
    dsimp only
    rw [hnext]
    exact hloop

theorem sweepFrom_sound (created : Id → Bool) {n : Nat} {todo done : List Nat} (hs : Sound s)
    (hlist : s.stLinkList.nodes.map Prod.fst = done ++ todo) (hn : todo.length ≤ n) :
    ∃ s' fx, sweepFrom created n todo.head? s = some (s', fx) ∧ Sound s' ∧ Quiet fx := by
  induction todo generalizing s done n with
  | nil =>
    refine ⟨s, [], ?_, hs, quiet_nil⟩
    cases n <;> rfl
  | cons p todo ih =>
    obtain ⟨n, rfl⟩ : ∃ m, n = m + 1 := Nat.exists_eq_succ_of_ne_zero (by
      rintro rfl
      exact absurd hn (Nat.not_succ_le_zero _))
    have hp : p ∈ s.stLinkList.nodes.map Prod.fst := by
      rw [hlist]
      simp
    obtain ⟨c, as, bs, hsplit⟩ := exists_split hp
    obtain ⟨s₁, fx₁, hclients, hs₁, hfx₁, c₁, hnodes₁⟩ := sweepSession_sound created hs hsplit
    have hlist₁ : s₁.stLinkList.nodes.map Prod.fst = (done ++ [p]) ++ todo := by
      rw [hnodes₁, append_assoc, singleton_append, ← hlist, hsplit]
      simp
    have hnext : s₁.stLinkList.next (some p) = some todo.head? := by
      have hnext := next_eq hlist₁ hs₁.here
      rwa [getLast?_append, getLast?_singleton, some_or] at hnext
    obtain ⟨s', fx', hrest, hs', hfx'⟩ := ih hs₁ hlist₁ (Nat.le_of_succ_le_succ hn)
    refine ⟨s', fx₁ ++ fx', ?_, hs', hfx₁.append hfx'⟩
    rw [head?_cons, sweepFrom, clientList, session_eq hsplit]
    simp only [map_some, bind_eq_bind, bind_some]
    cases hl : c.pstClientList with
    | none =>
      rw [hl] at hclients
      obtain ⟨rfl, rfl⟩ := Prod.mk.inj (some.inj hclients)
      simp only [hnext, hrest, bind_some]
      rfl
    | some l =>
      rw [hl] at hclients
      obtain ⟨cur, hcur, hloop⟩ := bind_eq_some_iff.mp hclients
      simp only [hcur, hloop, hnext, hrest, bind_some]
      rfl

theorem sweep_sound (created : Id → Bool) (hs : Sound s) :
    ∃ s' fx, sweep created s = some (s', fx) ∧ Sound s' ∧ Quiet fx := by
  have hnext : s.stLinkList.next none = some (s.stLinkList.nodes.map Prod.fst).head? :=
    next_eq (nil_append _).symm hs.here
  obtain ⟨s', fx, hloop, hrest⟩ :=
    sweepFrom_sound created hs (nil_append _).symm s.stLinkList.length_le
  refine ⟨s', fx, ?_, hrest⟩
  rw [sweep, hnext]
  exact hloop

end Honyar.Sessions
