import Honyar.Lib.Run
import Honyar.Sessions.Opening
import Honyar.Sessions.Sweep

/-!
# The registry over runs

As long as no session is closed while it has clients, no set-up of a client fails and no entry of
an opened session is refused, the hash map has exactly the sessions in the lists.  Each of these
breaks it.
-/

namespace Honyar.Sessions

open SessionSer Option

variable {id iFd : Id} {p : Nat}

/-- No descriptor is handed out that a session has. -/
def Fresh (s : SessionSer) : Action → Prop
  | .open _ os => 0 ≤ os.opened.toInt → ∀ x ∈ s.places, x.1 ≠ os.opened
  | .connect _ iSessionId _ _ => ∀ x ∈ s.places, x.1 ≠ iSessionId
  | _ => True

/-- What is said of the session of the service that an id stands for, if it stands for one. -/
def OfSession (s : SessionSer) (id : Id) (P : Session → Prop) : Prop :=
  ∀ p c, s.sessionFind id = some (.session p) → s.session p = some c → P c

/-- Closing a session closes each of its clients once, and leaves no entry for it. -/
def ClosesClients (s s' : SessionSer) (fx : List Effect) : Action → Prop
  | .close _ iSessionId => OfSession s iSessionId fun c => ∀ q ∈ c.clients,
      fx.count (.closed q.2.iSessionId) = 1 ∧ s'.sessionFind q.2.iSessionId = none
  | _ => True

/-- A connection is announced only if it can be found. -/
def Announces (s' : SessionSer) (fx : List Effect) : Prop :=
  ∀ iSessionId addr id, .report iSessionId .connect addr id ∈ fx → s'.sessionFind id ≠ none

/-- The call touches no block that was given back, and the registry is as it should be. -/
def Intact (s : SessionSer) (a : Action) : Prop :=
  ∃ s' fx, step s a = some (s', fx) ∧ Exact s' ∧ ClosesClients s s' fx a ∧ Announces s' fx

/-- No session is closed while it has clients, no set-up of a client fails, and no entry of a
session is refused. -/
def Meets (s : SessionSer) : Action → Prop
  | .open pSessionInfo os => os.Clean pSessionInfo
  | .close _ iSessionId => OfSession s iSessionId fun c => c.clients = []
  | .connect iFd iSessionId _ os => OfSession s iFd fun c =>
    c.conf.iSessionType = .tcpServer → os.Whole c iSessionId
  | _ => True

instance decidableOfSession (s : SessionSer) (id : Id) (P : Session → Prop) [DecidablePred P] :
    Decidable (OfSession s id P) :=
  match hfind : s.sessionFind id with
  | none => .isTrue fun _ _ h => by simp [hfind] at h
  | some (.client _ _) => .isTrue fun _ _ h => by simp [hfind] at h
  | some (.session p) =>
    match hc : s.session p with
    | none => .isTrue fun p' c h h' => by
      obtain rfl : p = p' := Place.session.inj (some.inj (hfind.symm.trans h))
      simp [hc] at h'
    | some c => decidable_of_iff (P c) ⟨fun hP p' c' h h' => by
      obtain rfl : p = p' := Place.session.inj (some.inj (hfind.symm.trans h))
      obtain rfl : c = c' := some.inj (hc.symm.trans h')
      exact hP, fun h => h p c hfind hc⟩

instance decidableWhole (c : Session) (id : Id) (os : ConnectAnswers) : Decidable (os.Whole c id) :=
  decidable_of_iff (os.parsed ∧ 0 < id.toInt ∧ os.watched ∧ (c.pstClientList.isNone → os.listed) ∧
      os.inserted ∧ os.hashed)
    ⟨fun ⟨h₁, h₂, h₃, h₄, h₅, h₆⟩ => ⟨h₁, h₂, h₃, fun h => h₄ (by rw [h]; rfl), h₅, h₆⟩,
      fun h => ⟨h.parsed, h.pos, h.watched, fun hn => h.listed (isNone_iff_eq_none.mp hn),
        h.inserted, h.hashed⟩⟩

instance decidableFresh (s : SessionSer) : (a : Action) → Decidable (Fresh s a)
  | .open _ os => inferInstanceAs (Decidable (0 ≤ os.opened.toInt →
      ∀ x ∈ s.places, x.1 ≠ os.opened))
  | .connect _ id _ _ => inferInstanceAs (Decidable (∀ x ∈ s.places, x.1 ≠ id))
  | .close _ _ | .lose _ | .sweep _ => inferInstanceAs (Decidable True)

instance decidableMeets (s : SessionSer) : (a : Action) → Decidable (Meets s a)
  | .open i os => inferInstanceAs (Decidable (0 ≤ os.opened.toInt →
      (i.iSessionType.info.iSysPollSupport && !i.iSessionType.info.wronly →
        0 < os.opened.toInt ∧ os.watched) → os.inserted → os.hashed))
  | .close _ id => decidableOfSession s id fun c => c.clients = []
  | .connect iFd id _ os =>
    decidableOfSession s iFd fun c => c.conf.iSessionType = .tcpServer → os.Whole c id
  | .lose _ | .sweep _ => inferInstanceAs (Decidable True)

variable {s s' : SessionSer} {a : Action} {fx : List Effect}

theorem Quiet.announces (h : Quiet fx) (s' : SessionSer) : Announces s' fx :=
  fun i addr id hmem => absurd hmem (h i addr id)

theorem Intact.of_sound (hstep : step s a = some (s', fx)) (hs' : Sound s') (hfx : Quiet fx)
    (hclose : ClosesClients s s' fx a) : Intact s a :=
  ⟨s', fx, hstep, hs'.exact, hclose, hfx.announces s'⟩

/-! ## One call -/

theorem open_iff (hs : Sound s) {info : SessionInfo} {os : OpenAnswers}
    (hfresh : Fresh s (.open info os)) :
    (Intact s (.open info os) ↔ Meets s (.open info os)) ∧
      (Meets s (.open info os) → ∀ x ∈ step s (.open info os), Sound x.1) := by
  obtain ⟨s', fx, hopen, hfx, hcases⟩ := sessionOpen_cases hs info hfresh
  have hstep : step s (.open info os) = some (s', fx) := hopen
  rcases hcases with ⟨hclean, hs'⟩ | ⟨hclean, place, hmem, hfind⟩
  · refine ⟨iff_of_true (.of_sound hstep hs' hfx trivial) hclean, fun _ x hx => ?_⟩
    obtain rfl := some.inj (hstep.symm.trans hx)
    exact hs'
  · refine ⟨iff_of_false ?_ hclean, fun h => absurd h hclean⟩
    rintro ⟨s'', fx', hstep', hexact, -⟩
    obtain ⟨rfl, rfl⟩ := Prod.mk.inj (some.inj (hstep.symm.trans hstep'))
    rw [(hexact _ _).mpr hmem] at hfind
    cases hfind

theorem lose_intact (hs : Sound s) (id : Id) :
    Intact s (.lose id) ∧ ∀ x ∈ step s (.lose id), Sound x.1 := by
  obtain ⟨s', hlose, hs'⟩ := lose_sound hs id
  have hstep : step s (.lose id) = some (s', []) := by
    rw [step, hlose]
    rfl
  refine ⟨.of_sound hstep hs' quiet_nil trivial, fun x hx => ?_⟩
  obtain rfl := some.inj (hstep.symm.trans hx)
  exact hs'

theorem sweep_intact (hs : Sound s) (created : Id → Bool) :
    Intact s (.sweep created) ∧ ∀ x ∈ step s (.sweep created), Sound x.1 := by
  obtain ⟨s', fx, hsweep, hs', hfx⟩ := sweep_sound created hs
  have hstep : step s (.sweep created) = some (s', fx) := hsweep
  refine ⟨.of_sound hstep hs' hfx trivial, fun x hx => ?_⟩
  obtain rfl := some.inj (hstep.symm.trans hx)
  exact hs'

theorem exists_session (hs : Sound s) (hfind : s.sessionFind id = some (.session p)) :
    ∃ c as bs, s.stLinkList.nodes = as ++ (p, c) :: bs ∧ c.conf.iSessionId = id := by
  obtain ⟨⟨p', c⟩, hn, hplace⟩ := mem_places.mp (hs.mem_of_find hfind)
  rcases hplace with ⟨hid, hp⟩ | ⟨q, -, -, hp⟩
  · obtain rfl : p = p' := Place.session.inj hp
    obtain ⟨as, bs, h⟩ := List.append_of_mem hn
    exact ⟨c, as, bs, h, hid⟩
  · cases hp

theorem exists_client (hs : Sound s) {q : Nat} (hfind : s.sessionFind id = some (.client p q)) :
    ∃ c as bs d l cs ds, s.stLinkList.nodes = as ++ (p, c) :: bs ∧ c.pstClientList = some l ∧
      l.nodes = cs ++ (q, d) :: ds ∧ d.iSessionId = id := by
  obtain ⟨⟨p', c⟩, hn, hplace⟩ := mem_places.mp (hs.mem_of_find hfind)
  rcases hplace with ⟨-, hp⟩ | ⟨⟨q', d⟩, hq, hid, hp⟩
  · cases hp
  · obtain ⟨rfl, rfl⟩ := Place.client.inj hp
    obtain ⟨as, bs, h⟩ := List.append_of_mem hn
    obtain ⟨l, hl, hmem⟩ := exists_list hq
    obtain ⟨cs, ds, hsplit⟩ := List.append_of_mem hmem
    exact ⟨c, as, bs, d, l, cs, ds, h, hl, hsplit, hid⟩

theorem close_sound (hs : Sound s) (created : Id → Bool) (hmeets : Meets s (.close created id)) :
    ∃ s' fx, s.sessionClose created id = some (s', fx) ∧ Sound s' ∧ Quiet fx := by
  by_cases hpos : 0 < id.toInt
  · cases hfind : s.sessionFind id with
    | none =>
      refine ⟨s, [.ret generalErr], ?_, hs, quiet_ret _⟩
      rw [sessionClose, closeWith, if_neg (Int.not_le.mpr hpos), hfind]
    | some place =>
      cases place with
      | session p =>
        obtain ⟨c, as, bs, h, rfl⟩ := exists_session hs hfind
        exact closeWith_session _ created hs h (hmeets p c hfind (session_eq h)) hpos
      | client p q =>
        obtain ⟨c, as, bs, d, l, cs, ds, h, hl, hsplit, rfl⟩ := exists_client hs hfind
        obtain ⟨s', fx, hclose, hs', hfx, -⟩ :=
          closeWith_client_cases (closeClient created) created hs h hl hsplit
        exact ⟨s', fx, hclose, hs', hfx⟩
  · exact ⟨s, [.ret paraErr], if_pos (Int.not_lt.mp hpos), hs, quiet_ret _⟩

theorem close_iff (hs : Sound s) (created : Id → Bool) (id : Id) :
    (Intact s (.close created id) ↔ Meets s (.close created id)) ∧
      (Meets s (.close created id) → ∀ x ∈ step s (.close created id), Sound x.1) := by
  refine ⟨⟨fun hintact p c hfind hc => ?_, fun hmeets => ?_⟩, fun hmeets x hx => ?_⟩
  · -- A client would keep its entry.
    obtain ⟨s', fx, hstep, -, hclosed, -⟩ := hintact
    rw [List.eq_nil_iff_forall_not_mem]
    rintro ⟨q, d⟩ hq
    obtain ⟨c', as, bs, h, hid⟩ := exists_session hs hfind
    obtain rfl : c' = c := some.inj ((session_eq h).symm.trans hc)
    have hkept := closeWith_server hs h hq (hid ▸ hstep)
    rw [(hclosed p c' hfind hc (q, d) hq).2] at hkept
    cases hkept
  · obtain ⟨s', fx, hclose, hs', hfx⟩ := close_sound hs created hmeets
    refine .of_sound hclose hs' hfx fun p c hfind hc q hq => ?_
    rw [hmeets p c hfind hc] at hq
    cases hq
  · obtain ⟨s', fx, hclose, hs', -⟩ := close_sound hs created hmeets
    obtain rfl := some.inj (hclose.symm.trans hx)
    exact hs'

theorem connect_other (hs : Sound s) (id : Id) (acAddr : CText) (os : ConnectAnswers)
    (h : OfSession s iFd fun c => c.conf.iSessionType ≠ .tcpServer) :
    step s (.connect iFd id acAddr os) = some (s, []) := by
  rw [step, acceptClient]
  cases hfind : s.sessionFind iFd with
  | none => rfl
  | some place =>
    cases place with
    | session p =>
      obtain ⟨c, as, bs, hsplit, -⟩ := exists_session hs hfind
      have htype := h p c hfind (session_eq hsplit)
      simp only [conf, session_eq hsplit, map_some, bind_eq_bind,
        bind_some, if_pos htype]
      rfl
    | client p q =>
      obtain ⟨c, as, bs, d, l, cs, ds, hsplit, hl, hq, -⟩ := exists_client hs hfind
      have htype : d.iSessionType = .tcpClient :=
        (hs.proper_at hsplit).type (q, d) (by rw [clients_of_some hl, hq]; simp)
      have hne : d.iSessionType ≠ .tcpServer := by
        rw [htype]
        rintro ⟨⟩
      simp only [conf, client_eq hsplit hl hq, bind_eq_bind, bind_some,
        if_pos hne]
      rfl

theorem connect_server (id : Id) (acAddr : CText) (os : ConnectAnswers) {c : Session}
    (hfind : s.sessionFind iFd = some (.session p)) (hc : s.session p = some c)
    (htype : c.conf.iSessionType = .tcpServer) :
    step s (.connect iFd id acAddr os) = (s.sessionClientConnect p id acAddr os).map fun x =>
      (x.1, x.2 ++ [.report c.conf.iSessionId .connect acAddr id]) := by
  have hnot : ¬ c.conf.iSessionType ≠ .tcpServer := fun h => h htype
  rw [step, acceptClient, hfind]
  simp only [conf, hc, map_some, bind_eq_bind, bind_some, if_neg hnot]
  cases s.sessionClientConnect p id acAddr os <;> rfl

theorem connect_iff (hs : Sound s) {acAddr : CText} {os : ConnectAnswers}
    (hfresh : Fresh s (.connect iFd id acAddr os)) :
    (Intact s (.connect iFd id acAddr os) ↔ Meets s (.connect iFd id acAddr os)) ∧
      (Meets s (.connect iFd id acAddr os) →
        ∀ x ∈ step s (.connect iFd id acAddr os), Sound x.1) := by
  by_cases hserver : ∃ p c, s.sessionFind iFd = some (.session p) ∧ s.session p = some c ∧
      c.conf.iSessionType = .tcpServer
  · obtain ⟨p, c, hfind, hc, htype⟩ := hserver
    obtain ⟨c', as, bs, h, -⟩ := exists_session hs hfind
    obtain rfl : c' = c := some.inj ((session_eq h).symm.trans hc)
    have hstep := connect_server id acAddr os hfind hc htype
    have hmeets : Meets s (.connect iFd id acAddr os) ↔ os.Whole c' id := by
      refine ⟨fun hm => hm p c' hfind hc htype, fun hwhole p₁ c₁ hfind₁ hc₁ _ => ?_⟩
      obtain rfl := Place.session.inj (some.inj (hfind.symm.trans hfind₁))
      obtain rfl := some.inj (hc.symm.trans hc₁)
      exact hwhole
    rw [hmeets]
    by_cases hwhole : os.Whole c' id
    · obtain ⟨s', q, hconnect, hs', hfound⟩ := sessionClientConnect_whole hs h hfresh acAddr hwhole
      rw [hconnect, map_some] at hstep
      refine ⟨iff_of_true ⟨s', _, hstep, hs'.exact, trivial, fun i addr id' hmem => ?_⟩ hwhole,
        fun _ x hx => ?_⟩
      · obtain ⟨-, -, rfl⟩ : i = c'.conf.iSessionId ∧ addr = acAddr ∧ id' = id := by
          simpa using (List.mem_append.mp hmem).resolve_left (by simp)
        rw [hfound]
        exact some_ne_none _
      · obtain rfl := some.inj (hstep.symm.trans hx)
        exact hs'
    · refine ⟨iff_of_false ?_ hwhole, fun h => absurd h hwhole⟩
      rintro ⟨s', fx, hstep', -, -, hannounced⟩
      rw [hstep] at hstep'
      obtain ⟨⟨s₁, fx₁⟩, hconnect, heq⟩ := map_eq_some_iff.mp hstep'
      obtain ⟨rfl, rfl⟩ := Prod.mk.inj heq
      have hhash := sessionClientConnect_lost h hwhole hconnect
      refine hannounced c'.conf.iSessionId acAddr id (List.mem_append_right _ ?_) ?_
      · exact List.mem_singleton_self _
      · rw [sessionFind, hhash]
        exact hs.find_eq_none hfresh
  · have hother : OfSession s iFd fun c => c.conf.iSessionType ≠ .tcpServer :=
      fun p c hfind hc htype => hserver ⟨p, c, hfind, hc, htype⟩
    have hstep := connect_other hs id acAddr os hother
    refine ⟨iff_of_true (.of_sound hstep hs quiet_nil trivial) ?_, fun _ x hx => ?_⟩
    · exact fun p c hfind hc htype => absurd htype (hother p c hfind hc)
    · obtain rfl := some.inj (hstep.symm.trans hx)
      exact hs

/-! ## Runs -/

theorem step_iff (hs : Sound s) (a : Action) (hfresh : Fresh s a) :
    (Intact s a ↔ Meets s a) ∧ (Meets s a → ∀ x ∈ step s a, Sound x.1) := by
  cases a with
  | «open» info os => exact open_iff hs hfresh
  | close created id => exact close_iff hs created id
  | connect iFd id acAddr os => exact connect_iff hs hfresh
  | lose id =>
    obtain ⟨hintact, hsound⟩ := lose_intact hs id
    exact ⟨iff_of_true hintact trivial, fun _ => hsound⟩
  | sweep created =>
    obtain ⟨hintact, hsound⟩ := sweep_intact hs created
    exact ⟨iff_of_true hintact trivial, fun _ => hsound⟩

/-- Over a run of the service in which no open descriptor is handed out again, the registry is
intact exactly if no session is closed while it has clients, no set-up of a client fails, and no
entry of a session is refused. -/
theorem registry_intact_iff {as : List Action} (hfresh : Run.Along step Fresh .new as) :
    Run.Along step Intact .new as ↔ Run.Along step Meets .new as :=
  Run.along_iff_along_of (fun _ a hs hf => (step_iff hs a hf).1)
    (fun _ a s' o hs hf hm hstep => (step_iff hs a hf).2 hm (s', o) hstep) Sound.new hfresh

/-- A server, and a client that it is told of. -/
def connected : List Action :=
  [.open ⟨.tcpServer, [], 0, 0, 0⟩ ⟨5, true, true, true, true⟩,
    .connect 5 6 [] ⟨true, true, true, true, true, true⟩]

theorem registry_client_lost :
    Run.Along step Intact .new
      (connected ++ [.lose 6, .sweep fun _ => true, .close (fun _ => true) 5]) :=
  (registry_intact_iff (by decide)).mpr (by decide)

/-- The loop over the clients of a server that is closed goes on from the block it gave back. -/
theorem server_closed_first :
    Run.Along step Fresh .new (connected ++ [.close (fun _ => true) 5]) ∧
      Run.run step .new (connected ++ [.close (fun _ => true) 5]) = none ∧
        ¬ Run.Along step Intact .new (connected ++ [.close (fun _ => true) 5]) := by
  have hnone : Run.run step .new (connected ++ [.close (fun _ => true) 5]) = none := by rfl
  refine ⟨by decide, hnone, fun hintact => ?_⟩
  have hgoes : ∀ s a, True → Intact s a → ∃ s' o, step s a = some (s', o) ∧ True :=
    fun s a _ ⟨s', fx, hstep, _⟩ => ⟨s', fx, hstep, trivial⟩
  obtain ⟨s', os, hrun, -⟩ := Run.run_progress_along hgoes trivial hintact
  rw [hnone] at hrun
  cases hrun

end Honyar.Sessions
