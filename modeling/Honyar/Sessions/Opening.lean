import Honyar.Sessions.Close

/-!
# Opening sessions and connecting clients

A session that is opened, or a client whose set-up goes through, stands in its list and in the
hash map.  A session whose entry cannot be made stays in the list of the service, and a client
whose set-up fails is announced all the same.
-/

namespace Honyar.Sessions

open SessionSer Option List

/-- The entry of a session can be made, if it comes to that. -/
def OpenAnswers.Clean (pSessionInfo : SessionInfo) (os : OpenAnswers) : Prop :=
  let info := pSessionInfo.iSessionType.info
  0 ≤ os.opened.toInt → (info.iSysPollSupport && !info.wronly → 0 < os.opened.toInt ∧ os.watched) →
    os.inserted → os.hashed

/-- Every step of the set-up of a client goes through. -/
structure ConnectAnswers.Whole (c : Session) (iSessionId : Id) (os : ConnectAnswers) : Prop where
  parsed : os.parsed
  pos : 0 < iSessionId.toInt
  watched : os.watched
  listed : c.pstClientList = none → os.listed
  inserted : os.inserted
  hashed : os.hashed

variable {s s' : SessionSer} {p q : Nat} {c : Session} {d : SessionConf} {id : Id} {acAddr : CText}
variable {as bs : List (Nat × Session)} {fx : List Effect}

/-! ## Opening -/

theorem quiet_openFailed (d : SessionConf) : Quiet (openFailed d) := by
  have hrepeater : Quiet (destroyDataRepeater d) := by
    refine .of_forall fun e he i command addr id => ?_
    rintro rfl
    unfold destroyDataRepeater at he
    split at he <;> simp at he
  have hend (fx : List Effect) (h : fx = [.closed d.iSessionId, .ret generalErr] ∨
      fx = [.ret generalErr]) : Quiet fx := by
    refine .of_forall fun e he i command addr id => ?_
    rintro rfl
    rcases h with rfl | rfl <;> simp at he
  unfold openFailed
  split
  · exact (quiet_stopped d).append (hend _ (.inl rfl))
  · exact hrepeater.append (hend _ (.inr rfl))

theorem quiet_opened (id : Id) (b : Bool) :
    Quiet (.opened id :: if b then [.initEvent id] else []) := by
  refine .of_forall fun e he i command addr id => ?_
  rintro rfl
  cases b <;> simp at he

theorem proper_of_none {n : Nat × Session} (hroot : n.2.conf.pParentSession = none)
    (h : n.2.pstClientList = none) : Proper n where
  root := hroot
  here l hl := by
    rw [h] at hl
    cases hl
  parent q hq := by
    rw [clients_of_none h] at hq
    cases hq
  type q hq := by
    rw [clients_of_none h] at hq
    cases hq

/-- A session is opened, and stands in the list and the hash map; or it is not and does in
neither; or it is not, and its block stays in the list. -/
theorem sessionOpen_cases (hs : Sound s) (pSessionInfo : SessionInfo) {os : OpenAnswers}
    (hfresh : 0 ≤ os.opened.toInt → ∀ x ∈ s.places, x.1 ≠ os.opened) :
    ∃ s' fx, s.sessionOpen pSessionInfo os = some (s', fx) ∧ Quiet fx ∧
      (os.Clean pSessionInfo ∧ Sound s' ∨ ¬ os.Clean pSessionInfo ∧
        ∃ place, (os.opened, place) ∈ s'.places ∧ s'.sessionFind os.opened = none) := by
  set stSession := openedConf pSessionInfo os.opened os.repeater with hsession
  set watch := pSessionInfo.iSessionType.info.iSysPollSupport &&
    !pSessionInfo.iSessionType.info.wronly with hwatch
  have hinfo : (stSession.iSessionType.info.iSysPollSupport &&
    !stSession.iSessionType.info.wronly) = watch := rfl
  unfold sessionOpen
  simp only [← hsession, hinfo]
  by_cases hneg : os.opened.toInt < 0
  · rw [if_pos hneg]
    exact ⟨s, _, rfl, quiet_openFailed _, .inl ⟨fun h => absurd h (Int.not_le.mpr hneg), hs⟩⟩
  rw [if_neg hneg]
  replace hfresh := hfresh (Int.not_lt.mp hneg)
  by_cases hunwatched : (watch && !(0 < os.opened.toInt && os.watched)) = true
  · rw [if_pos hunwatched]
    refine ⟨s, _, rfl, ?_, .inl ⟨fun _ h => ?_, hs⟩⟩
    · exact (quiet_opened os.opened false).append (quiet_openFailed stSession)
    · obtain ⟨hw, hnot⟩ := Bool.and_eq_true_iff.mp hunwatched
      obtain ⟨hpos, hwatched⟩ := h hw
      simp [hpos, hwatched] at hnot
  rw [if_neg hunwatched]
  have hwatched : watch = true → 0 < os.opened.toInt ∧ os.watched = true := by
    intro hw
    simpa [hw] using hunwatched
  have hfx := quiet_opened os.opened watch
  by_cases hinserted : os.inserted
  · obtain ⟨l, hinsert, hnodes, hgone⟩ :=
      Listing.exists_tailInsert hs.here (⟨stSession, none⟩ : Session)
    have hother : ∀ n ∈ s.stLinkList.nodes, decide (n.2.conf.iSessionId = os.opened) = false :=
      fun n hn => decide_eq_false (hfresh _ (mem_places.mpr ⟨n, hn, .inl ⟨rfl, rfl⟩⟩))
    have hfind : l.find (fun c => decide (c.conf.iSessionId = os.opened)) =
        some (some s.stLinkList.fresh) :=
      Listing.find_last hnodes hgone hother (decide_eq_true rfl)
    have hplaces : l.nodes.flatMap placesOf =
        s.places ++ [(os.opened, .session s.stLinkList.fresh)] := by
      rw [hnodes, flatMap_append]
      rfl
    simp only [hinserted, Bool.not_true, Bool.false_eq_true, if_false, hinsert, hfind,
      bind_eq_bind, bind_some]
    cases hhashed : os.hashed with
    | true =>
      refine ⟨_, _, rfl, hfx.append ?_, .inl ⟨fun _ _ _ => hhashed, hgone, ?_, ?_⟩⟩
      · exact .of_forall fun e he _ _ _ _ => by rintro rfl; cases mem_singleton.mp he
      · have hhash := hs.hash
        rw [← append_nil s.places] at hhash
        show Base.HashMap.Mirror _ (entries (l.nodes.flatMap placesOf))
        rw [hplaces]
        exact mirror_inst hhash (by rwa [append_nil]) _
      · intro n hn
        rw [show (SessionSer.mk l _).stLinkList.nodes = _ from hnodes] at hn
        rcases mem_append.mp hn with hn | hn
        · exact hs.proper n hn
        · rw [mem_singleton.mp hn]
          exact proper_of_none rfl rfl
    | false =>
      refine ⟨{ s with stLinkList := l }, _, rfl, hfx.append (quiet_openFailed _),
        .inr ⟨fun hclean => ?_, .session s.stLinkList.fresh, ?_, hs.find_eq_none hfresh⟩⟩
      · rw [hclean (Int.not_lt.mp hneg) hwatched hinserted] at hhashed
        cases hhashed
      · show _ ∈ l.nodes.flatMap placesOf
        rw [hplaces]
        simp
  · simp only [hinserted, Bool.not_false, if_true]
    exact ⟨s, _, rfl, hfx.append (quiet_openFailed _), .inl ⟨fun _ _ h => absurd h hinserted, hs⟩⟩

/-! ## Connections -/

theorem sessionClientConnect_whole (hs : Sound s) (h : s.stLinkList.nodes = as ++ (p, c) :: bs)
    (hfresh : ∀ x ∈ s.places, x.1 ≠ id) (acAddr : CText) {os : ConnectAnswers}
    (hwhole : os.Whole c id) :
    ∃ s' q, s.sessionClientConnect p id acAddr os = some (s', [.initEvent id]) ∧ Sound s' ∧
      s'.sessionFind id = some (.client p q) := by
  set stSession := clientConf id acAddr p os.repeater with hsession
  set l := c.pstClientList.getD .empty with hl
  have hid : stSession.iSessionId = id := rfl
  have hproper := hs.proper_at h
  have hclients : l.nodes = c.clients := by
    rw [hl]
    cases hlist : c.pstClientList with
    | none => exact (clients_of_none hlist).symm
    | some l => exact (clients_of_some hlist).symm
  have hhere : l.gone = false := by
    rw [hl]
    cases hlist : c.pstClientList with
    | none => rfl
    | some l => exact hproper.here l hlist
  obtain ⟨l₁, hset₁, hnodes₁, hgone₁⟩ :=
    setSession_eq h fun c => { c with pstClientList := some l }
  obtain ⟨l', hinsert, hnodes, hgone⟩ := Listing.exists_tailInsert hhere stSession
  obtain ⟨l₂, hset₂, hnodes₂, hgone₂⟩ := setSession_eq (s := { s with stLinkList := l₁ }) hnodes₁
    fun c => { c with pstClientList := some l' }
  have hother : ∀ q ∈ l.nodes, decide (q.2.iSessionId = id) = false := fun q hq =>
    decide_eq_false (hfresh (q.2.iSessionId, .client p q.1)
      (mem_places.mpr ⟨(p, c), by rw [h]; simp, .inr ⟨q, hclients ▸ hq, rfl, rfl⟩⟩))
  have hfind : l'.find (fun d => decide (d.iSessionId = id)) = some (some l.fresh) :=
    Listing.find_last hnodes hgone hother (decide_eq_true rfl)
  have hlist : s.clientList p = some c.pstClientList := by
    rw [clientList, session_eq h]
    rfl
  have hlisted : (c.pstClientList.isNone && !os.listed) = false := by
    cases hlist : c.pstClientList with
    | none => simp [hwhole.listed hlist]
    | some l => rfl
  have hplaces : s.places = (as.flatMap placesOf ++ placesOf (p, c)) ++ bs.flatMap placesOf :=
    places_split h
  have hsound : Sound ⟨l₂, s.pstSessionHash.inst (key id) (.client p l.fresh)⟩ := by
    refine hs.replace h hnodes₂ (hgone₂.trans hgone₁) ?_ ?_
    · refine hproper.withClients hgone fun x hx => ?_
      rw [hnodes, mem_append, mem_singleton, hclients] at hx
      refine hx.imp_right ?_
      rintro rfl
      exact ⟨rfl, rfl⟩
    · have hhash := hs.hash
      rw [hplaces] at hhash hfresh
      have hmirror := mirror_inst hhash hfresh (.client p l.fresh)
      rw [placesOf, clients_of_some rfl, hnodes, hclients]
      simpa [placesOf, hid] using hmirror
  refine ⟨_, l.fresh, ?_, hsound, hsound.find_eq (mem_places.mpr ?_)⟩
  · unfold sessionClientConnect
    simp only [hwhole.parsed, hwhole.pos, hwhole.watched, hwhole.inserted, hwhole.hashed, hlist,
      hlisted, hset₁, hinsert, hset₂, hfind, ← hl, ← hsession, bind_eq_bind,
      bind_some, Bool.not_true, Bool.false_eq_true, if_false, decide_true, Bool.and_true]
    rfl
  · exact ⟨_, hnodes₂ ▸ mem_append_right _ mem_cons_self, .inr
      ⟨(l.fresh, stSession), by rw [clients_of_some rfl, hnodes]; simp, rfl, rfl⟩⟩

/-- Where it does not go through, the hash map does not get the client. -/
theorem sessionClientConnect_lost (h : s.stLinkList.nodes = as ++ (p, c) :: bs)
    {os : ConnectAnswers} (hnot : ¬ os.Whole c id)
    (hconnect : s.sessionClientConnect p id acAddr os = some (s', fx)) :
    s'.pstSessionHash = s.pstSessionHash := by
  have hlist : s.clientList p = some c.pstClientList := by
    rw [clientList, session_eq h]
    rfl
  have hstop {t : SessionSer} {fx' : List Effect} (hpure : some (t, fx') = some (s', fx))
      (hhash : t.pstSessionHash = s.pstSessionHash) : s'.pstSessionHash = s.pstSessionHash := by
    obtain ⟨rfl, -⟩ := Prod.mk.inj (some.inj hpure)
    exact hhash
  unfold sessionClientConnect at hconnect
  cases hparsed : os.parsed with
  | false =>
    rw [hparsed] at hconnect
    cases hconnect
  | true =>
    simp only [hparsed, Bool.not_true, Bool.false_eq_true, if_false] at hconnect
    split at hconnect
    · exact hstop hconnect rfl
    rename_i hwatched
    rw [hlist, bind_eq_bind, bind_some] at hconnect
    split at hconnect
    · exact hstop hconnect rfl
    rename_i hlisted
    obtain ⟨s₁, hset₁, hconnect⟩ := bind_eq_some_iff.mp hconnect
    have hhash₁ := setSession_hash hset₁
    split at hconnect
    · exact hstop hconnect hhash₁
    rename_i hinserted
    obtain ⟨l, -, hconnect⟩ := bind_eq_some_iff.mp hconnect
    obtain ⟨s₂, hset₂, hconnect⟩ := bind_eq_some_iff.mp hconnect
    have hhash₂ := (setSession_hash hset₂).trans hhash₁
    obtain ⟨found, -, hconnect⟩ := bind_eq_some_iff.mp hconnect
    cases found with
    | none => exact hstop hconnect hhash₂
    | some q =>
      dsimp only at hconnect
      split at hconnect
      · obtain ⟨l', -, hconnect⟩ := bind_eq_some_iff.mp hconnect
        obtain ⟨s₃, hset₃, hconnect⟩ := bind_eq_some_iff.mp hconnect
        exact hstop hconnect ((setSession_hash hset₃).trans hhash₂)
      · rename_i hhashed
        refine absurd ⟨hparsed, ?_, ?_, fun hnone => ?_, ?_, ?_⟩ hnot
        · simp at hwatched
          exact hwatched.1
        · simp at hwatched
          exact hwatched.2
        · simpa [hnone] using hlisted
        · simpa using hinserted
        · simpa using hhashed

/-! ## Losing a session -/

theorem exists_list (h : (q, d) ∈ c.clients) :
    ∃ l, c.pstClientList = some l ∧ (q, d) ∈ l.nodes := by
  cases hl : c.pstClientList with
  | none =>
    rw [clients_of_none hl] at h
    cases h
  | some l => exact ⟨l, rfl, by rwa [clients_of_some hl] at h⟩

theorem lose_sound (hs : Sound s) (id : Id) : ∃ s', s.lose id = some s' ∧ Sound s' := by
  cases hfind : s.sessionFind id with
  | none =>
    refine ⟨s, ?_, hs⟩
    rw [lose, hfind]
  | some place =>
    obtain ⟨⟨p, c⟩, hn, hplace⟩ := mem_places.mp (hs.mem_of_find hfind)
    obtain ⟨as, bs, h⟩ := append_of_mem hn
    have hproper := hs.proper_at h
    have hhash := hs.hash
    rw [places_split h] at hhash
    rcases hplace with ⟨-, rfl⟩ | ⟨⟨q, d⟩, hq, -, rfl⟩
    · obtain ⟨l', hset, hnodes, hgone⟩ :=
        setSession_eq h fun c => { c with conf := { c.conf with iActiveFlag := false } }
      refine ⟨⟨l', s.pstSessionHash⟩, ?_, hs.replace h hnodes hgone ?_ hhash⟩
      · rw [lose, hfind]
        exact hset
      · exact ⟨hproper.root, hproper.here, hproper.parent, hproper.type⟩
    · have hq : (q, d) ∈ c.clients := hq
      obtain ⟨l, hl, hmem⟩ := exists_list hq
      obtain ⟨cs, ds, hsplit⟩ := append_of_mem hmem
      obtain ⟨l₁, hmod, hnodes₁, hgone₁⟩ :=
        Listing.exists_modify hsplit fun d => { d with iActiveFlag := false }
      obtain ⟨l', hset, hnodes, hgone⟩ :=
        setSession_eq h fun c => { c with pstClientList := some l₁ }
      refine ⟨⟨l', s.pstSessionHash⟩, ?_, hs.replace h hnodes hgone ?_ ?_⟩
      · simp only [lose, hfind, session_eq h, hl, hmod, bind_eq_bind, bind_some]
        exact hset
      · refine hproper.withClients (hgone₁.trans (hproper.here l hl)) fun x hx => ?_
        rw [hnodes₁] at hx
        rw [clients_of_some hl, hsplit]
        rcases mem_append.mp hx with hx | hx
        · exact .inl (mem_append_left _ hx)
        · rcases mem_cons.mp hx with rfl | hx
          · exact .inr ⟨hproper.parent (q, d) hq, hproper.type (q, d) hq⟩
          · exact .inl (mem_append_right _ (mem_cons_of_mem _ hx))
      · rw [placesOf, clients_of_some hl, hsplit] at hhash
        rw [placesOf, clients_of_some rfl, hnodes₁]
        simpa using hhash

end Honyar.Sessions
