import Honyar.Sessions.Registry

/-!
# Closing sessions

A session of a client is closed and taken out of the list it stands in.  The service loop goes on
from the block behind before it closes the one it was at; `session_close` of a server does not.
-/

namespace Honyar.Sessions

open Honyar.Base (HashMap)
open SessionSer Option List Listing

/-- No connection is announced. -/
def Quiet (fx : List Effect) : Prop :=
  ∀ iSessionId addr id, Effect.report iSessionId .connect addr id ∉ fx

theorem quiet_nil : Quiet [] := fun _ _ _ h => by cases h

theorem Quiet.append {fx fx' : List Effect} (h : Quiet fx) (h' : Quiet fx') : Quiet (fx ++ fx') :=
  fun i addr id hmem => (mem_append.mp hmem).elim (h i addr id) (h' i addr id)

variable {s s' : SessionSer} {p q : Nat} {c : Session} {d : SessionConf}
variable {as bs : List (Nat × Session)} {cs ds : List (Nat × SessionConf)}
variable {l : Listing SessionConf} {id : Id} {place : Place} {created : Id → Bool}
variable {close : SessionSer → Id → Option (SessionSer × List Effect)}

theorem Quiet.of_forall {fx : List Effect}
    (h : ∀ e ∈ fx, ∀ iSessionId command addr id, e ≠ .report iSessionId command addr id) :
    Quiet fx := fun _ _ _ hmem => h _ hmem _ _ _ _ rfl

theorem quiet_ret (r : Int) : Quiet [.ret r] :=
  .of_forall fun e he _ _ _ _ => by rintro rfl; cases mem_singleton.mp he

theorem quiet_stopped (d : SessionConf) : Quiet (stopped d) := by
  refine .of_forall fun e he i command addr id => ?_
  rintro rfl
  unfold stopped destroyDataRepeater at he
  split at he <;> split at he <;> simp at he

theorem quiet_closing {told fx : List Effect} (htold : Quiet told) (hfx : Quiet fx)
    (d : SessionConf) (id : Id) :
    Quiet (told ++ stopped d ++ fx ++ [.closed id, .ret noErr]) := by
  have hend : Quiet [.closed id, .ret noErr] := by
    refine .of_forall fun e he i command addr id => ?_
    rintro rfl
    simp at he
  exact ((htold.append (quiet_stopped d)).append hfx).append hend

/-! ## A client -/

theorem mem_places_client (h : s.stLinkList.nodes = as ++ (p, c) :: bs)
    (hl : c.pstClientList = some l) (hq : l.nodes = cs ++ (q, d) :: ds) :
    (d.iSessionId, .client p q) ∈ s.places :=
  mem_places.mpr ⟨(p, c), by rw [h]; simp, .inr ⟨(q, d), by rw [clients_of_some hl, hq]; simp, rfl,
    rfl⟩⟩

/-- A client that is closed is in its list and in the hash map no more. -/
theorem closeWith_client (close : SessionSer → Id → Option (SessionSer × List Effect))
    (hs : Sound s) (h : s.stLinkList.nodes = as ++ (p, c) :: bs)
    (hl : c.pstClientList = some l) (hq : l.nodes = cs ++ (q, d) :: ds)
    (hpos : 0 < d.iSessionId.toInt) (hcreated : created d.iSessionId = true) :
    ∃ s' fx l', closeWith close created s d.iSessionId = some (s', fx) ∧ Sound s' ∧ Quiet fx ∧
      s'.stLinkList.nodes = as ++ (p, { c with pstClientList := some l' }) :: bs ∧
      l'.nodes = cs ++ ds := by
  have hproper := hs.proper_at h
  have hmem : (q, d) ∈ c.clients := by
    rw [clients_of_some hl, hq]
    simp
  have hparent : d.pParentSession = some p := hproper.parent (q, d) hmem
  have hfind := hs.find_eq (mem_places_client h hl hq)
  obtain ⟨l', hdel, hnodes', hgone'⟩ := exists_del hq
  have hplaces : s.places = (as.flatMap placesOf ++ (c.conf.iSessionId, .session p) ::
      cs.map fun x => (x.2.iSessionId, .client p x.1)) ++ (d.iSessionId, .client p q) ::
        ((ds.map fun x => (x.2.iSessionId, .client p x.1)) ++ bs.flatMap placesOf) := by
    rw [places_split h, placesOf, clients_of_some hl, hq]
    simp
  have hhash := hs.hash
  rw [hplaces] at hhash
  have hmirror := mirror_del hhash
  obtain ⟨ll, hset, hll, hllgone⟩ :=
    setSession_eq (s := { s with pstSessionHash := s.pstSessionHash.del (key d.iSessionId) }) h
      fun c => { c with pstClientList := some l' }
  have hproper' : Proper (p, { c with pstClientList := some l' }) := by
    refine hproper.withClients (hgone'.trans (hproper.here l hl)) fun x hx => .inl ?_
    rw [hnodes'] at hx
    rw [clients_of_some hl, hq]
    rcases mem_append.mp hx with hx | hx
    · exact mem_append_left _ hx
    · exact mem_append_right _ (mem_cons_of_mem _ hx)
  refine ⟨⟨ll, s.pstSessionHash.del (key d.iSessionId)⟩,
    [.report c.conf.iSessionId .disconnect d.acSessionAddr d.iSessionId] ++ stopped d ++ [] ++
      [.closed d.iSessionId, .ret noErr], l', ?_, hs.replace h hll hllgone hproper' ?_, ?_, hll,
    hnodes'⟩
  · rw [closeWith, if_neg (Int.not_le.mpr hpos), hfind]
    simp only [conf, client_eq h hl hq, bind_eq_bind, bind_some, hparent,
      isSome_some, hcreated, Bool.not_true, Bool.and_false, Bool.false_eq_true, if_false,
      disconnect, session_eq h, closeClients, delNode, ne_eq, not_true_eq_false]
    rw [session_eq (s := ⟨s.stLinkList, s.pstSessionHash.del (key d.iSessionId)⟩) h]
    simp only [bind_some, hl, hdel, hset]
    rfl
  · rw [placesOf, clients_of_some rfl, hnodes']
    simpa using hmirror
  · refine quiet_closing (fun i addr id hmem => ?_) quiet_nil d d.iSessionId
    cases mem_singleton.mp hmem

theorem closeWith_client_cases (close : SessionSer → Id → Option (SessionSer × List Effect))
    (created : Id → Bool) (hs : Sound s) (h : s.stLinkList.nodes = as ++ (p, c) :: bs)
    (hl : c.pstClientList = some l) (hq : l.nodes = cs ++ (q, d) :: ds) :
    ∃ s' fx, closeWith close created s d.iSessionId = some (s', fx) ∧ Sound s' ∧ Quiet fx ∧
      (s' = s ∨ ∃ l', s'.stLinkList.nodes = as ++ (p, { c with pstClientList := some l' }) :: bs ∧
        l'.nodes = cs ++ ds) := by
  by_cases hpos : 0 < d.iSessionId.toInt
  · by_cases hcreated : created d.iSessionId
    · obtain ⟨s', fx, l', hclose, hs', hfx, hnodes, hl'⟩ :=
        closeWith_client close hs h hl hq hpos hcreated
      exact ⟨s', fx, hclose, hs', hfx, .inr ⟨l', hnodes, hl'⟩⟩
    · have hparent : d.pParentSession = some p :=
        (hs.proper_at h).parent (q, d) (by rw [clients_of_some hl, hq]; simp)
      refine ⟨s, [.ret generalErr], ?_, hs, quiet_ret _, .inl rfl⟩
      rw [closeWith, if_neg (Int.not_le.mpr hpos), hs.find_eq (mem_places_client h hl hq)]
      simp only [conf, client_eq h hl hq, bind_eq_bind, bind_some, hparent,
        isSome_some, hcreated, Bool.not_false, Bool.and_true, if_true]
      rfl
  · exact ⟨s, [.ret paraErr], if_pos (Int.not_lt.mp hpos), hs, quiet_ret _, .inl rfl⟩

theorem exists_of_client (h : s.client p q = some d) : ∃ as c bs l cs ds,
    s.stLinkList.nodes = as ++ (p, c) :: bs ∧ c.pstClientList = some l ∧
      l.nodes = cs ++ (q, d) :: ds := by
  obtain ⟨c, hc, h⟩ := bind_eq_some_iff.mp h
  obtain ⟨l, hl, h⟩ := bind_eq_some_iff.mp h
  obtain ⟨as, bs, has⟩ := append_of_mem (mem_of_data hc)
  obtain ⟨cs, ds, hcs⟩ := append_of_mem (mem_of_data h)
  exact ⟨as, c, bs, l, cs, ds, has, hl, hcs⟩

theorem next_of_closed {l' : Listing SessionConf} (hq : l.nodes = cs ++ (q, d) :: ds)
    (hl' : l'.nodes = cs ++ ds) : l'.next (some q) = none := by
  obtain ⟨hcs, hds⟩ := notMem_of_split hq
  refine if_neg ?_
  rw [hl', map_append, mem_append, not_or]
  exact ⟨hcs, hds⟩

/-! ## A server -/

/-- The loop over the clients of a session comes to its end only if it closes none. -/
theorem closeFrom_eq (hs : Sound s) {n : Nat} {cur : Option Nat} {fx : List Effect}
    (h : closeFrom (closeWith close created) p n cur s = some (s', fx)) : s' = s := by
  induction n generalizing cur fx with
  | zero =>
    cases cur with
    | none =>
      rw [closeFrom] at h
      exact (congrArg Prod.fst (some.inj h)).symm
    | some q => cases h
  | succ n ih =>
    cases cur with
    | none =>
      rw [closeFrom] at h
      exact (congrArg Prod.fst (some.inj h)).symm
    | some q =>
      rw [closeFrom] at h
      obtain ⟨d, hd, -⟩ := bind_eq_some_iff.mp h
      obtain ⟨as, c, bs, l, cs, ds, hnodes, hl, hq⟩ := exists_of_client hd
      obtain ⟨s₁, fx₁, hclose, -, -, hcases⟩ :=
        closeWith_client_cases close created hs hnodes hl hq
      simp only [hd, hclose, bind_eq_bind, bind_some] at h
      rcases hcases with heq | ⟨l', hnodes', hl'⟩
      · rw [heq, session_eq hnodes, bind_some, hl, bind_some] at h
        obtain ⟨next, -, h⟩ := bind_eq_some_iff.mp h
        obtain ⟨⟨s₂, fx₂⟩, hrest, h⟩ := bind_eq_some_iff.mp h
        obtain rfl : s₂ = s' := congrArg Prod.fst (some.inj h)
        exact ih hrest
      · rw [session_eq hnodes', bind_some, bind_some, next_of_closed hq hl'] at h
        cases h

/-- A session without clients: their list is destroyed, and it stays where it is. -/
theorem closeClients_nil (close : SessionSer → Id → Option (SessionSer × List Effect))
    (hs : Sound s) (h : s.stLinkList.nodes = as ++ (p, c) :: bs) (hnil : c.clients = []) :
    ∃ l' c', closeClients close s (.session p) = some ({ s with stLinkList := l' }, []) ∧
      l'.nodes = as ++ (p, c') :: bs ∧ l'.gone = s.stLinkList.gone ∧ c'.conf = c.conf := by
  have hlist : s.clientList p = some c.pstClientList := by
    rw [clientList, session_eq h]
    rfl
  cases hl : c.pstClientList with
  | none =>
    refine ⟨s.stLinkList, c, ?_, h, rfl, rfl⟩
    rw [closeClients, hlist, hl]
    rfl
  | some l =>
    have hnodes : l.nodes = [] := by rwa [clients_of_some hl] at hnil
    have hgone : l.gone = false := (hs.proper_at h).here l hl
    have hnext : l.next none = some none := by
      rw [Listing.next, hgone, hnodes]
      rfl
    obtain ⟨l₁, hclear⟩ : ∃ l₁, l.clear = some l₁ := by
      rw [Listing.clear, hgone]
      exact ⟨_, rfl⟩
    obtain ⟨l', hset, hnodes', hgone'⟩ :=
      setSession_eq h fun c => { c with pstClientList := some l₁ }
    refine ⟨l', _, ?_, hnodes', hgone', rfl⟩
    have hloop (n : Nat) : closeFrom close p n none s = some (s, []) := by
      cases n <;> rfl
    simp only [closeClients, hlist, hl, hnext, hloop, session_eq h, hclear, hset,
      bind_eq_bind, bind_some]
    rfl

theorem closeWith_session (close : SessionSer → Id → Option (SessionSer × List Effect))
    (created : Id → Bool) (hs : Sound s) (h : s.stLinkList.nodes = as ++ (p, c) :: bs)
    (hnil : c.clients = []) (hpos : 0 < c.conf.iSessionId.toInt) :
    ∃ s' fx, closeWith close created s c.conf.iSessionId = some (s', fx) ∧ Sound s' ∧ Quiet fx := by
  have hplaces : s.places = as.flatMap placesOf ++ (c.conf.iSessionId, .session p) ::
      bs.flatMap placesOf := by
    rw [places_split h, placesOf, hnil]
    simp
  have hfind : s.sessionFind c.conf.iSessionId = some (.session p) :=
    hs.find_eq (by rw [hplaces]; simp)
  have hhash := hs.hash
  rw [hplaces] at hhash
  obtain ⟨l', c', hclients, hnodes', hgone', hconf⟩ := closeClients_nil close hs h hnil
  obtain ⟨l'', hdel, hnodes'', hgone''⟩ := exists_del hnodes'
  have hroot : c.conf.pParentSession = none := (hs.proper_at h).root
  refine ⟨⟨l'', s.pstSessionHash.del (key c.conf.iSessionId)⟩,
    [] ++ stopped c.conf ++ [] ++ [.closed c.conf.iSessionId, .ret noErr], ?_, ⟨?_, ?_, ?_⟩, ?_⟩
  · have hconf' : conf { s with stLinkList := l' } (.session p) = some c.conf := by
      rw [conf, session_eq (s := { s with stLinkList := l' }) hnodes', ← hconf]
      rfl
    rw [closeWith, if_neg (Int.not_le.mpr hpos), hfind]
    simp only [conf, session_eq h, map_some, bind_eq_bind, bind_some, hroot,
      isSome_none, Bool.false_and, Bool.false_eq_true, if_false, disconnect, hclients]
    rw [conf] at hconf'
    simp only [hconf', bind_some, delNode, hroot, hdel]
    rfl
  · exact hgone''.trans (hgone'.trans hs.here)
  · show HashMap.Mirror _ (entries (l''.nodes.flatMap placesOf))
    rw [hnodes'', flatMap_append]
    exact mirror_del hhash
  · intro n hn
    refine hs.proper n ?_
    rw [show (SessionSer.mk l'' _).stLinkList.nodes = as ++ bs from hnodes''] at hn
    rw [h]
    rcases mem_append.mp hn with hn | hn
    · exact mem_append_left _ hn
    · exact mem_append_right _ (mem_cons_of_mem _ hn)
  · exact quiet_closing quiet_nil quiet_nil c.conf c.conf.iSessionId

theorem setSession_hash {f : Session → Session} (h : s.setSession p f = some s') :
    s'.pstSessionHash = s.pstSessionHash := by
  obtain ⟨l, -, h⟩ := bind_eq_some_iff.mp h
  obtain rfl := some.inj h
  rfl

theorem delNode_hash {parent : Option Nat} (h : s.delNode parent place = some s') :
    s'.pstSessionHash = s.pstSessionHash := by
  unfold delNode at h
  split at h
  · obtain ⟨l, -, h⟩ := bind_eq_some_iff.mp h
    obtain rfl := some.inj h
    rfl
  · split at h
    · cases h
    · obtain ⟨c, -, h⟩ := bind_eq_some_iff.mp h
      obtain ⟨l, -, h⟩ := bind_eq_some_iff.mp h
      obtain ⟨l', -, h⟩ := bind_eq_some_iff.mp h
      exact setSession_hash h
  · cases h

theorem closeClients_hash (hs : Sound s) {fx : List Effect}
    (h : closeClients (closeWith close created) s place = some (s', fx)) :
    s'.pstSessionHash = s.pstSessionHash := by
  cases place with
  | client p q =>
    obtain rfl : s = s' := congrArg Prod.fst (some.inj h)
    rfl
  | session p =>
    obtain ⟨list, -, h⟩ := bind_eq_some_iff.mp h
    cases list with
    | none =>
      obtain rfl : s = s' := congrArg Prod.fst (some.inj h)
      rfl
    | some l =>
      obtain ⟨cur, -, h⟩ := bind_eq_some_iff.mp h
      obtain ⟨⟨s₁, fx₁⟩, hloop, h⟩ := bind_eq_some_iff.mp h
      dsimp only at h
      obtain ⟨c, -, h⟩ := bind_eq_some_iff.mp h
      obtain ⟨l₁, -, h⟩ := bind_eq_some_iff.mp h
      obtain ⟨l₂, -, h⟩ := bind_eq_some_iff.mp h
      obtain ⟨s₂, hset, h⟩ := bind_eq_some_iff.mp h
      obtain rfl : s₂ = s' := congrArg Prod.fst (some.inj h)
      rw [setSession_hash hset, closeFrom_eq hs hloop]

/-- Of a server that has clients the hash map keeps them, if closing it comes to an end at all. -/
theorem closeWith_server (hs : Sound s) (h : s.stLinkList.nodes = as ++ (p, c) :: bs)
    (hq : (q, d) ∈ c.clients) {fx : List Effect}
    (hclose : closeWith (closeWith close created) created s c.conf.iSessionId = some (s', fx)) :
    s'.sessionFind d.iSessionId = some (.client p q) := by
  have hmem : (c.conf.iSessionId, .session p) ∈ s.places :=
    mem_places.mpr ⟨(p, c), by rw [h]; simp, .inl ⟨rfl, rfl⟩⟩
  have hmemq : (d.iSessionId, .client p q) ∈ s.places :=
    mem_places.mpr ⟨(p, c), by rw [h]; simp, .inr ⟨(q, d), hq, rfl, rfl⟩⟩
  have hfind := hs.find_eq hmem
  have hfindq := hs.find_eq hmemq
  have hne : c.conf.iSessionId ≠ d.iSessionId := by
    intro heq
    rw [heq, hfindq] at hfind
    cases hfind
  rw [closeWith] at hclose
  split at hclose
  · obtain rfl : s = s' := congrArg Prod.fst (some.inj hclose)
    exact hfindq
  · have hroot : c.conf.pParentSession = none := (hs.proper_at h).root
    simp only [hfind, conf, session_eq h, map_some, bind_eq_bind, bind_some,
      hroot, isSome_none, Bool.false_and, Bool.false_eq_true, if_false,
      disconnect] at hclose
    obtain ⟨⟨s₁, fx₁⟩, hclients, hclose⟩ := bind_eq_some_iff.mp hclose
    obtain ⟨c', -, hclose⟩ := bind_eq_some_iff.mp hclose
    obtain ⟨s₂, hdel, hclose⟩ := bind_eq_some_iff.mp hclose
    obtain rfl : s₂ = s' := congrArg Prod.fst (some.inj hclose)
    have hhash : s₂.pstSessionHash = s.pstSessionHash.del (key c.conf.iSessionId) := by
      rw [delNode_hash hdel]
      exact congrArg (·.del (key c.conf.iSessionId)) (closeClients_hash hs hclients)
    rw [sessionFind, hhash, HashMap.find_eq, HashMap.all_del,
      if_neg fun heq => hne (key_injective heq), ← HashMap.find_eq]
    exact hfindq

end Honyar.Sessions
