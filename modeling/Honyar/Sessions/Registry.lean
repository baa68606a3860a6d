import Honyar.Sessions.Calls

/-!
# The registry of sessions

Where every session stands, what the hash map has to say of it, and what the calls on the lists
do to both.
-/

namespace Honyar.Sessions

open Honyar.Base (HashMap)
open SessionSer Option List

variable {xs ys : List (Id × Place)} {m : HashMap Place}

/-! ## Places -/

/-- The sessions of the clients of a session. -/
def Session.clients (c : Session) : List (Nat × SessionConf) :=
  (c.pstClientList.map Listing.nodes).getD []

/-- The ids of a session and of its clients, with their places. -/
def placesOf (n : Nat × Session) : List (Id × Place) :=
  (n.2.conf.iSessionId, .session n.1) ::
    n.2.clients.map fun q => (q.2.iSessionId, .client n.1 q.1)

/-- The ids of all sessions, with their places. -/
def SessionSer.places (s : SessionSer) : List (Id × Place) := s.stLinkList.nodes.flatMap placesOf

/-- The hash map has exactly the sessions that are in the lists. -/
def Exact (s : SessionSer) : Prop :=
  ∀ id place, s.sessionFind id = some place ↔ (id, place) ∈ s.places

/-- The entries of the hash map for some places. -/
def entries (xs : List (Id × Place)) : List (Base.HashKey × Place) := xs.map fun x => (key x.1, x.2)

/-- A session of the service, and its clients. -/
structure Proper (n : Nat × Session) : Prop where
  root : n.2.conf.pParentSession = none
  here : ∀ l, n.2.pstClientList = some l → l.gone = false
  parent : ∀ q ∈ n.2.clients, q.2.pParentSession = some n.1
  type : ∀ q ∈ n.2.clients, q.2.iSessionType = .tcpClient

/-- The lists and the hash map fit together. -/
structure Sound (s : SessionSer) : Prop where
  here : s.stLinkList.gone = false
  hash : s.pstSessionHash.Mirror (entries s.places)
  proper : ∀ n ∈ s.stLinkList.nodes, Proper n

variable {s s' : SessionSer} {p q : Nat} {c : Session} {d : SessionConf}
variable {as bs : List (Nat × Session)} {cs ds : List (Nat × SessionConf)}
variable {l : Listing SessionConf} {id : Id} {place : Place}

@[simp] theorem clients_of_none (h : c.pstClientList = none) : c.clients = [] := by
  rw [Session.clients, h]
  rfl

@[simp] theorem clients_of_some (h : c.pstClientList = some l) : c.clients = l.nodes := by
  rw [Session.clients, h]
  rfl

theorem places_split (h : s.stLinkList.nodes = as ++ (p, c) :: bs) :
    s.places = as.flatMap placesOf ++ placesOf (p, c) ++ bs.flatMap placesOf := by
  rw [SessionSer.places, h, flatMap_append, flatMap_cons, append_assoc]

theorem mem_places : (id, place) ∈ s.places ↔ ∃ n ∈ s.stLinkList.nodes,
    (n.2.conf.iSessionId = id ∧ place = .session n.1) ∨
      ∃ q ∈ n.2.clients, q.2.iSessionId = id ∧ place = .client n.1 q.1 := by
  simp only [SessionSer.places, placesOf, mem_flatMap, mem_cons, List.mem_map,
    Prod.mk.injEq, eq_comm]

theorem mem_entries : (key id, place) ∈ entries xs ↔ (id, place) ∈ xs := by
  rw [entries, List.mem_map]
  constructor
  · rintro ⟨⟨id', place'⟩, hmem, heq⟩
    obtain ⟨hkey, rfl⟩ := Prod.mk.inj heq
    obtain rfl := key_injective hkey
    exact hmem
  · intro h
    exact ⟨_, h, rfl⟩

theorem key_notMem_entries (h : ∀ x ∈ xs, x.1 ≠ id) : key id ∉ (entries xs).map Prod.fst := by
  intro hmem
  obtain ⟨e, he, hkey⟩ := List.mem_map.mp hmem
  obtain ⟨x, hx, rfl⟩ := List.mem_map.mp he
  exact h x hx (key_injective hkey)

namespace Sound

theorem new : Sound SessionSer.new where
  here := rfl
  hash := HashMap.Mirror.empty 0 true
  proper n hn := by cases hn

theorem find_eq (hs : Sound s) (h : (id, place) ∈ s.places) : s.sessionFind id = some place :=
  hs.hash.find_eq (mem_entries.mpr h)

theorem find_eq_none (hs : Sound s) (h : ∀ x ∈ s.places, x.1 ≠ id) : s.sessionFind id = none :=
  hs.hash.find_eq_none (key_notMem_entries h)

theorem mem_of_find (hs : Sound s)
    (h : s.sessionFind id = some place) : (id, place) ∈ s.places := by
  by_contra hnot
  by_cases hid : ∃ x ∈ s.places, x.1 = id
  · obtain ⟨⟨_, place'⟩, hx, rfl⟩ := hid
    obtain rfl := some.inj ((hs.find_eq hx).symm.trans h)
    exact hnot hx
  · rw [hs.find_eq_none fun x hx heq => hid ⟨x, hx, heq⟩] at h
    cases h

theorem exact (hs : Sound s) : Exact s := fun _ _ => ⟨hs.mem_of_find, hs.find_eq⟩

end Sound

/-! ## Blocks -/

theorem session_eq (h : s.stLinkList.nodes = as ++ (p, c) :: bs) : s.session p = some c :=
  Listing.data_eq_some (by rw [h]; simp)

theorem client_eq (h : s.stLinkList.nodes = as ++ (p, c) :: bs) (hl : c.pstClientList = some l)
    (hq : l.nodes = cs ++ (q, d) :: ds) : s.client p q = some d := by
  have hdata : l.data q = some d := Listing.data_eq_some (by rw [hq]; simp)
  rw [client, session_eq h, bind_eq_bind, bind_some, hl]
  exact hdata

theorem setSession_eq (h : s.stLinkList.nodes = as ++ (p, c) :: bs) (f : Session → Session) :
    ∃ l', s.setSession p f = some { s with stLinkList := l' } ∧
      l'.nodes = as ++ (p, f c) :: bs ∧ l'.gone = s.stLinkList.gone := by
  obtain ⟨l', hmod, hnodes, hgone⟩ := Listing.exists_modify h f
  exact ⟨l', by rw [setSession, hmod]; rfl, hnodes, hgone⟩

theorem Sound.replace (hs : Sound s) (h : s.stLinkList.nodes = as ++ (p, c) :: bs)
    {l' : Listing Session} {c' : Session} (hl' : l'.nodes = as ++ (p, c') :: bs)
    (hgone : l'.gone = s.stLinkList.gone) (hc' : Proper (p, c')) (hm : m.Mirror
      (entries (as.flatMap placesOf ++ placesOf (p, c') ++ bs.flatMap placesOf))) :
    Sound ⟨l', m⟩ where
  here := hgone.trans hs.here
  hash := by rwa [places_split hl']
  proper n hn := by
    rw [hl'] at hn
    rcases mem_append.mp hn with hn | hn
    · exact hs.proper n (by rw [h]; exact mem_append_left _ hn)
    · rcases mem_cons.mp hn with rfl | hn
      · exact hc'
      · exact hs.proper n (by rw [h]; exact mem_append_right _ (mem_cons_of_mem _ hn))

theorem Sound.proper_at (hs : Sound s) (h : s.stLinkList.nodes = as ++ (p, c) :: bs) :
    Proper (p, c) := hs.proper (p, c) (by rw [h]; simp)

theorem Proper.withClients (h : Proper (p, c)) (hgone : l.gone = false)
    (hnew : ∀ x ∈ l.nodes, x ∈ c.clients ∨
      x.2.pParentSession = some p ∧ x.2.iSessionType = .tcpClient) :
    Proper (p, { c with pstClientList := some l }) where
  root := h.root
  here _ hl := some.inj hl ▸ hgone
  parent x hx := (hnew x (by rwa [clients_of_some rfl] at hx)).elim (h.parent x) And.left
  type x hx := (hnew x (by rwa [clients_of_some rfl] at hx)).elim (h.type x) And.right

theorem perm_entries :
    (entries (xs ++ (id, place) :: ys)).Perm ((key id, place) :: entries (xs ++ ys)) :=
  perm_middle.map fun x : Id × Place => (key x.1, x.2)

theorem mirror_del (hm : m.Mirror (entries (xs ++ (id, place) :: ys))) :
    (m.del (key id)).Mirror (entries (xs ++ ys)) :=
  HashMap.Mirror.delAll (show m.Mirror ([(key id, place)] ++ entries (xs ++ ys)) from
    hm.perm perm_entries)

theorem mirror_inst (hm : m.Mirror (entries (xs ++ ys))) (hid : ∀ x ∈ xs ++ ys, x.1 ≠ id)
    (place : Place) : (m.inst (key id) place).Mirror (entries (xs ++ (id, place) :: ys)) :=
  (hm.inst (key_notMem_entries hid) place).perm
    (perm_append_comm.trans perm_entries.symm)

end Honyar.Sessions
