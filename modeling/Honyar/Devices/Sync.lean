import Honyar.Devices.Refines

/-!
# Bringing a list to a target

A walk over the old items looks for each among the new ones.  An item that is not there is
deleted one step late, when the walk has left it, and behind the walk the new items are added
that were never looked up.
-/

namespace Honyar.Devices

open Option List

/-! ## The walk -/

/-- What the walk keeps: the items, the flags of the new ones, and the item to be deleted next
when `iFlag` is 2.  Once an item was found `iFlag` is 1, and it stays so. -/
structure SyncState (σ : Type) where
  items : σ
  pacFoundFlag : Nat → Bool
  iFlag : Nat
  pstDel : Option Nat

section

variable {σ : Type} (next : σ → Option Nat → Option (Option Nat)) (del : σ → Nat → Option σ)
  (search : σ → Nat → Option (σ × Option Nat))

/-- The deletion that is one step late. -/
def delPending (t : SyncState σ) : Option (SyncState σ) :=
  if t.iFlag = 2 then do
    let p ← t.pstDel
    let s ← del t.items p
    return { t with items := s, iFlag := 0 }
  else some t

/-- What is done for one item. -/
def visit (p : Nat) (t : SyncState σ) : Option (SyncState σ) := do
  let t ← delPending del t
  let (s, found) ← search t.items p
  match found with
  | some i =>
    return { t with items := s, pacFoundFlag := Function.update t.pacFoundFlag i true, iFlag := 1 }
  | none =>
    if t.iFlag = 0 then return { t with items := s, pstDel := some p, iFlag := 2 }
    else return { t with items := s }

/-- The walk from an item on; it does not return when more items come than the bound allows. -/
def walk : Nat → Option Nat → SyncState σ → Option (SyncState σ)
  | 0, _, _ => none
  | n + 1, e, t => do
    match ← next t.items e with
    | none => delPending del t
    | some p => do
      let t ← visit del search p t
      walk n (some p) t

/-- The new items that were never looked up. -/
def unfound {ι : Type} (pacFoundFlag : Nat → Bool) (xs : List ι) : List ι :=
  (xs.zipIdx.filter fun x => !pacFoundFlag x.2).map Prod.fst

end

/-! ## Devices -/

namespace DevList

/-- `pstDev[i].acDevId`, where `pstDev` is the block of a device: there is one device in it. -/
def idAt (s : DevList) (p i : Nat) : Option DevId :=
  if i = 0 then (s.device p).map (·.acDevId) else none

/-- The search for a device of the list among the new ones: where its id is the one behind
`pstDev[i]`, it takes over the information of the `i`-th. -/
def searchDev (pstDevList : List (DevId × DevInfo)) (s : DevList) (p : Nat) :
    Option (DevList × Option Nat) := do
  let found ← (List.range pstDevList.length).findM? fun i => do
    let d ← s.device p
    let e ← s.idAt p i
    return CText.strncmpEq devIdMaxLen d.acDevId.1 e.1
  match found with
  | none => return (s, none)
  | some i => do
    let x ← pstDevList[i]?
    let d ← s.device p
    if d.stDevInfo = x.2 then return (s, some i)
    else do
      let s ← s.setDevice p fun d => { d with stDevInfo := x.2 }
      return (s, some i)

/-- `del` of the device in a block. -/
def delAt (s : DevList) (p : Nat) : Option DevList := do
  let d ← s.device p
  let (s, _) ← s.del d.acDevId
  return s

def addAll (pstDevList : List (DevId × DevInfo)) (s : DevList) : Option DevList :=
  pstDevList.foldlM (fun s x => (s.add x.1 x.2).map Prod.fst) s

/-- `dev_list_sync`; `iCount` is the length of the array. -/
def sync (pstDevList : List (DevId × DevInfo)) (s : DevList) : Option (DevList × Ret) :=
  if s.devs.nodes.length = 0 then do
    let s ← s.addAll pstDevList
    return (s, .noErr)
  else if pstDevList.length = 0 then do
    let (s, _) ← s.clear true
    return (s, .noErr)
  else do
    let t ← walk (fun s e => s.devs.next e) delAt (searchDev pstDevList)
      (s.devs.nodes.length + 1) none ⟨s, fun _ => false, 0, none⟩
    let s ← t.items.addAll (unfound t.pacFoundFlag pstDevList)
    return (s, .noErr)

/-! ## Attributes -/

/-- The search for an attribute of a device among the new ones, whose value it takes over. -/
def searchAttr (pstDevAttrList : List DevAttrInfo) (pstDev : Nat) (s : DevList) (a : Nat) :
    Option (DevList × Option Nat) := do
  let y ← s.attr pstDev a
  match pstDevAttrList.findIdx? fun x => CText.strncmpEq attrKeyMaxLen y.acKey.1 x.acKey.1 with
  | none => return (s, none)
  | some i => do
    let x ← pstDevAttrList[i]?
    if CText.strncmpEq attrValueMaxLen y.acValue.1 x.acValue.1 then return (s, some i)
    else do
      let l ← s.attrList pstDev
      let l ← l.modify a fun y => { y with acValue := x.acValue }
      let s ← s.setAttrList pstDev (some l)
      return (s, some i)

/-- `attr_del` of the attribute in a block. -/
def attrDelAt (pcDevId : DevId) (pstDev : Nat) (s : DevList) (a : Nat) : Option DevList := do
  let x ← s.attr pstDev a
  let (s, _) ← s.attrDel pcDevId x.acKey
  return s

def attrAddAll (pcDevId : DevId) (pstDevAttrList : List DevAttrInfo) (s : DevList) :
    Option DevList :=
  pstDevAttrList.foldlM (fun s x => (s.attrAdd pcDevId x).map Prod.fst) s

/-- `dev_list_attr_sync`; `iCount` is the length of the array. -/
def attrSync (pcDevId : DevId) (pstDevAttrList : List DevAttrInfo) (s : DevList) :
    Option (DevList × Ret) :=
  match s.find pcDevId with
  | none => some (s, .generalErr)
  | some p => do
    let l ← s.attrList p
    if l.nodes.length = 0 then do
      let s ← s.attrAddAll pcDevId pstDevAttrList
      return (s, .noErr)
    else if pstDevAttrList.length = 0 then do
      let (s, _) ← s.attrClear pcDevId true
      return (s, .noErr)
    else do
      let t ← walk (fun s e => (s.attrList p).bind fun l => l.next e) (attrDelAt pcDevId p)
        (searchAttr pstDevAttrList p) (l.nodes.length + 1) none ⟨s, fun _ => false, 0, none⟩
      let s ← t.items.attrAddAll pcDevId (unfound t.pacFoundFlag pstDevAttrList)
      return (s, .noErr)

end DevList

/-! ## A walk that deletes nothing -/

/-- The flags behind one search. -/
def mark (f : Nat → Bool) : Option Nat → Nat → Bool
  | none => f
  | some i => Function.update f i true

section

variable {σ : Type} {next : σ → Option Nat → Option (Option Nat)} {del : σ → Nat → Option σ}
  {search : σ → Nat → Option (σ × Option Nat)} {all : List Nat}
  {J : List Nat → σ → (Nat → Bool) → Prop}

theorem delPending_of_found {t : SyncState σ} (h : t.iFlag ≠ 2) : delPending del t = some t :=
  if_neg h

theorem visit_of_found {t : SyncState σ} {p : Nat} {s : σ} {r : Option Nat}
    (hsearch : search t.items p = some (s, r)) (h : t.iFlag = 1 ∨ t.iFlag = 0 ∧ r ≠ none) :
    visit del search p t = some ⟨s, mark t.pacFoundFlag r, 1, t.pstDel⟩ := by
  have hflag : t.iFlag ≠ 2 := by
    rcases h with h | ⟨h, -⟩ <;> simp [h]
  rw [visit, delPending_of_found hflag]
  simp only [bind_eq_bind, bind_some, hsearch]
  cases r with
  | some i => rfl
  | none =>
    have hone : t.iFlag = 1 := h.resolve_right fun h => h.2 rfl
    simp [hone, mark]

/-- Once an item was found, the walk goes to the end without deleting: it does to every item
what the search does. -/
theorem walk_of_found (del : σ → Nat → Option σ)
    (hnext : ∀ done todo s f, all = done ++ todo → J done s f →
      next s done.getLast? = some todo.head?)
    (hsearch : ∀ done p todo s f, all = done ++ p :: todo → J done s f →
      ∃ s' r, search s p = some (s', r) ∧ J (done ++ [p]) s' (mark f r))
    (done todo : List Nat) (hall : all = done ++ todo) (t : SyncState σ)
    (hj : J done t.items t.pacFoundFlag) (hflag : t.iFlag = 1) :
    ∃ s f, walk next del search (todo.length + 1) done.getLast? t = some ⟨s, f, 1, t.pstDel⟩ ∧
      J all s f := by
  induction todo generalizing done t with
  | nil =>
    rw [append_nil] at hall
    refine ⟨t.items, t.pacFoundFlag, ?_, hall ▸ hj⟩
    rw [walk, hnext done [] _ _ (by rw [hall, append_nil]) hj]
    simp only [bind_eq_bind, bind_some, head?_nil]
    rw [delPending_of_found (by simp [hflag]), ← hflag]
  | cons p todo ih =>
    obtain ⟨s', r, hs, hj'⟩ := hsearch done p todo _ _ hall hj
    obtain ⟨s, f, hwalk, hend⟩ := ih (done ++ [p]) (by rw [hall, append_assoc]; rfl)
      ⟨s', mark t.pacFoundFlag r, 1, t.pstDel⟩ hj' rfl
    refine ⟨s, f, ?_, hend⟩
    rw [length_cons, walk, hnext done (p :: todo) _ _ hall hj]
    simp only [bind_eq_bind, bind_some, head?_cons]
    rw [visit_of_found hs (.inl hflag), bind_some]
    rw [getLast?_append, getLast?_singleton, some_or] at hwalk
    exact hwalk

theorem walk_of_first_found (next : σ → Option Nat → Option (Option Nat))
    (del : σ → Nat → Option σ)
    (hnext : ∀ done todo s f, all = done ++ todo → J done s f →
      next s done.getLast? = some todo.head?)
    (hsearch : ∀ done p todo s f, all = done ++ p :: todo → J done s f →
      ∃ s' r, search s p = some (s', r) ∧ J (done ++ [p]) s' (mark f r))
    {p : Nat} {todo : List Nat} (hall : all = p :: todo) {s : σ} (hj : J [] s fun _ => false)
    (hfirst : ∀ x ∈ search s p, x.2 ≠ none) :
    ∃ s' f, walk next del search (all.length + 1) none ⟨s, fun _ => false, 0, none⟩ =
      some ⟨s', f, 1, none⟩ ∧ J all s' f := by
  obtain ⟨s', r, hs, hj'⟩ := hsearch [] p todo _ _ hall hj
  obtain ⟨s'', f, hwalk, hend⟩ := walk_of_found del hnext hsearch [p] todo hall
    ⟨s', mark (fun _ => false) r, 1, none⟩ hj' rfl
  refine ⟨s'', f, ?_, hend⟩
  have hn := hnext [] (p :: todo) s (fun _ => false) hall hj
  rw [getLast?_nil, head?_cons] at hn
  rw [hall, length_cons, walk]
  simp only [hn, bind_eq_bind, bind_some]
  rw [visit_of_found hs (.inr ⟨rfl, hfirst _ hs⟩), bind_some]
  exact hwalk

theorem walk_of_first_missing {s s' : σ} {p : Nat} {e : Option Nat}
    (hnext : next s none = some (some p)) (hsearch : search s p = some (s', none))
    (hnext' : next s' (some p) = some e) (hdel : del s' p = none) (n : Nat) :
    walk next del search (n + 1) none ⟨s, fun _ => false, 0, none⟩ = none := by
  have hvisit : visit del search p ⟨s, fun _ => false, 0, none⟩ =
      some ⟨s', fun _ => false, 2, some p⟩ := by
    simp [visit, delPending, hsearch]
  have hpending : delPending del ⟨s', fun _ => false, 2, some p⟩ = none := by
    simp [delPending, hdel]
  rw [walk]
  simp only [hnext, bind_eq_bind, bind_some, hvisit]
  cases n with
  | zero => rfl
  | succ n =>
    rw [walk]
    simp only [hnext', bind_eq_bind, bind_some]
    cases e with
    | none => exact hpending
    | some q => simp [visit, hpending]

end

end Honyar.Devices
