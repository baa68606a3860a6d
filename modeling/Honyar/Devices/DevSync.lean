import Honyar.Devices.Sync

/-!
# When the devices are brought to the target

The search compares the id of a device with that of the block it reads, so every device is
found at the first of the new ones and takes over its information, none is deleted, and all
new ones but the first are added.
-/

namespace Honyar.Devices

open Option List DevList

variable {s s' : DevList} {p : Nat} {d : Device} {as bs : List (Nat × Device)} {pcDevId : DevId}
  {i : DevInfo} {iRet : Ret} {xs : List (DevId × DevInfo)}

/-- The ids of the devices in the list. -/
def DevList.ids (s : DevList) : List DevId :=
  s.devs.nodes.map fun n => n.2.acDevId

/-- The ids with what is known of each device. -/
def DevList.records (s : DevList) : List (DevId × DevInfo) :=
  s.devs.nodes.map fun n => (n.2.acDevId, n.2.stDevInfo)

theorem mem_ids_iff : pcDevId ∈ s.ids ↔ s.toMap pcDevId ≠ none := by
  rw [ne_eq, toMap, Store.lookup_eq_none, ids, List.mem_map]
  push Not
  rfl

theorem Sound.nodup_ids (hs : Sound s) : s.ids.Nodup :=
  List.Nodup.map_on (fun _ hn _ hn' h => hs.dev_inj hn hn' h) (List.Nodup.of_map _ s.devs.nodup)

theorem Sound.mem_records_iff (hs : Sound s) :
    (pcDevId, i) ∈ s.records ↔ (s.toMap pcDevId).map Entry.info = some i := by
  rcases devAt_or_absent s pcDevId with ⟨p, d, as, bs, hat, rfl⟩ | hno
  · rw [toMap_of_at hs hat, records, List.mem_map]
    constructor
    · rintro ⟨n, hn, heq⟩
      obtain ⟨hid, rfl⟩ := Prod.mk.inj heq
      obtain rfl : n = (p, d) := hs.dev_inj hn hat.mem hid
      rfl
    · intro h
      exact ⟨(p, d), hat.mem, Prod.ext rfl (some.inj h)⟩
  · rw [toMap_of_absent hno, records, List.mem_map]
    constructor
    · rintro ⟨n, hn, heq⟩
      exact absurd (Prod.mk.inj heq).1 (hno n hn)
    · intro h
      cases h

theorem Sound.records_perm_iff (hs : Sound s) (hnd : (xs.map Prod.fst).Nodup) :
    s.records.Perm xs ↔
      ∀ d i, (s.toMap d).map Entry.info = some i ↔ (d, i) ∈ xs := by
  have hrec : s.records.Nodup := by
    refine List.Nodup.of_map Prod.fst ?_
    rw [records, List.map_map]
    exact hs.nodup_ids
  rw [perm_ext_iff_of_nodup hrec (List.Nodup.of_map _ hnd)]
  constructor
  · intro h d i
    rw [← hs.mem_records_iff, h]
  · rintro h ⟨d, i⟩
    rw [hs.mem_records_iff, h]

/-! ## Adding them all -/

theorem ids_of_setDevice {f : Device → Device} (hf : ∀ d, (f d).acDevId = d.acDevId)
    (h : s.setDevice p f = some s') : s'.ids = s.ids ∧ s'.devs.nodes ≠ [] := by
  simp only [setDevice, Listing.modify, bind_eq_bind] at h
  split at h
  next hp =>
    obtain rfl := some.inj h
    constructor
    · simp only [ids, Listing.change, List.map_map]
      refine map_congr_left fun n _ => ?_
      by_cases hn : n.1 = p <;> simp [hn, hf]
    · intro hnil
      simp only [Listing.change, map_eq_nil_iff] at hnil
      simp [hnil] at hp
  next => cases h

/-- What an addition does to the ids: where something is found, nothing. -/
theorem add_ids (h : s.add pcDevId i = some (s', iRet)) :
    s.find pcDevId ≠ none ∧ s'.ids = s.ids ∨ s.find pcDevId = none ∧
      s'.ids = s.ids ++ [pcDevId] := by
  rw [add] at h
  obtain ⟨⟨s₁, p⟩, hadd, h⟩ := bind_eq_some_iff.mp h
  obtain ⟨s₂, honline, h⟩ := bind_eq_some_iff.mp h
  obtain rfl : s₂.push [.devAdd p] = s' := congrArg Prod.fst (some.inj h)
  have hids : s₂.ids = s₁.ids := (ids_of_setDevice
    (f := fun d => { d with stDevInfo := DevInfo.online s₁.ucInitFlag d.stDevInfo })
    (fun _ => rfl) honline).1
  change _ ∧ s₂.ids = s.ids ∨ _ ∧ s₂.ids = s.ids ++ [pcDevId]
  rw [hids]
  rw [addDevice] at hadd
  split at hadd
  next hnone =>
    right
    refine ⟨hnone, ?_⟩
    obtain ⟨devs, hins, hadd⟩ := bind_eq_some_iff.mp hadd
    obtain ⟨found, -, hadd⟩ := bind_eq_some_iff.mp hadd
    obtain ⟨q, -, hadd⟩ := bind_eq_some_iff.mp hadd
    obtain ⟨e, -, hadd⟩ := bind_eq_some_iff.mp hadd
    obtain rfl := congrArg Prod.fst (some.inj hadd)
    rw [Listing.tailInsert] at hins
    split at hins
    · cases hins
    · obtain rfl := some.inj hins
      simp [ids]
  next q hq =>
    left
    obtain ⟨s₃, hset, hadd⟩ := bind_eq_some_iff.mp hadd
    obtain rfl := congrArg Prod.fst (some.inj hadd)
    exact ⟨by simp [hq], (ids_of_setDevice (f := fun d => { d with stDevInfo := i })
      (fun _ => rfl) hset).1⟩

theorem addAll_cons {x : DevId × DevInfo} :
    s.addAll (x :: xs) = some s' ↔
      ∃ s₁ iRet, s.add x.1 x.2 = some (s₁, iRet) ∧ s₁.addAll xs = some s' := by
  simp only [addAll, foldlM_cons, bind_eq_bind, bind_eq_some_iff,
    map_eq_some_iff, Prod.exists]
  constructor
  · rintro ⟨_, ⟨s₁, r, hadd, rfl⟩, hrest⟩
    exact ⟨s₁, r, hadd, hrest⟩
  · rintro ⟨s₁, r, hadd, hrest⟩
    exact ⟨s₁, ⟨s₁, r, hadd, rfl⟩, hrest⟩

theorem mem_ids_addAll (h : s.addAll xs = some s') (hd : pcDevId ∈ s'.ids) :
    pcDevId ∈ s.ids ∨ pcDevId ∈ xs.map Prod.fst := by
  induction xs generalizing s with
  | nil =>
    obtain rfl := some.inj h
    exact .inl hd
  | cons x xs ih =>
    obtain ⟨s₁, r, hadd, hrest⟩ := addAll_cons.mp h
    rw [map_cons, mem_cons]
    rcases ih hrest with hmem | hmem
    · rcases add_ids hadd with ⟨-, hids⟩ | ⟨-, hids⟩
      · exact .inl (hids ▸ hmem)
      · rw [hids, mem_append, mem_singleton] at hmem
        exact hmem.imp_right .inl
    · exact .inr (.inr hmem)

theorem find_of_not_apart (hs : Sound s) (h : ¬ DevApart s pcDevId) :
    s.find pcDevId ≠ none ∧ pcDevId ∉ s.ids := by
  simp only [DevApart, not_forall, not_not] at h
  obtain ⟨n, hn, x, hx, heq⟩ := h
  constructor
  · have hkey := hs.mirror.find_eq (mem_entries_attr hn hx)
    rw [attrKey_eq_devKey.mpr heq] at hkey
    simp [find, hkey]
  · intro hmem
    obtain ⟨n', hn', rfl⟩ := mem_map.mp hmem
    exact hs.attr_ne_dev hn hx hn' heq

theorem addAll_safe (hs : Sound s) (h : xs = [] ∨ s.devs.gone = false ∧
    ∀ x ∈ xs, DevApart s x.1) :
    ∃ s', s.addAll xs = some s' ∧ Sound s' ∧
      s'.toMap = xs.foldl (fun m x => m.add s.ucInitFlag x.1 x.2) s.toMap := by
  induction xs generalizing s with
  | nil => exact ⟨s, rfl, hs, rfl⟩
  | cons x xs ih =>
    obtain ⟨hgone, hapart⟩ := h.resolve_left (by simp)
    obtain ⟨hx, hxs⟩ := forall_mem_cons.mp hapart
    obtain ⟨s₁, hadd, hs₁, hflag, hmap, hgone₁, hapart₁⟩ := add_safe hs hx hgone x.2
    obtain ⟨s', hrest, hs', hmap'⟩ :=
      ih hs₁ (.inr ⟨hgone₁, fun y hy => (hapart₁ y.1).mpr (hxs y hy)⟩)
    refine ⟨s', addAll_cons.mpr ⟨s₁, .noErr, hadd, hrest⟩, hs', ?_⟩
    rw [hmap', hmap, hflag, foldl_cons]

/-- They come to be there only when no key is in their way and there is a block to put them
behind. -/
theorem addAll_only (hs : Sound s) (hnd : (xs.map Prod.fst).Nodup) (h : s.addAll xs = some s')
    (hall : ∀ x ∈ xs, x.1 ∈ s'.ids) :
    xs = [] ∨ s.devs.gone = false ∧ ∀ x ∈ xs, DevApart s x.1 := by
  induction xs generalizing s with
  | nil => exact .inl rfl
  | cons x xs ih =>
    obtain ⟨s₁, r, hadd, hrest⟩ := addAll_cons.mp h
    obtain ⟨hx, hxs⟩ := forall_mem_cons.mp hall
    obtain ⟨hnot, hnd'⟩ := nodup_cons.mp hnd
    have hgone : s.devs.gone = false := by
      by_contra hg
      rw [add_gone hs (by simpa using hg)] at hadd
      cases hadd
    have hapart : DevApart s x.1 := by
      by_contra hno
      obtain ⟨hfound, hmissing⟩ := find_of_not_apart hs hno
      rcases add_ids hadd with ⟨-, hids⟩ | ⟨hnone, -⟩
      · rcases mem_ids_addAll hrest hx with hmem | hmem
        · exact hmissing (hids ▸ hmem)
        · exact hnot hmem
      · exact hfound hnone
    obtain ⟨s₁', hadd', hs₁, -, -, -, hapart₁⟩ := add_safe hs hapart hgone x.2
    rw [hadd', some.injEq, Prod.mk.injEq] at hadd
    obtain ⟨rfl, -⟩ := hadd
    refine .inr ⟨hgone, forall_mem_cons.mpr ⟨hapart, ?_⟩⟩
    rcases ih hs₁ hnd' hrest hxs with rfl | ⟨-, hall'⟩
    · simp
    · exact fun y hy => (hapart₁ y.1).mp (hall' y hy)

theorem foldl_add (hnd : (xs.map Prod.fst).Nodup) (b : Bool) (m : DevMap) :
    (∀ x ∈ xs, ((xs.foldl (fun m x => m.add b x.1 x.2) m) x.1).map Entry.info =
      some (x.2.online b)) ∧
    ∀ d ∉ xs.map Prod.fst, (xs.foldl (fun m x => m.add b x.1 x.2) m) d = m d := by
  induction xs generalizing m with
  | nil => simp
  | cons x xs ih =>
    obtain ⟨hnot, hnd'⟩ := nodup_cons.mp hnd
    obtain ⟨hin, hout⟩ := ih hnd' (m.add b x.1 x.2)
    simp only [foldl_cons]
    constructor
    · intro y hy
      rcases mem_cons.mp hy with rfl | hy
      · rw [hout _ hnot, DevMap.add, Function.update_self]
        rfl
      · exact hin y hy
    · intro d hd
      rw [map_cons, mem_cons, not_or] at hd
      rw [hout d hd.2, DevMap.add, Function.update_of_ne hd.1]

/-! ## The walk -/

theorem unfound_eq {ι : Type} {ys : List ι} {f : Nat → Bool} {g : ι → Bool}
    (h : ∀ i y, ys[i]? = some y → f i = g y) : unfound f ys = ys.filter fun y => !g y := by
  have hfilter : (ys.zipIdx.filter fun x => !f x.2) = ys.zipIdx.filter fun x => !g x.1 := by
    refine filter_congr fun x hx => ?_
    rw [h x.2 x.1 (mem_zipIdx_iff_getElem?.mp hx)]
  have hmap := filter_map (f := Prod.fst) (p := fun y => !g y) (l := ys.zipIdx)
  rw [zipIdx_map_fst] at hmap
  rw [unfound, hfilter, hmap]
  rfl

theorem searchDev_eq (x : DevId × DevInfo) (xs : List (DevId × DevInfo))
    (h : DevAt s p d as bs) :
    ∃ devs, s.searchDev (x :: xs) p = some ({ s with devs := devs }, some 0) ∧
      devs.nodes = Listing.change p (fun d => { d with stDevInfo := x.2 }) s.devs.nodes := by
  have hfound : (range (x :: xs).length).findM? (fun i => do
      let d ← s.device p
      let e ← s.idAt p i
      return CText.strncmpEq devIdMaxLen d.acDevId.1 e.1) = some (some 0) := by
    rw [length_cons, range_succ_eq_map, findM?]
    have hself : CText.strncmpEq devIdMaxLen d.acDevId.1 d.acDevId.1 = true :=
      Field.strncmpEq_iff.mpr rfl
    simp [h.device_eq, idAt, hself]
  rw [searchDev, hfound]
  simp only [bind_eq_bind, bind_some, h.device_eq, getElem?_cons_zero]
  by_cases hsame : d.stDevInfo = x.2
  · refine ⟨s.devs, by rw [if_pos hsame]; rfl, ?_⟩
    rw [Listing.change_self h.mem (by rw [← hsame])]
  · obtain ⟨devs, hset, hat⟩ := h.setDevice_eq fun d => { d with stDevInfo := x.2 }
    refine ⟨devs, by rw [if_neg hsame, hset]; rfl, ?_⟩
    have hnodes : devs.nodes = _ := hat.nodes
    rw [hnodes, h.nodes, Listing.change_split h.before h.behind]

/-- What the list is when the devices of `done` were visited. -/
structure Visited (s : DevList) (i : DevInfo) (done : List Nat) (s' : DevList) (f : Nat → Bool) :
    Prop where
  rest : s'.hash = s.hash ∧ s'.ucInitFlag = s.ucInitFlag
  nodes : s'.devs.nodes =
    s.devs.nodes.map fun n => if n.1 ∈ done then (n.1, { n.2 with stDevInfo := i }) else n
  flags : ∀ k, f k = true ↔ k = 0 ∧ done ≠ []

theorem Visited.addrs {done : List Nat} {f : Nat → Bool} (h : Visited s i done s' f) :
    s'.devs.nodes.map Prod.fst = s.devs.nodes.map Prod.fst := by
  rw [h.nodes, List.map_map]
  refine map_congr_left fun n _ => ?_
  by_cases hn : n.1 ∈ done <;> simp [hn]

/-- The walk gives the information of the first new device to every device. -/
theorem walk_devs (hne : s.devs.nodes ≠ []) (x : DevId × DevInfo)
    (xs : List (DevId × DevInfo)) :
    ∃ s' f, walk (fun s e => s.devs.next e) DevList.delAt (DevList.searchDev (x :: xs))
        (s.devs.nodes.length + 1) none ⟨s, fun _ => false, 0, none⟩ = some ⟨s', f, 1, none⟩ ∧
      s'.devs.nodes = s.devs.nodes.map (fun n => (n.1, { n.2 with stDevInfo := x.2 })) ∧
      s'.hash = s.hash ∧ s'.ucInitFlag = s.ucInitFlag ∧ ∀ k, f k = true ↔ k = 0 := by
  obtain ⟨⟨p, d⟩, ns, hcons⟩ := exists_cons_of_ne_nil hne
  have hall : s.devs.nodes.map Prod.fst = p :: ns.map Prod.fst := by rw [hcons, map_cons]
  have hnext (done todo : List Nat) (s' : DevList) (f : Nat → Bool)
      (hsplit : s.devs.nodes.map Prod.fst = done ++ todo) (hv : Visited s x.2 done s' f) :
      s'.devs.next done.getLast? = some todo.head? := by
    refine Listing.next_eq (by rw [hv.addrs, hsplit]) ?_
    by_contra hg
    have hnil := congrArg (List.map Prod.fst) (s'.devs.gone_nil (by simpa using hg))
    rw [hv.addrs, hall] at hnil
    cases hnil
  have hsearch (done : List Nat) (q : Nat) (todo : List Nat) (s' : DevList) (f : Nat → Bool)
      (hsplit : s.devs.nodes.map Prod.fst = done ++ q :: todo) (hv : Visited s x.2 done s' f) :
      ∃ s'' r, s'.searchDev (x :: xs) q = some (s'', r) ∧
        Visited s x.2 (done ++ [q]) s'' (mark f r) := by
    have hq : q ∈ s'.devs.nodes.map Prod.fst := by
      rw [hv.addrs, hsplit]
      exact mem_append_right _ mem_cons_self
    obtain ⟨⟨q, e⟩, hmem, rfl⟩ := List.mem_map.mp hq
    obtain ⟨as, bs, hat⟩ := devAt_of_mem hmem
    obtain ⟨devs, hfound, hnodes⟩ := searchDev_eq x xs hat
    refine ⟨_, some 0, hfound, hv.rest, ?_, fun k => ?_⟩
    · change devs.nodes = _
      rw [hnodes, hv.nodes, Listing.change, List.map_map]
      refine map_congr_left fun n _ => ?_
      by_cases hd : n.1 ∈ done
      · have hd' : n.1 ∈ done ++ [q] := mem_append_left _ hd
        simp only [Function.comp_apply, if_pos hd, if_pos hd']
        by_cases hn : n.1 = q <;> simp [hn]
      · by_cases hn : n.1 = q
        · have hq' : q ∉ done := hn ▸ hd
          simp [hn, hq']
        · simp [hn, hd]
    · rw [mark]
      by_cases hk : k = 0
      · simp [hk]
      · rw [Function.update_of_ne hk, hv.flags k]
        simp [hk]
  have hstart : Visited s x.2 [] s fun _ => false :=
    ⟨⟨rfl, rfl⟩, by simp, by simp⟩
  obtain ⟨as, bs, hat⟩ := devAt_of_mem (s := s) (p := p) (d := d) (by simp [hcons])
  obtain ⟨devs, hfound, -⟩ := searchDev_eq x xs hat
  obtain ⟨s', f, hwalk, hv⟩ := walk_of_first_found (fun s e => s.devs.next e) delAt hnext
    hsearch hall hstart
    (by rintro y hy; rw [hfound, mem_some_iff] at hy; simp [← hy])
  rw [length_map] at hwalk
  refine ⟨s', f, hwalk, ?_, hv.rest.1, hv.rest.2, fun k => ?_⟩
  · rw [hv.nodes]
    refine map_congr_left fun n hn => ?_
    rw [if_pos (List.mem_map_of_mem hn)]
  · rw [hv.flags k, hall]
    simp

theorem withInfo (hs : Sound s)
    (hnodes : s'.devs.nodes = s.devs.nodes.map fun n => (n.1, { n.2 with stDevInfo := i }))
    (hhash : s'.hash = s.hash) :
    Sound s' ∧ (∀ e, s'.toMap e = (s.toMap e).map fun x => { x with info := i }) ∧
      ∀ e, DevApart s' e ↔ DevApart s e := by
  refine ⟨⟨?_, ?_⟩, fun e => ?_, fun e => ?_⟩
  · rw [hnodes, List.forall_mem_map]
    exact hs.listed
  · have hentries : (s'.devs.nodes.flatMap entriesOf) = s.devs.nodes.flatMap entriesOf := by
      rw [hnodes, flatMap_map]
      rfl
    rw [hentries, hhash]
    exact hs.mirror
  · rw [toMap, toMap, Store.lookup, Store.lookup, hnodes, find?_map,
      Option.map_map, Option.map_map]
    rfl
  · rw [DevApart, DevApart, hnodes, List.forall_mem_map]
    rfl

/-! ## The whole of it -/

/-- The list is brought to the target: the call returns, having touched no block that was given
back and read nothing behind the array, and the records are those of the target. -/
def Synced (pstDevList : List (DevId × DevInfo)) (s : DevList) : Prop :=
  ∃ s', s.sync pstDevList = some (s', .noErr) ∧ s'.records.Perm pstDevList

/-- What an addition writes is what it was given. -/
def Stays (s : DevList) (i : DevInfo) : Prop :=
  i.online s.ucInitFlag = i

/-- With nothing as the target the list must be fit to be cleared.  An empty list takes devices
that are online, or any while it is read from the database, unless it was cleared before.
Otherwise the first of the new devices must be there already, every device among the new ones,
and each of the others must stay as it is given and have an id that is no attribute's key. -/
def SyncMeets (s : DevList) : List (DevId × DevInfo) → Prop
  | [] => Fresh s
  | x :: xs =>
    (s.devs.nodes = [] → s.devs.gone = false ∧ ∀ y ∈ x :: xs, Stays s y.2) ∧
    (s.devs.nodes ≠ [] → x.1 ∈ s.ids ∧ (∀ d ∈ s.ids, d ∈ (x :: xs).map Prod.fst) ∧
      ∀ y ∈ xs, Stays s y.2 ∧ DevApart s y.1)

instance (s : DevList) (i : DevInfo) : Decidable (Stays s i) :=
  inferInstanceAs (Decidable (_ = _))

instance (s : DevList) : (xs : List (DevId × DevInfo)) → Decidable (SyncMeets s xs)
  | [] => inferInstanceAs (Decidable (Fresh s))
  | x :: xs =>
    have : Decidable (s.devs.nodes = []) := decidable_of_iff _ List.isEmpty_iff
    inferInstanceAs (Decidable ((s.devs.nodes = [] → s.devs.gone = false ∧
      ∀ y ∈ x :: xs, Stays s y.2) ∧ (s.devs.nodes ≠ [] → x.1 ∈ s.ids ∧
        (∀ d ∈ s.ids, d ∈ (x :: xs).map Prod.fst) ∧ ∀ y ∈ xs, Stays s y.2 ∧ DevApart s y.1)))

theorem synced_nil_iff (hs : Sound s) : Synced [] s ↔ Fresh s := by
  by_cases hnil : s.devs.nodes = []
  · have hfresh : Fresh s := by simp [Fresh, hnil]
    refine ⟨fun _ => hfresh, fun _ => ⟨s, ?_, ?_⟩⟩
    · simp [sync, hnil, addAll]
    · simp [records, hnil]
  · have hsync : s.sync [] = (s.clear true).map fun x => (x.1, Ret.noErr) := by
      simp only [sync, length_eq_zero_iff, hnil, if_false, if_true]
      cases s.clear true <;> rfl
    constructor
    · rintro ⟨s', h, -⟩
      by_contra hno
      rw [hsync, clear_of_not_fresh hs hno] at h
      cases h
    · intro hfresh
      have hgone : s.devs.gone = false := by
        by_contra hg
        exact hnil (s.devs.gone_nil (by simpa using hg))
      obtain ⟨s', db, hclear, hout, -⟩ := clear_eq hs hgone hfresh true
      exact ⟨s', by rw [hsync, hclear]; rfl, by simp [records, hout.nodes_eq]⟩

theorem addAll_records (hs : Sound s) (ws ys : List (DevId × DevInfo))
    (hnd : ((ws ++ ys).map Prod.fst).Nodup) (hstay : ∀ y ∈ ys, Stays s y.2)
    (hold : ∀ d i, (s.toMap d).map Entry.info = some i → d ∉ ys.map Prod.fst → (d, i) ∈ ws)
    (hnew : ∀ x ∈ ws, (s.toMap x.1).map Entry.info = some x.2)
    (h : ys = [] ∨ s.devs.gone = false ∧ ∀ y ∈ ys, DevApart s y.1) :
    ∃ s', s.addAll ys = some s' ∧ s'.records.Perm (ws ++ ys) := by
  obtain ⟨s', hadd, hs', hmap⟩ := addAll_safe hs h
  rw [map_append, nodup_append] at hnd
  obtain ⟨hndx, hndy, hdisj⟩ := hnd
  obtain ⟨hin, hout⟩ := foldl_add hndy s.ucInitFlag s.toMap
  rw [← hmap] at hin hout
  refine ⟨s', hadd, (hs'.records_perm_iff ?_).mpr fun d i => ?_⟩
  · rw [map_append, nodup_append]
    exact ⟨hndx, hndy, hdisj⟩
  by_cases hd : d ∈ ys.map Prod.fst
  · obtain ⟨y, hy, rfl⟩ := mem_map.mp hd
    have hinfo := hin y hy
    rw [hstay y hy] at hinfo
    rw [hinfo, some.injEq, mem_append]
    constructor
    · rintro rfl
      exact .inr hy
    · rintro (hx | hy')
      · exact absurd rfl (hdisj y.1 (mem_map.mpr ⟨_, hx, rfl⟩) y.1 hd)
      · exact congrArg Prod.snd (inj_on_of_nodup_map hndy hy hy' rfl)
  · rw [hout d hd, mem_append]
    constructor
    · exact fun hi => .inl (hold d i hi hd)
    · rintro (hx | hy)
      · exact hnew _ hx
      · exact absurd (mem_map_of_mem (f := Prod.fst) hy) hd

theorem addAll_records_only (hs : Sound s) (ws ys : List (DevId × DevInfo))
    (hnd : ((ws ++ ys).map Prod.fst).Nodup) (h : s.addAll ys = some s')
    (hrec : s'.records.Perm (ws ++ ys)) :
    (ys = [] ∨ s.devs.gone = false ∧ ∀ y ∈ ys, DevApart s y.1) ∧ (∀ y ∈ ys, Stays s y.2) ∧
      (∀ d ∈ s.ids, d ∈ (ws ++ ys).map Prod.fst) ∧ ∀ x ∈ ws, x.1 ∈ s.ids := by
  have hids : s'.ids.Perm ((ws ++ ys).map Prod.fst) := by
    have hmap := hrec.map Prod.fst
    rwa [records, List.map_map] at hmap
  have hnd' := hnd
  rw [map_append, nodup_append] at hnd'
  obtain ⟨-, hndy, hdisj⟩ := hnd'
  have hapart := addAll_only hs hndy h fun y hy =>
    hids.mem_iff.mpr (List.mem_map_of_mem (mem_append_right _ hy))
  obtain ⟨s'', hadd, hs', hmap⟩ := addAll_safe hs hapart
  obtain rfl : s'' = s' := some.inj (hadd.symm.trans h)
  obtain ⟨hin, hout⟩ := foldl_add hndy s.ucInitFlag s.toMap
  rw [← hmap] at hin hout
  have hrecords := (hs'.records_perm_iff hnd).mp hrec
  refine ⟨hapart, fun y hy => ?_, fun d hd => ?_, fun x hx => ?_⟩
  · have hinfo := hin y hy
    rw [(hrecords y.1 y.2).mpr (mem_append_right _ hy)] at hinfo
    exact (some.inj hinfo).symm
  · by_cases hdy : d ∈ ys.map Prod.fst
    · rw [map_append]
      exact mem_append_right _ hdy
    · refine hids.mem_iff.mp (mem_ids_iff.mpr ?_)
      rw [hout d hdy]
      exact mem_ids_iff.mp hd
  · have hxs := List.mem_map_of_mem (f := Prod.fst) hx
    have hxy : x.1 ∉ ys.map Prod.fst := fun hy => hdisj x.1 hxs x.1 hy rfl
    rw [mem_ids_iff, ← hout x.1 hxy, ← mem_ids_iff]
    exact hids.mem_iff.mpr (List.mem_map_of_mem (mem_append_left _ hx))

theorem synced_empty_iff (hs : Sound s) (hnil : s.devs.nodes = []) {x : DevId × DevInfo}
    (hnd : ((x :: xs).map Prod.fst).Nodup) :
    Synced (x :: xs) s ↔ s.devs.gone = false ∧ ∀ y ∈ x :: xs, Stays s y.2 := by
  have hsync : s.sync (x :: xs) = (s.addAll (x :: xs)).map fun s => (s, Ret.noErr) := by
    simp only [sync, hnil, length_nil, if_true]
    cases s.addAll (x :: xs) <;> rfl
  have hempty : s.toMap = fun _ => none := by
    funext d
    simp [toMap, Store.lookup, hnil]
  constructor
  · rintro ⟨s', h, hrec⟩
    rw [hsync, map_eq_some_iff] at h
    obtain ⟨_, hadd, heq⟩ := h
    obtain rfl := congrArg Prod.fst heq
    obtain ⟨hapart, hstay, -, -⟩ := addAll_records_only hs [] _ hnd hadd hrec
    exact ⟨(hapart.resolve_left (by simp)).1, hstay⟩
  · rintro ⟨hgone, hstay⟩
    obtain ⟨s', hadd, hrec⟩ := addAll_records hs [] _ hnd hstay (by simp [hempty]) (by simp)
      (.inr ⟨hgone, fun y _ => by simp [DevApart, hnil]⟩)
    exact ⟨s', by rw [hsync, hadd, map_some], hrec⟩

/-- With devices on both sides all take the information of the first new one. -/
theorem synced_cons_iff (hs : Sound s) (hne : s.devs.nodes ≠ []) {x : DevId × DevInfo}
    (hnd : ((x :: xs).map Prod.fst).Nodup) :
    Synced (x :: xs) s ↔ x.1 ∈ s.ids ∧ (∀ d ∈ s.ids, d ∈ (x :: xs).map Prod.fst) ∧
      ∀ y ∈ xs, Stays s y.2 ∧ DevApart s y.1 := by
  obtain ⟨s₁, f, hwalk, hnodes, hhash, hflag, hf⟩ := walk_devs hne x xs
  obtain ⟨hs₁, hmap, hapart⟩ := withInfo hs hnodes hhash
  have hunfound : unfound f (x :: xs) = xs := by
    have hnot := (nodup_cons.mp hnd).1
    rw [unfound_eq (g := fun y => decide (y.1 = x.1)), filter_cons_of_neg (by simp),
      filter_eq_self]
    · intro y hy
      have hne : y.1 ≠ x.1 := fun heq => hnot (heq ▸ mem_map_of_mem hy)
      simpa using hne
    · intro k y hy
      rw [Bool.eq_iff_iff, hf, decide_eq_true_iff]
      cases k with
      | zero =>
        obtain rfl : x = y := by simpa using hy
        simp
      | succ k =>
        have hmem : y ∈ xs := mem_of_getElem? (by simpa using hy)
        have hne : y.1 ≠ x.1 := fun heq => hnot (heq ▸ mem_map_of_mem hmem)
        simp [hne]
  have hsync : s.sync (x :: xs) = (s₁.addAll xs).map fun s => (s, Ret.noErr) := by
    simp only [sync, length_eq_zero_iff, hne, cons_ne_nil, if_false, hwalk,
      bind_eq_bind, bind_some, hunfound]
    cases s₁.addAll xs <;> rfl
  have hids : s₁.ids = s.ids := by
    simp [ids, hnodes]
  have hgone : s₁.devs.gone = false := by
    by_contra hg
    have hnil := s₁.devs.gone_nil (by simpa using hg)
    rw [hnodes, map_eq_nil_iff] at hnil
    exact hne hnil
  have hstays (i : DevInfo) : Stays s₁ i ↔ Stays s i := by
    rw [Stays, Stays, hflag]
  constructor
  · rintro ⟨s', h, hrec⟩
    rw [hsync, map_eq_some_iff] at h
    obtain ⟨_, hadd, heq⟩ := h
    obtain rfl := congrArg Prod.fst heq
    obtain ⟨hall, hstay, hold, hnew⟩ := addAll_records_only hs₁ [x] xs hnd hadd hrec
    rw [hids] at hold hnew
    refine ⟨hnew x (by simp), hold, fun y hy => ⟨(hstays y.2).mp (hstay y hy), ?_⟩⟩
    rcases hall with rfl | ⟨-, hall⟩
    · cases hy
    · exact (hapart y.1).mp (hall y hy)
  · rintro ⟨hx, hold, hnew⟩
    have hkept (d : DevId) (i : DevInfo) (hi : (s₁.toMap d).map Entry.info = some i)
        (hd : d ∉ xs.map Prod.fst) : (d, i) ∈ [x] := by
      rw [hmap, Option.map_map, map_eq_some_iff] at hi
      obtain ⟨e, he, hei⟩ := hi
      have hmem := hold d (mem_ids_iff.mpr (by simp [he]))
      rw [map_cons, mem_cons] at hmem
      rw [mem_singleton, hmem.resolve_right hd, ← hei]
      rfl
    have hfirst (y : DevId × DevInfo) (hy : y ∈ [x]) :
        (s₁.toMap y.1).map Entry.info = some y.2 := by
      obtain rfl := mem_singleton.mp hy
      obtain ⟨e, he⟩ := ne_none_iff_exists'.mp (mem_ids_iff.mp hx)
      rw [hmap, he]
      rfl
    obtain ⟨s', hadd, hrec⟩ := addAll_records hs₁ [x] xs hnd
      (fun y hy => (hstays y.2).mpr (hnew y hy).1) hkept hfirst
      (.inr ⟨hgone, fun y hy => (hapart y.1).mpr (hnew y hy).2⟩)
    exact ⟨s', by rw [hsync, hadd, map_some], hrec⟩

theorem synced_iff (hs : Sound s) (hnd : (xs.map Prod.fst).Nodup) :
    Synced xs s ↔ SyncMeets s xs := by
  cases xs with
  | nil => exact synced_nil_iff hs
  | cons x xs =>
    by_cases hnil : s.devs.nodes = []
    · rw [synced_empty_iff hs hnil hnd, SyncMeets]
      simp [hnil]
    · rw [synced_cons_iff hs hnil hnd, SyncMeets]
      simp [hnil]

end Honyar.Devices
