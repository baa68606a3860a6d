import Honyar.Devices.Sound

/-!
# What each function does to the lists

When the hash map and the lists agree, a function that finds what it looks for writes to that
block alone, and one that does not find it puts a block behind the others.  Each lemma says
what the lists, the hash map, the save queue and the tables are afterwards.
-/

namespace Honyar.Devices

open Honyar.Base (HashMap)
open Option List DevList Listing DevInfo

open DevList (devKey attrKey devKey_inj attrKey_inj)

variable {s : DevList} {p : Nat} {d : Device} {as bs : List (Nat × Device)} {pcDevId : DevId}
  {l : Listing DevAttrInfo}

/-- The block of a device with the blocks before and behind it. -/
structure DevAt (s : DevList) (p : Nat) (d : Device) (as bs : List (Nat × Device)) : Prop where
  nodes : s.devs.nodes = as ++ (p, d) :: bs
  before : p ∉ as.map Prod.fst
  behind : p ∉ bs.map Prod.fst

theorem devAt_of_mem (h : (p, d) ∈ s.devs.nodes) : ∃ as bs, DevAt s p d as bs := by
  obtain ⟨as, bs, hsplit, hA, hB⟩ := s.devs.split_of_mem h
  exact ⟨as, bs, hsplit, hA, hB⟩

namespace DevAt

theorem mem (h : DevAt s p d as bs) : (p, d) ∈ s.devs.nodes := by
  rw [h.nodes]
  exact mem_append_right _ mem_cons_self

theorem device_eq (h : DevAt s p d as bs) : s.device p = some d :=
  data_eq_some h.mem

theorem attrList_eq (h : DevAt s p d as bs) : s.attrList p = d.pstDevAttrList := by
  rw [attrList, h.device_eq]
  rfl

theorem gone_eq (h : DevAt s p d as bs) : s.devs.gone = false := by
  by_contra hg
  have hnil := s.devs.gone_nil (by simpa using hg)
  rw [h.nodes] at hnil
  simp at hnil

theorem setDevice_eq (h : DevAt s p d as bs) (f : Device → Device) :
    ∃ devs, s.setDevice p f = some { s with devs := devs } ∧
      DevAt { s with devs := devs } p (f d) as bs := by
  have hp : p ∈ s.devs.nodes.map Prod.fst := List.mem_map_of_mem (f := Prod.fst) h.mem
  rw [setDevice, Listing.modify, if_pos hp]
  refine ⟨_, rfl, ?_, h.before, h.behind⟩
  change Listing.change p f s.devs.nodes = _
  rw [h.nodes, Listing.change_split h.before h.behind]

theorem goOnline_eq (h : DevAt s p d as bs) :
    ∃ devs, s.goOnline p = some { s with devs := devs } ∧ DevAt { s with devs := devs } p
      { d with stDevInfo := online s.ucInitFlag d.stDevInfo } as bs :=
  h.setDevice_eq _

theorem attrAdded_eq (h : DevAt s p d as bs) (a : Nat) :
    ∃ devs, s.attrAdded p a = some ({ s with
        devs := devs, saves := s.saves ++ [.devAdd p, .attrAdd p a] }, .noErr) ∧
      devs.nodes = as ++
        (p, { d with stDevInfo := online s.ucInitFlag d.stDevInfo }) :: bs := by
  obtain ⟨devs, honline, hat⟩ := h.goOnline_eq
  refine ⟨devs, ?_, hat.nodes⟩
  rw [attrAdded, honline]
  rfl

end DevAt

/-! ## What a call leaves

The lists change in one place, messages are put behind those of the save queue, and the hash
map follows the lists. -/

structure Outcome (s s' : DevList) (nodes : List (Nat × Device)) (saves : List SaveTask)
    (db : Tables) : Prop where
  sound : Sound s'
  nodes_eq : s'.devs.nodes = nodes
  saves_eq : s'.saves = s.saves ++ saves
  db_eq : s'.db = db
  flag_eq : s'.ucInitFlag = s.ucInitFlag

theorem perm_entries (n : Nat × Device) (as bs : List (Nat × Device)) :
    ((as ++ n :: bs).flatMap entriesOf).Perm (entriesOf n ++ (as ++ bs).flatMap entriesOf) :=
  perm_middle.flatMap_right entriesOf

theorem DevAt.mirror (hs : Sound s) (h : DevAt s p d as bs) :
    HashMap.Mirror s.hash (entriesOf (p, d) ++ (as ++ bs).flatMap entriesOf) := by
  have hm := hs.mirror
  rw [h.nodes] at hm
  exact hm.perm (perm_entries _ _ _)

theorem DevAt.sound_of (hs : Sound s) (h : DevAt s p d as bs) {s' : DevList} {d' : Device}
    (hnodes : s'.devs.nodes = as ++ (p, d') :: bs) (hl : d'.pstDevAttrList ≠ none)
    (hm : HashMap.Mirror s'.hash (entriesOf (p, d') ++ (as ++ bs).flatMap entriesOf)) :
    Sound s' := by
  refine ⟨fun n hn => ?_, ?_⟩
  · rw [hnodes, mem_append, mem_cons] at hn
    rcases hn with hn | rfl | hn
    · exact hs.listed n (by rw [h.nodes]; exact mem_append_left _ hn)
    · exact hl
    · exact hs.listed n (by
        rw [h.nodes]; exact mem_append_right _ (mem_cons_of_mem _ hn))
  · rw [hnodes]
    exact hm.perm (perm_entries _ _ _).symm

/-! ## Adding -/

theorem add_live (hs : Sound s) (h : DevAt s p d as bs) (i : DevInfo) :
    ∃ s', s.add d.acDevId i = some (s', .noErr) ∧ Outcome s s'
      (as ++ (p, { d with stDevInfo := online s.ucInitFlag i }) :: bs)
      [.devAdd p] s.db := by
  have hfind := hs.find_of_mem h.mem
  obtain ⟨devs, hset, hat⟩ := h.setDevice_eq fun d => { d with stDevInfo := i }
  obtain ⟨devs', honline, hat'⟩ := hat.goOnline_eq
  have hm := h.mirror hs
  refine ⟨{ s with devs := devs', saves := s.saves ++ [.devAdd p] }, ?_,
    h.sound_of hs hat'.nodes (hs.listed _ h.mem) hm, hat'.nodes, rfl, rfl, rfl⟩
  have hadd : s.addDevice d.acDevId i = some ({ s with devs := devs }, p) := by
    rw [addDevice]
    simp only at hfind
    simp [hfind, hset]
  rw [add, hadd]
  simp only [bind_eq_bind, bind_some, honline]
  rfl

theorem add_new (hs : Sound s) (hd : DevApart s pcDevId)
    (hno : ∀ n ∈ s.devs.nodes, n.2.acDevId ≠ pcDevId) (hgone : s.devs.gone = false) (i : DevInfo) :
    ∃ s', s.add pcDevId i = some (s', .noErr) ∧ Outcome s s'
      (s.devs.nodes ++
        [(s.devs.fresh, ⟨pcDevId, DevInfo.online s.ucInitFlag i, some .empty⟩)])
      [.devAdd s.devs.fresh] s.db := by
  have hnone := hs.find_of_not_mem hd hno
  obtain ⟨devs, hins, hnodes⟩ : ∃ devs, s.devs.tailInsert ⟨pcDevId, i, some .empty⟩ = some devs ∧
      devs.nodes = s.devs.nodes ++ [(s.devs.fresh, ⟨pcDevId, i, some .empty⟩)] := by
    rw [Listing.tailInsert, dif_neg (by simp [hgone])]
    exact ⟨_, rfl, rfl⟩
  set s' : DevList := { s with
    devs := devs, hash := s.hash.inst (devKey pcDevId) ⟨s.devs.fresh, none⟩ } with hs'
  have hat : DevAt s' s.devs.fresh ⟨pcDevId, i, some .empty⟩ s.devs.nodes [] := by
    refine ⟨hnodes, fun hmem => ?_, by simp⟩
    obtain ⟨q, hq, heq⟩ := List.mem_map.mp hmem
    exact (s.devs.lt q hq).ne heq
  have hgone' : devs.gone = false := hat.gone_eq
  have hlook : devs.find (fun d => CText.strncmpEq devIdMaxLen d.acDevId.1 pcDevId.1) =
      some (some s.devs.fresh) := by
    have hmiss : s.devs.nodes.find?
        (fun q => CText.strncmpEq devIdMaxLen q.2.acDevId.1 pcDevId.1) = none := by
      rw [find?_eq_none]
      exact fun q hq heq => hno q hq (Field.strncmpEq_iff.mp heq)
    have hself : CText.strncmpEq devIdMaxLen pcDevId.1 pcDevId.1 = true :=
      Field.strncmpEq_iff.mpr rfl
    rw [Listing.find, hgone', if_neg (by simp), hnodes, find?_append, hmiss]
    simp [hself]
  have hadd : s.addDevice pcDevId i = some (s', s.devs.fresh) := by
    have hdata : devs.data s.devs.fresh = some ⟨pcDevId, i, some .empty⟩ := hat.device_eq
    simp [addDevice, hnone, hins, hlook, hdata, hs']
  have hkey : devKey pcDevId ∉ (s.devs.nodes.flatMap entriesOf).map Prod.fst := by
    intro hmem
    obtain ⟨n, hn, heq | ⟨x, hx, heq⟩⟩ := mem_keys_entries.mp hmem
    · exact hno n hn (devKey_inj.mp heq).symm
    · exact hd n hn x hx (attrKey_eq_devKey.mp heq.symm)
  obtain ⟨devs', honline, hat'⟩ := hat.goOnline_eq
  refine ⟨{ s' with devs := devs', saves := s.saves ++ [.devAdd s.devs.fresh] }, ?_,
    ⟨fun n hn => ?_, ?_⟩, hat'.nodes, rfl, rfl, rfl⟩
  · rw [add, hadd]
    simp only [bind_eq_bind, bind_some, honline]
    rfl
  · have hnodes' : devs'.nodes = _ := hat'.nodes
    rw [hnodes', mem_append, mem_singleton] at hn
    rcases hn with hn | rfl
    · exact hs.listed n hn
    · simp
  · have hnodes' : devs'.nodes = _ := hat'.nodes
    rw [hnodes', flatMap_append]
    exact hs.mirror.inst hkey _

theorem add_gone (hs : Sound s) (hgone : s.devs.gone = true) (i : DevInfo) :
    s.add pcDevId i = none := by
  have hnil := s.devs.gone_nil hgone
  have hnone : s.find pcDevId = none :=
    hs.find_of_not_mem (by simp [DevApart, hnil]) (by simp [hnil])
  simp [add, addDevice, hnone, tailInsert, hgone]

/-! ## Adding an attribute -/

theorem attrAdd_live (hs : Sound s) (h : DevAt s p d as bs) (hl : d.pstDevAttrList = some l)
    {a : Nat} {y x : DevAttrInfo} {xs ys : List (Nat × DevAttrInfo)}
    (hsplit : l.nodes = xs ++ (a, y) :: ys) (hkey : y.acKey = x.acKey) :
    ∃ s' l', s.attrAdd d.acDevId x = some (s', .noErr) ∧ l'.nodes = xs ++ (a, x) :: ys ∧
      Outcome s s' (as ++ (p, { d with
        stDevInfo := online s.ucInitFlag d.stDevInfo, pstDevAttrList := some l' }) :: bs)
        [.devAdd p, .attrAdd p a] s.db := by
  have hmem : (a, y) ∈ l.nodes := by
    rw [hsplit]
    exact mem_append_right _ mem_cons_self
  have hfind := hs.attrFind_of_mem h.mem (Device.attrs_of_list hl ▸ hmem)
  simp only [hkey] at hfind
  obtain ⟨l', hmod, hnodes, -⟩ := exists_modify hsplit fun _ => x
  obtain ⟨devs, hset, hat⟩ := h.setDevice_eq fun d => { d with pstDevAttrList := some l' }
  obtain ⟨devs', hadded, hnodes'⟩ := hat.attrAdded_eq a
  have hentries : entriesOf (p, { d with
      stDevInfo := online s.ucInitFlag d.stDevInfo, pstDevAttrList := some l' }) =
      entriesOf (p, d) := by
    simp [entriesOf, Device.attrs, hl, hnodes, hsplit, attrEntry, hkey]
  have hm := h.mirror hs
  rw [← hentries] at hm
  refine ⟨{ s with devs := devs', saves := s.saves ++ [.devAdd p, .attrAdd p a] }, l', ?_, hnodes,
    h.sound_of hs hnodes' (by simp) hm, hnodes', rfl, rfl, rfl⟩
  simp only [attrAdd, hfind, h.attrList_eq, hl, hmod, setAttrList, hset,
    bind_eq_bind, bind_some]
  exact hadded

theorem attrAdd_new (hs : Sound s) (h : DevAt s p d as bs) (hl : d.pstDevAttrList = some l)
    {x : DevAttrInfo} (hk : AttrApart s d.acDevId x.acKey)
    (hno : ∀ y ∈ l.nodes, y.2.acKey ≠ x.acKey) (hgone : l.gone = false) :
    ∃ s' l', s.attrAdd d.acDevId x = some (s', .noErr) ∧ l'.nodes = l.nodes ++ [(l.fresh, x)] ∧
      Outcome s s' (as ++ (p, { d with
        stDevInfo := online s.ucInitFlag d.stDevInfo, pstDevAttrList := some l' }) :: bs)
        [.devAdd p, .attrAdd p l.fresh] s.db := by
  have hnone : s.attrFind d.acDevId x.acKey = none := by
    refine hs.attrFind_of_not_mem hk fun n hn hid y hy => ?_
    obtain rfl : n = (p, d) := hs.dev_inj hn h.mem hid
    rw [Device.attrs_of_list hl] at hy
    exact hno y hy
  have hfind := hs.find_of_mem h.mem
  obtain ⟨l', hins, hnodes⟩ : ∃ l', l.tailInsert x = some l' ∧
      l'.nodes = l.nodes ++ [(l.fresh, x)] := by
    rw [Listing.tailInsert, dif_neg (by simp [hgone])]
    exact ⟨_, rfl, rfl⟩
  have hmem : (l.fresh, x) ∈ l'.nodes := by simp [hnodes]
  have hgone' : l'.gone = false := by
    by_contra hg
    simp [l'.gone_nil (by simpa using hg)] at hmem
  have hlook : l'.find (fun y => CText.strncmpEq attrKeyMaxLen y.acKey.1 x.acKey.1) =
      some (some l.fresh) := by
    have hmiss : l.nodes.find?
        (fun q => CText.strncmpEq attrKeyMaxLen q.2.acKey.1 x.acKey.1) = none := by
      rw [find?_eq_none]
      exact fun q hq heq => hno q hq (Field.strncmpEq_iff.mp heq)
    have hself : CText.strncmpEq attrKeyMaxLen x.acKey.1 x.acKey.1 = true :=
      Field.strncmpEq_iff.mpr rfl
    rw [Listing.find, hgone', if_neg (by simp), hnodes, find?_append, hmiss]
    simp [hself]
  have hdata : l'.data l.fresh = some x := Listing.data_eq_some hmem
  obtain ⟨devs, hset, hat⟩ := h.setDevice_eq fun d => { d with pstDevAttrList := some l' }
  obtain ⟨devs', hadded, hnodes'⟩ := DevAt.attrAdded_eq
    (s := { s with
      devs := devs, hash := s.hash.inst (attrKey d.acDevId x.acKey) ⟨p, some l.fresh⟩ })
    ⟨hat.nodes, hat.before, hat.behind⟩ l.fresh
  have hkey : attrKey d.acDevId x.acKey ∉
      (entriesOf (p, d) ++ (as ++ bs).flatMap entriesOf).map Prod.fst := by
    rw [((perm_entries (p, d) as bs).map Prod.fst).symm.mem_iff, ← h.nodes]
    intro hmem'
    obtain ⟨n, hn, heq | ⟨y, hy, heq⟩⟩ := mem_keys_entries.mp hmem'
    · exact (hk n hn).1 (attrKey_eq_devKey.mp heq).symm
    · have heq := attrKey_eq_attrKey.mp heq
      obtain rfl : n = (p, d) := hs.dev_inj hn h.mem ((hk n hn).2 y hy heq.symm)
      rw [Device.attrs_of_list hl] at hy
      exact hno y hy (attrKey_inj.mp (attrKey_eq_attrKey.mpr heq)).symm
  have hentries : (entriesOf (p, d) ++ (as ++ bs).flatMap entriesOf ++
      [(attrKey d.acDevId x.acKey, (⟨p, some l.fresh⟩ : DevAttrPtr))]).Perm
      (entriesOf (p, { d with stDevInfo := online s.ucInitFlag d.stDevInfo
                              pstDevAttrList := some l' }) ++ (as ++ bs).flatMap entriesOf) := by
    have hself : entriesOf (p, { d with
        stDevInfo := online s.ucInitFlag d.stDevInfo, pstDevAttrList := some l' }) =
        entriesOf (p, d) ++ [(attrKey d.acDevId x.acKey, ⟨p, some l.fresh⟩)] := by
      simp [entriesOf, Device.attrs, hl, hnodes, attrEntry]
    rw [hself, append_assoc, append_assoc]
    exact List.Perm.append_left _ perm_append_comm
  refine ⟨{ s with
      devs := devs', hash := s.hash.inst (attrKey d.acDevId x.acKey) ⟨p, some l.fresh⟩
      saves := s.saves ++ [.devAdd p, .attrAdd p l.fresh] }, l', ?_, hnodes,
    h.sound_of hs hnodes' (by simp) (((h.mirror hs).inst hkey _).perm hentries), hnodes', rfl, rfl,
    rfl⟩
  simp only at hfind
  simp only [attrAdd, hnone, hfind, h.attrList_eq, hl, hins, hlook, hdata,
    setAttrList, hset, bind_eq_bind, bind_some]
  exact hadded

theorem attrAdd_none (hs : Sound s) (hd : DevApart s pcDevId)
    (hno : ∀ n ∈ s.devs.nodes, n.2.acDevId ≠ pcDevId) {x : DevAttrInfo}
    (hk : AttrApart s pcDevId x.acKey) : s.attrAdd pcDevId x = some (s, .generalErr) := by
  have hattr := hs.attrFind_of_not_mem hk fun n hn hid => absurd hid (hno n hn)
  simp only [attrAdd, hattr, hs.find_of_not_mem hd hno]

theorem attrAdd_gone (hs : Sound s) (h : DevAt s p d as bs) (hl : d.pstDevAttrList = some l)
    {x : DevAttrInfo} (hk : AttrApart s d.acDevId x.acKey) (hgone : l.gone = true) :
    s.attrAdd d.acDevId x = none := by
  have hnone : s.attrFind d.acDevId x.acKey = none := by
    refine hs.attrFind_of_not_mem hk fun n hn hid y hy => ?_
    obtain rfl : n = (p, d) := hs.dev_inj hn h.mem hid
    rw [Device.attrs_of_list hl, l.gone_nil hgone] at hy
    cases hy
  have hfind := hs.find_of_mem h.mem
  simp only at hfind
  simp [attrAdd, hnone, hfind, h.attrList_eq, hl, tailInsert, hgone]

end Honyar.Devices
