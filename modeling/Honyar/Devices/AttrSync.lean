import Honyar.Devices.DevSync

/-!
# When the attributes of a device are brought to the target

Every attribute that is among the new ones takes over its value.  One that is not is deleted
only when none before it was found, and that deletion reads what it has just given back.
Behind the walk the attributes not looked up are added, as far as their keys are free.
-/

namespace Honyar.Devices

open DevList (attrKey_inj)
open Option List DevList Listing Device DevAttrInfo

variable {s s' : DevList} {p a : Nat} {d d' : Device} {as bs : List (Nat × Device)}
  {pcDevId : DevId} {l l' : Listing DevAttrInfo} {x y : DevAttrInfo} {iRet : Ret}
  {xs ys : List DevAttrInfo}

variable {zs : List (Nat × DevAttrInfo)}

/-! ## One device changed -/

theorem attrApart_of_replaced (h : DevAt s p d as bs) (h' : DevAt s' p d' as bs)
    (hid : d'.acDevId = d.acDevId) {k : AttrKey} :
    AttrApart s' d.acDevId k ↔ AttrApart s d.acDevId k := by
  rw [AttrApart, AttrApart, h.nodes, h'.nodes, forall_mem_append, forall_mem_append,
    forall_mem_cons, forall_mem_cons]
  simp [hid]

theorem toMap_of_ne (hs : Sound s) (h : DevAt s p d as bs) (h' : DevAt s' p d' as bs)
    (hid : d'.acDevId = d.acDevId) {e : DevId} (he : e ≠ d.acDevId) : s'.toMap e = s.toMap e := by
  rw [toMap_of_replaced hs h hid h'.nodes, Function.update_of_ne he]

theorem attrDel_of_mem (hs : Sound s) (h : DevAt s p d as bs) (hl : d.pstDevAttrList = some l)
    (hy : (a, y) ∈ l.nodes) : s.attrDel d.acDevId y.acKey = none := by
  have hfind := hs.attrFind_of_mem h.mem (attrs_of_list hl ▸ hy)
  obtain ⟨l', hdel, hnodes⟩ : ∃ l', l.del a = some l' ∧
      l'.nodes = l.nodes.eraseP (fun q => decide (q.1 = a)) := by
    have ha : a ∈ l.nodes.map Prod.fst := List.mem_map_of_mem (f := Prod.fst) hy
    rw [Listing.del, dif_pos ha]
    exact ⟨_, rfl, rfl⟩
  have hgone : l'.data a = none := by
    refine Listing.data_eq_none ?_
    obtain ⟨zs, ws, hsplit, hA, hB⟩ := l.split_of_mem hy
    rw [hnodes, hsplit, Listing.eraseP_split hA, map_append, mem_append]
    exact fun hm => hm.elim hA hB
  obtain ⟨devs, hset, hat⟩ := h.setDevice_eq fun d => { d with pstDevAttrList := some l' }
  have hattr : attr { s with devs := devs } p a = none := by
    rw [attr, hat.attrList_eq]
    exact hgone
  simp only at hfind
  simp [attrDel, hfind, h.attrList_eq, hl, hdel, setAttrList, hset, hat.device_eq,
    hattr]

/-! ## Adding them all -/

theorem setDevice_nodes {f : Device → Device} (h : s.setDevice p f = some s') :
    ∃ d as bs, DevAt s p d as bs ∧ DevAt s' p (f d) as bs := by
  have hp : p ∈ s.devs.nodes.map Prod.fst := by
    by_contra hno
    simp [setDevice, Listing.modify, hno] at h
  obtain ⟨⟨q, d⟩, hmem, rfl⟩ := List.mem_map.mp hp
  obtain ⟨as, bs, hat⟩ := devAt_of_mem hmem
  obtain ⟨devs, hset, hat'⟩ := hat.setDevice_eq f
  obtain rfl := some.inj (hset.symm.trans h)
  exact ⟨d, as, bs, hat, hat'⟩

/-- What an addition can do to an attribute list: the attribute is written over another one, or
put behind the others.  Where an entry was found, it is written in the device of that entry. -/
theorem attrAdd_cases (h : s.attrAdd pcDevId x = some (s', iRet)) :
    s' = s ∧ s.attrFind pcDevId x.acKey = none ∨
      ∃ p d d' as bs, DevAt s p d as bs ∧ DevAt s' p d' as bs ∧ d'.acDevId = d.acDevId ∧
        (∀ z ∈ d'.attrs, z.2 ∈ d.attrs.map Prod.snd ∨ z.2 = x) ∧
        ∀ e ∈ s.attrFind pcDevId x.acKey, e.pstDev = p := by
  have hadded {s₁ s₂ s₃ : DevList} {q b : Nat} {k k' : Listing DevAttrInfo}
      (hl : s.attrList q = some k) (hset : s.setAttrList q (some k') = some s₁)
      (hadd : s₂.attrAdded q b = some (s₃, iRet)) (hdevs : s₂.devs = s₁.devs)
      (hk : ∀ z ∈ k'.nodes, z.2 ∈ k.nodes.map Prod.snd ∨ z.2 = x) :
      ∃ d d' as bs, DevAt s q d as bs ∧ DevAt s₃ q d' as bs ∧ d'.acDevId = d.acDevId ∧
        ∀ z ∈ d'.attrs, z.2 ∈ d.attrs.map Prod.snd ∨ z.2 = x := by
    obtain ⟨d, as, bs, hat, hat₁⟩ := setDevice_nodes hset
    have hat₂ : DevAt s₂ q { d with pstDevAttrList := some k' } as bs :=
      ⟨by rw [hdevs]; exact hat₁.nodes, hat₁.before, hat₁.behind⟩
    obtain ⟨devs, hadd', hnodes⟩ := hat₂.attrAdded_eq b
    obtain rfl := congrArg Prod.fst (some.inj (hadd'.symm.trans hadd))
    refine ⟨d, _, as, bs, hat, ⟨hnodes, hat.before, hat.behind⟩, rfl, fun z hz => ?_⟩
    rw [attrs_of_list (hat.attrList_eq.symm.trans hl)]
    exact hk z hz
  rw [attrAdd] at h
  split at h
  next hnone =>
    split at h
    next => exact .inl ⟨(congrArg Prod.fst (some.inj h)).symm, hnone⟩
    next q hq =>
      obtain ⟨k, hk, h⟩ := bind_eq_some_iff.mp h
      obtain ⟨k', hins, h⟩ := bind_eq_some_iff.mp h
      obtain ⟨found, -, h⟩ := bind_eq_some_iff.mp h
      obtain ⟨b, -, h⟩ := bind_eq_some_iff.mp h
      obtain ⟨z, -, h⟩ := bind_eq_some_iff.mp h
      obtain ⟨s₁, hset, h⟩ := bind_eq_some_iff.mp h
      obtain ⟨d, d', as, bs, hat, hat', hid, hz⟩ := hadded hk hset h rfl fun z hz => by
        rw [Listing.tailInsert] at hins
        split at hins
        · cases hins
        · obtain rfl := some.inj hins
          rcases mem_append.mp hz with hz | hz
          · exact .inl (List.mem_map_of_mem hz)
          · exact .inr (by rw [mem_singleton.mp hz])
      exact .inr ⟨q, d, d', as, bs, hat, hat', hid, hz, by simp [hnone]⟩
  next e he =>
    obtain ⟨b, -, h⟩ := bind_eq_some_iff.mp h
    obtain ⟨k, hk, h⟩ := bind_eq_some_iff.mp h
    obtain ⟨k', hmod, h⟩ := bind_eq_some_iff.mp h
    obtain ⟨s₁, hset, h⟩ := bind_eq_some_iff.mp h
    obtain ⟨d, d', as, bs, hat, hat', hid, hz⟩ := hadded hk hset h rfl fun z hz => by
      rw [Listing.modify] at hmod
      split at hmod
      · obtain rfl := some.inj hmod
        obtain ⟨w, hw, rfl⟩ := List.mem_map.mp hz
        by_cases hb : w.1 = b
        · exact .inr (by rw [if_pos hb])
        · exact .inl (by rw [if_neg hb]; exact List.mem_map_of_mem hw)
      · cases hmod
    exact .inr ⟨e.pstDev, d, d', as, bs, hat, hat', hid, hz, by simp [he]⟩

theorem attrAddAll_cons :
    s.attrAddAll pcDevId (x :: xs) = some s' ↔
      ∃ s₁ iRet, s.attrAdd pcDevId x = some (s₁, iRet) ∧ s₁.attrAddAll pcDevId xs = some s' := by
  simp only [attrAddAll, foldlM_cons, bind_eq_bind, bind_eq_some_iff,
    map_eq_some_iff, Prod.exists]
  constructor
  · rintro ⟨_, ⟨s₁, r, hadd, rfl⟩, hrest⟩
    exact ⟨s₁, r, hadd, hrest⟩
  · rintro ⟨s₁, r, hadd, hrest⟩
    exact ⟨s₁, ⟨s₁, r, hadd, rfl⟩, hrest⟩

theorem attrAdd_within (h : s.attrAdd pcDevId x = some (s', iRet)) :
    ∀ n' ∈ s'.devs.nodes, ∃ n ∈ s.devs.nodes, n.1 = n'.1 ∧ n.2.acDevId = n'.2.acDevId ∧
      ∀ z ∈ n'.2.attrs, z.2 ∈ n.2.attrs.map Prod.snd ∨ z.2 = x := by
  intro n' hn'
  rcases attrAdd_cases h with ⟨rfl, -⟩ | ⟨p, d, d', as, bs, hat, hat', hid, hz, -⟩
  · exact ⟨n', hn', rfl, rfl, fun z hz => .inl (mem_map_of_mem hz)⟩
  · have hself {n : Nat × Device} (hn : n ∈ s.devs.nodes) : ∃ n₁ ∈ s.devs.nodes, n₁.1 = n.1 ∧
        n₁.2.acDevId = n.2.acDevId ∧ ∀ z ∈ n.2.attrs, z.2 ∈ n₁.2.attrs.map Prod.snd ∨ z.2 = x :=
      ⟨n, hn, rfl, rfl, fun z hz => .inl (mem_map_of_mem hz)⟩
    rw [hat'.nodes, mem_append, mem_cons] at hn'
    rcases hn' with hn' | rfl | hn'
    · exact hself (by rw [hat.nodes]; exact mem_append_left _ hn')
    · exact ⟨(p, d), hat.mem, rfl, hid.symm, hz⟩
    · exact hself (by
        rw [hat.nodes]; exact mem_append_right _ (mem_cons_of_mem _ hn'))

theorem attrAddAll_within (h : s.attrAddAll pcDevId xs = some s') :
    ∀ n' ∈ s'.devs.nodes, ∃ n ∈ s.devs.nodes, n.1 = n'.1 ∧ n.2.acDevId = n'.2.acDevId ∧
      ∀ z ∈ n'.2.attrs, z.2 ∈ n.2.attrs.map Prod.snd ∨ z.2 ∈ xs := by
  induction xs generalizing s with
  | nil =>
    obtain rfl := some.inj h
    exact fun n' hn' => ⟨n', hn', rfl, rfl, fun z hz => .inl (mem_map_of_mem hz)⟩
  | cons x xs ih =>
    obtain ⟨s₁, r, hadd, hrest⟩ := attrAddAll_cons.mp h
    intro n' hn'
    obtain ⟨n₁, hn₁, haddr, hid, hz⟩ := ih hrest n' hn'
    obtain ⟨n, hn, haddr', hid', hz'⟩ := attrAdd_within hadd n₁ hn₁
    refine ⟨n, hn, haddr'.trans haddr, hid'.trans hid, fun z hmem => ?_⟩
    rcases hz z hmem with hold | hnew
    · obtain ⟨w, hw, heq⟩ := mem_map.mp hold
      rcases hz' w hw with hw | hw
      · exact .inl (heq ▸ hw)
      · exact .inr (by rw [← heq, hw]; exact mem_cons_self)
    · exact .inr (mem_cons_of_mem _ hnew)

theorem attrAdd_of_not_apart (hs : Sound s) (h : DevAt s p d as bs)
    (hno : ¬ AttrApart s d.acDevId x.acKey) (hadd : s.attrAdd d.acDevId x = some (s', iRet)) :
    (p, d) ∈ s'.devs.nodes := by
  -- what is found is a device, which has no attribute block, or an attribute of another device
  obtain ⟨e, he, hne⟩ : ∃ e, s.attrFind d.acDevId x.acKey = some e ∧
      (e.pstDevAttr = none ∨ e.pstDev ≠ p) := by
    simp only [AttrApart, not_forall] at hno
    obtain ⟨n, hn, hno⟩ := hno
    rw [not_and_or, not_not] at hno
    rcases hno with heq | hno
    · have hkey := hs.mirror.find_eq (mem_entries_dev hn)
      rw [← attrKey_eq_devKey.mpr heq.symm] at hkey
      exact ⟨_, hkey, .inl rfl⟩
    · simp only [not_forall] at hno
      obtain ⟨z, hz, heq, hid⟩ := hno
      have hkey := hs.mirror.find_eq (mem_entries_attr hn hz)
      rw [attrKey_eq_attrKey.mpr heq] at hkey
      refine ⟨_, hkey, .inr fun hp => hid ?_⟩
      have hdata := Sound.device_eq hn
      rw [show n.1 = p from hp, h.device_eq] at hdata
      rw [some.inj hdata]
  rcases attrAdd_cases hadd with ⟨-, hnone⟩ | ⟨q, c, c', cs, ds, hat, hat', -, -, hfound⟩
  · rw [he] at hnone
    cases hnone
  · have hq := hfound e he
    rcases hne with hnone | hne
    · simp [attrAdd, he, hnone] at hadd
    · have hmem := h.mem
      rw [hat.nodes, mem_append, mem_cons] at hmem
      rw [hat'.nodes, mem_append, mem_cons]
      rcases hmem with hmem | hmem | hmem
      · exact .inl hmem
      · exact absurd (hq.trans (Prod.mk.inj hmem).1.symm) hne
      · exact .inr (.inr hmem)

theorem attrAddAll_safe (hs : Sound s) (h : DevAt s p d as bs) (hl : d.pstDevAttrList = some l)
    (hnd : (l.nodes.map (fun z => z.2.acKey) ++ ys.map DevAttrInfo.acKey).Nodup)
    (hsafe : ys = [] ∨ l.gone = false ∧ ∀ y ∈ ys, AttrApart s d.acDevId y.acKey) :
    ∃ s' d' l', s.attrAddAll d.acDevId ys = some s' ∧ Sound s' ∧ DevAt s' p d' as bs ∧
      d'.acDevId = d.acDevId ∧ d'.pstDevAttrList = some l' ∧
      l'.nodes.map Prod.snd = l.nodes.map Prod.snd ++ ys := by
  induction ys generalizing s d l with
  | nil => exact ⟨s, d, l, rfl, hs, h, rfl, hl, by simp⟩
  | cons y ys ih =>
    obtain ⟨hgone, hapart⟩ := hsafe.resolve_left (by simp)
    obtain ⟨hy, hys⟩ := forall_mem_cons.mp hapart
    have hno : ∀ z ∈ l.nodes, z.2.acKey ≠ y.acKey := by
      intro z hz heq
      exact (nodup_append.mp hnd).2.2 _ (mem_map_of_mem hz) y.acKey
        (by simp) heq
    obtain ⟨s₁, l₁, hadd, hl₁, hout⟩ := attrAdd_new hs h hl hy hno hgone
    have hat₁ := DevAt.mk hout.nodes_eq h.before h.behind
    have hgone₁ : l₁.gone = false := by
      by_contra hg
      have hnil := l₁.gone_nil (by simpa using hg)
      simp [hl₁] at hnil
    obtain ⟨s', d', l', hrest, hs', hat', hid, hl', hnodes⟩ := ih hout.sound hat₁ rfl
      (by rw [hl₁]; simpa [append_assoc] using hnd)
      (.inr ⟨hgone₁, fun z hz => (attrApart_of_replaced h hat₁ rfl).mpr (hys z hz)⟩)
    refine ⟨s', d', l', attrAddAll_cons.mpr ⟨s₁, .noErr, hadd, hrest⟩, hs', hat', hid, hl', ?_⟩
    rw [hnodes, hl₁]
    simp

theorem attrAddAll_only (hs : Sound s) (h : DevAt s p d as bs) (hl : d.pstDevAttrList = some l)
    (hnd : (l.nodes.map (fun z => z.2.acKey) ++ ys.map DevAttrInfo.acKey).Nodup)
    (hadd : s.attrAddAll d.acDevId ys = some s') {n' : Nat × Device} (hn' : n' ∈ s'.devs.nodes)
    (hid : n'.2.acDevId = d.acDevId) (hall : ∀ y ∈ ys, y ∈ n'.2.attrs.map Prod.snd) :
    ys = [] ∨ l.gone = false ∧ ∀ y ∈ ys, AttrApart s d.acDevId y.acKey := by
  induction ys generalizing s d l with
  | nil => exact .inl rfl
  | cons y ys ih =>
    obtain ⟨s₁, r, hfirst, hrest⟩ := attrAddAll_cons.mp hadd
    obtain ⟨hy, hys⟩ := forall_mem_cons.mp hall
    obtain ⟨-, hndy, hdisj⟩ := nodup_append.mp hnd
    have hno : ∀ z ∈ l.nodes, z.2.acKey ≠ y.acKey := fun z hz heq =>
      hdisj _ (mem_map_of_mem hz) y.acKey (by simp) heq
    have hapart : AttrApart s d.acDevId y.acKey := by
      by_contra hcontra
      have hkept := attrAdd_of_not_apart hs h hcontra hfirst
      -- the device is the one it was, and the attribute never comes to it
      obtain ⟨n₁, hn₁, -, hid₁, hz⟩ := attrAddAll_within hrest n' hn'
      obtain ⟨n, hn, haddr, hid₀, -⟩ := attrAdd_within hfirst n₁ hn₁
      obtain rfl : n = (p, d) := hs.dev_inj hn h.mem (hid₀.trans (hid₁.trans hid))
      have hdata := Sound.device_eq hn₁
      rw [← haddr, Sound.device_eq hkept] at hdata
      obtain ⟨z, hzmem, rfl⟩ := mem_map.mp hy
      rcases hz z hzmem with hold | hnew
      · rw [← some.inj hdata, attrs_of_list hl] at hold
        obtain ⟨w, hw, heq⟩ := mem_map.mp hold
        exact hno w hw (by rw [heq])
      · exact (nodup_cons.mp hndy).1 (mem_map_of_mem hnew)
    have hgone : l.gone = false := by
      by_contra hg
      rw [attrAdd_gone hs h hl hapart (by simpa using hg)] at hfirst
      cases hfirst
    obtain ⟨s₁', l₁, hadd', hl₁, hout⟩ := attrAdd_new hs h hl hapart hno hgone
    rw [hadd', some.injEq, Prod.mk.injEq] at hfirst
    obtain ⟨rfl, -⟩ := hfirst
    have hat₁ := DevAt.mk hout.nodes_eq h.before h.behind
    refine .inr ⟨hgone, forall_mem_cons.mpr ⟨hapart, ?_⟩⟩
    rcases ih hout.sound hat₁ rfl (by rw [hl₁]; simpa [append_assoc] using hnd) hrest hid
      hys with rfl | ⟨-, hrest'⟩
    · simp
    · exact fun z hz => (attrApart_of_replaced h hat₁ rfl).mp (hrest' z hz)

/-! ## The walk -/

/-- An attribute with the value it has among the new ones. -/
def renewed (xs : List DevAttrInfo) (y : DevAttrInfo) : DevAttrInfo :=
  (xs.find? fun x => x.acKey = y.acKey).getD y

/-- The index of an attribute among the new ones. -/
def indexOf (xs : List DevAttrInfo) (y : DevAttrInfo) : Option Nat :=
  xs.findIdx? fun x => x.acKey = y.acKey

theorem renewed_of_absent (h : y.acKey ∉ xs.map DevAttrInfo.acKey) : renewed xs y = y := by
  have hnone : xs.find? (fun x => decide (x.acKey = y.acKey)) = none := by
    rw [find?_eq_none]
    exact fun x hx heq => h (mem_map.mpr ⟨x, hx, by simpa using heq⟩)
  rw [renewed, hnone, getD_none]

theorem renewed_of_mem (hnd : (xs.map DevAttrInfo.acKey).Nodup) (hx : x ∈ xs)
    (hkey : x.acKey = y.acKey) : renewed xs y = x := by
  have hsome : xs.find? (fun x => decide (x.acKey = y.acKey)) = some x := by
    obtain ⟨z, hz⟩ : ∃ z, xs.find? (fun x => decide (x.acKey = y.acKey)) = some z := by
      rw [← isSome_iff_exists, find?_isSome]
      exact ⟨x, hx, by simpa using hkey⟩
    have hzkey : z.acKey = y.acKey := by simpa using find?_some hz
    rw [hz, inj_on_of_nodup_map hnd (mem_of_find?_eq_some hz) hx
      (hzkey.trans hkey.symm)]
  rw [renewed, hsome, getD_some]

@[simp] theorem renewed_acKey (xs : List DevAttrInfo) (y : DevAttrInfo) :
    (renewed xs y).acKey = y.acKey := by
  rw [renewed]
  cases h : xs.find? fun x => x.acKey = y.acKey with
  | none => rfl
  | some x => simpa using find?_some h

theorem indexOf_eq_none : indexOf xs y = none ↔ y.acKey ∉ xs.map DevAttrInfo.acKey := by
  rw [indexOf, findIdx?_eq_none_iff, List.mem_map]
  simp

theorem indexOf_eq_some (hnd : (xs.map DevAttrInfo.acKey).Nodup) {k : Nat}
    (hx : xs[k]? = some x) : indexOf xs y = some k ↔ x.acKey = y.acKey := by
  rw [indexOf, findIdx?_eq_some_iff_getElem]
  obtain ⟨hk, hxk⟩ := List.getElem?_eq_some_iff.mp hx
  constructor
  · rintro ⟨_, hkey, -⟩
    rw [hxk] at hkey
    simpa using hkey
  · intro hkey
    refine ⟨hk, by rw [hxk]; simpa using hkey, fun j hj heq => ?_⟩
    have hjlt : j < xs.length := hj.trans hk
    have hsame : (xs.map acKey)[j]? = (xs.map acKey)[k]? := by
      have heq : xs[j].acKey = y.acKey := by simpa using heq
      rw [getElem?_map, getElem?_map, hx, getElem?_eq_getElem hjlt, map_some,
        map_some, heq, hkey]
    exact absurd ((getElem?_inj (by simpa using hjlt) hnd).mp hsame) hj.ne

/-- The search finds an attribute at its index and gives it its new value. -/
theorem searchAttr_eq (hnd : (xs.map DevAttrInfo.acKey).Nodup) (h : DevAt s p d as bs)
    (hl : d.pstDevAttrList = some l) (hy : (a, y) ∈ l.nodes) :
    ∃ devs l', s.searchAttr xs p a = some ({ s with devs := devs }, indexOf xs y) ∧
      DevAt { s with devs := devs } p { d with pstDevAttrList := some l' } as bs ∧
      l'.nodes = Listing.change a (renewed xs) l.nodes := by
  have hattr : s.attr p a = some y := by
    rw [attr, h.attrList_eq, hl]
    exact Listing.data_eq_some hy
  have hindex : (xs.findIdx? fun x => CText.strncmpEq attrKeyMaxLen y.acKey.1 x.acKey.1) =
      indexOf xs y := by
    refine congrArg (fun f => xs.findIdx? f) (funext fun x => ?_)
    rw [Bool.eq_iff_iff, Field.strncmpEq_iff, decide_eq_true_iff, eq_comm]
  have hself : DevAt { s with devs := s.devs } p { d with pstDevAttrList := some l } as bs := by
    rw [← hl]
    exact h
  simp only [searchAttr, hattr, bind_eq_bind, bind_some, hindex]
  cases hr : indexOf xs y with
  | none =>
    refine ⟨s.devs, l, rfl, hself, ?_⟩
    rw [Listing.change_self hy (renewed_of_absent (indexOf_eq_none.mp hr))]
  | some k =>
    obtain ⟨x, hx⟩ : ∃ x, xs[k]? = some x := by
      rw [indexOf, findIdx?_eq_some_iff_getElem] at hr
      obtain ⟨hk, -⟩ := hr
      exact ⟨_, getElem?_eq_getElem hk⟩
    have hkey := (indexOf_eq_some hnd hx).mp hr
    have hnew : renewed xs y = x := renewed_of_mem hnd (mem_of_getElem? hx) hkey
    simp only [hx, bind_some]
    by_cases hval : CText.strncmpEq attrValueMaxLen y.acValue.1 x.acValue.1 = true
    · have hyx : x = y := by
        rw [Field.strncmpEq_iff] at hval
        cases x
        cases y
        simp_all
      refine ⟨s.devs, l, by rw [if_pos hval]; rfl, hself, ?_⟩
      rw [Listing.change_self hy (by rw [hnew, hyx])]
    · have ha : a ∈ l.nodes.map Prod.fst := List.mem_map_of_mem (f := Prod.fst) hy
      obtain ⟨l', hmod, hnodes⟩ : ∃ l', l.modify a (fun y => { y with acValue := x.acValue }) =
          some l' ∧ l'.nodes = Listing.change a (fun y => { y with acValue := x.acValue })
            l.nodes := by
        rw [Listing.modify, if_pos ha]
        exact ⟨_, rfl, rfl⟩
      obtain ⟨devs, hset, hat⟩ := h.setDevice_eq fun d => { d with pstDevAttrList := some l' }
      refine ⟨devs, l', ?_, hat, ?_⟩
      · rw [if_neg hval]
        simp only [h.attrList_eq, hl, hmod, bind_some, setAttrList, hset]
        rfl
      · obtain ⟨zs, ws, hsplit, hA, hB⟩ := l.split_of_mem hy
        rw [hnodes, hsplit, Listing.change_split hA hB, Listing.change_split hA hB, hnew, ← hkey]

/-- What the list of the device is when the attributes of `done` were visited. -/
structure AttrVisited (xs : List DevAttrInfo) (s : DevList) (p : Nat) (d : Device)
    (as bs : List (Nat × Device)) (l : Listing DevAttrInfo) (done : List Nat) (s' : DevList)
    (f : Nat → Bool) : Prop where
  hash : s'.hash = s.hash
  list : ∃ l', DevAt s' p { d with pstDevAttrList := some l' } as bs ∧
    l'.nodes = l.nodes.map fun z => if z.1 ∈ done then (z.1, renewed xs z.2) else z
  flags : ∀ k, f k = true ↔ ∃ z ∈ l.nodes, z.1 ∈ done ∧ indexOf xs z.2 = some k

/-- When the first attribute is among the new ones, the walk renews every one that is. -/
theorem walk_attrs (hnd : (xs.map DevAttrInfo.acKey).Nodup) (h : DevAt s p d as bs)
    (hl : d.pstDevAttrList = some l) (hcons : l.nodes = (a, y) :: zs)
    (hfirst : y.acKey ∈ xs.map DevAttrInfo.acKey) (del : DevList → Nat → Option DevList) :
    ∃ s' l' f, walk (fun s e => (s.attrList p).bind fun l => l.next e) del
        (DevList.searchAttr xs p) (l.nodes.length + 1) none ⟨s, fun _ => false, 0, none⟩ =
          some ⟨s', f, 1, none⟩ ∧
      DevAt s' p { d with pstDevAttrList := some l' } as bs ∧ s'.hash = s.hash ∧
      l'.nodes = l.nodes.map (fun z => (z.1, renewed xs z.2)) ∧
      ∀ k, f k = true ↔ ∃ z ∈ l.nodes, indexOf xs z.2 = some k := by
  have hall : l.nodes.map Prod.fst = a :: zs.map Prod.fst := by rw [hcons, map_cons]
  have haddrs {done : List Nat} {l' : Listing DevAttrInfo} (hn : l'.nodes = l.nodes.map fun z =>
      if z.1 ∈ done then (z.1, renewed xs z.2) else z) :
      l'.nodes.map Prod.fst = l.nodes.map Prod.fst := by
    rw [hn, List.map_map]
    refine map_congr_left fun z _ => ?_
    by_cases hz : z.1 ∈ done <;> simp [hz]
  have hnext (done todo : List Nat) (s' : DevList) (f : Nat → Bool)
      (hsplit : l.nodes.map Prod.fst = done ++ todo)
      (hv : AttrVisited xs s p d as bs l done s' f) :
      ((s'.attrList p).bind fun l => l.next done.getLast?) = some todo.head? := by
    obtain ⟨l', hat, hn⟩ := hv.list
    rw [hat.attrList_eq, bind_some]
    refine Listing.next_eq (by rw [haddrs hn, hsplit]) ?_
    by_contra hg
    have hnil := congrArg (List.map Prod.fst) (l'.gone_nil (by simpa using hg))
    rw [haddrs hn, hall] at hnil
    cases hnil
  have hsearch (done : List Nat) (q : Nat) (todo : List Nat) (s' : DevList) (f : Nat → Bool)
      (hsplit : l.nodes.map Prod.fst = done ++ q :: todo)
      (hv : AttrVisited xs s p d as bs l done s' f) :
      ∃ s'' r, s'.searchAttr xs p q = some (s'', r) ∧
        AttrVisited xs s p d as bs l (done ++ [q]) s'' (mark f r) := by
    obtain ⟨l', hat, hn⟩ := hv.list
    have hq : q ∈ l.nodes.map Prod.fst := by
      rw [hsplit]
      exact mem_append_right _ mem_cons_self
    have hqdone : q ∉ done := by
      have hnodup := l.nodup
      rw [hsplit] at hnodup
      exact fun hm => (nodup_append.mp hnodup).2.2 q hm q mem_cons_self rfl
    obtain ⟨⟨q, e⟩, hmem, rfl⟩ := List.mem_map.mp hq
    have hmem' : (q, e) ∈ l'.nodes := by
      rw [hn]
      exact List.mem_map.mpr ⟨(q, e), hmem, if_neg hqdone⟩
    obtain ⟨devs, l'', hfound, hat', hn'⟩ := searchAttr_eq hnd hat rfl hmem'
    refine ⟨_, _, hfound, hv.hash, ⟨l'', hat', ?_⟩, fun k => ?_⟩
    · rw [hn', hn, Listing.change, List.map_map]
      refine map_congr_left fun z _ => ?_
      by_cases hd : z.1 ∈ done
      · have hzq : z.1 ≠ q := fun heq => hqdone (heq ▸ hd)
        simp [hd, hzq]
      · by_cases hz : z.1 = q
        · simp [hz, hqdone]
        · simp [hz, hd]
    · have hsame {z : Nat × DevAttrInfo} (hz : z ∈ l.nodes) (heq : z.1 = q) : z = (q, e) :=
        inj_on_of_nodup_map l.nodup hz hmem heq
      have hflag : mark f (indexOf xs e) k = true ↔ f k = true ∨ indexOf xs e = some k := by
        cases indexOf xs e with
        | none => simp [mark]
        | some j =>
          by_cases hjk : k = j
          · simp [mark, hjk]
          · simp [mark, Function.update_of_ne hjk, Ne.symm hjk]
      rw [hflag, hv.flags k]
      constructor
      · rintro (⟨z, hz, hzd, hk⟩ | hk)
        · exact ⟨z, hz, mem_append_left _ hzd, hk⟩
        · exact ⟨(q, e), hmem, mem_append_right _ (by simp), hk⟩
      · rintro ⟨z, hz, hzd, hk⟩
        rcases mem_append.mp hzd with hzd | hzd
        · exact .inl ⟨z, hz, hzd, hk⟩
        · obtain rfl := hsame hz (mem_singleton.mp hzd)
          exact .inr hk
  have hstart : AttrVisited xs s p d as bs l [] s fun _ => false := by
    refine ⟨rfl, ⟨l, ?_, by simp⟩, by simp⟩
    rw [← hl]
    exact h
  obtain ⟨devs, -, hfound, -, -⟩ := searchAttr_eq (a := a) (y := y) hnd h hl (by simp [hcons])
  obtain ⟨s', f, hwalk, hv⟩ := walk_of_first_found
    (fun s e => (s.attrList p).bind fun l => l.next e) del hnext hsearch hall hstart (by
    rintro z hz
    rw [hfound, mem_some_iff] at hz
    rw [← hz, ne_eq, indexOf_eq_none, not_not]
    exact hfirst)
  obtain ⟨l', hat, hn⟩ := hv.list
  rw [length_map] at hwalk
  refine ⟨s', l', f, hwalk, hat, hv.hash, ?_, fun k => ?_⟩
  · rw [hn]
    refine map_congr_left fun z hz => ?_
    rw [if_pos (List.mem_map_of_mem hz)]
  · rw [hv.flags k]
    constructor
    · rintro ⟨z, hz, -, hk⟩
      exact ⟨z, hz, hk⟩
    · rintro ⟨z, hz, hk⟩
      exact ⟨z, hz, List.mem_map_of_mem hz, hk⟩

theorem walk_attrs_missing (hs : Sound s) (h : DevAt s p d as bs) (hl : d.pstDevAttrList = some l)
    (hcons : l.nodes = (a, y) :: zs) (hfirst : y.acKey ∉ xs.map DevAttrInfo.acKey) (n : Nat) :
    walk (fun s e => (s.attrList p).bind fun l => l.next e) (DevList.attrDelAt d.acDevId p)
      (DevList.searchAttr xs p) (n + 1) none ⟨s, fun _ => false, 0, none⟩ = none := by
  have hall : l.nodes.map Prod.fst = [] ++ a :: zs.map Prod.fst := by rw [hcons]; rfl
  have hmem : (a, y) ∈ l.nodes := by simp [hcons]
  have hgone : l.gone = false := by
    by_contra hg
    simp [l.gone_nil (by simpa using hg)] at hcons
  have hattr : s.attr p a = some y := by
    rw [attr, h.attrList_eq, hl]
    exact data_eq_some hmem
  have hsearch : s.searchAttr xs p a = some (s, none) := by
    have hindex := indexOf_eq_none.mpr hfirst
    have hmiss : (xs.findIdx? fun x => CText.strncmpEq attrKeyMaxLen y.acKey.1 x.acKey.1) =
        none := by
      rw [← hindex, indexOf]
      refine congrArg (fun f => xs.findIdx? f) (funext fun x => ?_)
      rw [Bool.eq_iff_iff, Field.strncmpEq_iff, decide_eq_true_iff, eq_comm]
    simp [searchAttr, hattr, hmiss]
  have hnext : ((s.attrList p).bind fun l => l.next none) = some (some a) := by
    rw [h.attrList_eq, hl]
    exact next_eq hall hgone
  have hnext' : ((s.attrList p).bind fun l => l.next (some a)) =
      some (zs.map Prod.fst).head? := by
    rw [h.attrList_eq, hl]
    exact next_eq (show l.nodes.map Prod.fst = [a] ++ zs.map Prod.fst from hall) hgone
  refine walk_of_first_missing hnext hsearch hnext' ?_ n
  simp [attrDelAt, hattr, attrDel_of_mem hs h hl hmem]

/-! ## The whole of it -/

/-- The device has the attributes of the target and no others, and no other device changed. -/
def AttrSynced (pcDevId : DevId) (pstDevAttrList : List DevAttrInfo) (s : DevList) : Prop :=
  ∃ s', s.attrSync pcDevId pstDevAttrList = some (s', .noErr) ∧
    (∃ n ∈ s'.devs.nodes, n.2.acDevId = pcDevId ∧
      (n.2.attrs.map Prod.snd).Perm pstDevAttrList) ∧
    ∀ e ≠ pcDevId, s'.toMap e = s.toMap e

/-- Nothing is a target that is always reached.  Otherwise the list must not have been cleared
before, every attribute of the device must be among the new ones, and the keys of these must be
free. -/
def AttrSyncMeets (s : DevList) (n : Nat × Device) (pstDevAttrList : List DevAttrInfo) : Prop :=
  pstDevAttrList = [] ∨
    (∀ l ∈ n.2.pstDevAttrList, l.gone = false) ∧
      (∀ y ∈ n.2.attrs, y.2.acKey ∈ pstDevAttrList.map DevAttrInfo.acKey) ∧
      ∀ x ∈ pstDevAttrList, AttrApart s n.2.acDevId x.acKey

/-- What all additions leave: the attributes that were there and those added. -/
theorem attrAddAll_iff (ys xs : List DevAttrInfo) (hs : Sound s) (h : DevAt s p d as bs)
    (hl : d.pstDevAttrList = some l)
    (hnd : (l.nodes.map (fun z => z.2.acKey) ++ ys.map DevAttrInfo.acKey).Nodup)
    (hsub : ∀ y ∈ ys, y ∈ xs) :
    (∃ s', s.attrAddAll d.acDevId ys = some s' ∧
      (∃ n ∈ s'.devs.nodes, n.2.acDevId = d.acDevId ∧ (n.2.attrs.map Prod.snd).Perm xs) ∧
      ∀ e ≠ d.acDevId, s'.toMap e = s.toMap e) ↔
    (ys = [] ∨ l.gone = false ∧ ∀ y ∈ ys, AttrApart s d.acDevId y.acKey) ∧
      (l.nodes.map Prod.snd ++ ys).Perm xs := by
  constructor
  · rintro ⟨s', hadd, ⟨n, hn, hid, hperm⟩, -⟩
    have hsafe := attrAddAll_only hs h hl hnd hadd hn hid fun y hy =>
      hperm.mem_iff.mpr (hsub y hy)
    obtain ⟨s'', d', l', hadd', hs', hat', hid', hl', hnodes⟩ :=
      attrAddAll_safe hs h hl hnd hsafe
    obtain rfl : s'' = s' := some.inj (hadd'.symm.trans hadd)
    obtain rfl : n = (p, d') := hs'.dev_inj hn hat'.mem (hid.trans hid'.symm)
    rw [attrs_of_list hl', hnodes] at hperm
    exact ⟨hsafe, hperm⟩
  · rintro ⟨hsafe, hperm⟩
    obtain ⟨s', d', l', hadd, hs', hat', hid', hl', hnodes⟩ := attrAddAll_safe hs h hl hnd hsafe
    refine ⟨s', hadd, ⟨(p, d'), hat'.mem, hid', ?_⟩, fun e he => toMap_of_ne hs h hat' hid' he⟩
    rw [attrs_of_list hl', hnodes]
    exact hperm

theorem nodup_attr_keys (hs : Sound s) (h : DevAt s p d as bs) (hl : d.pstDevAttrList = some l) :
    (l.nodes.map fun z => z.2.acKey).Nodup := by
  refine List.Nodup.map_on (fun z hz w hw hkey => ?_) (List.Nodup.of_map _ l.nodup)
  have hz' : z ∈ d.attrs := attrs_of_list hl ▸ hz
  have hw' : w ∈ d.attrs := attrs_of_list hl ▸ hw
  exact inj_on_of_nodup_map l.nodup hz hw (hs.attr_inj h.mem h.mem hz' hw' (by rw [hkey])).2

/-- The attributes of the device renewed, and the new ones it does not have, are all the new
ones when it has no others. -/
theorem renewed_perm_iff (hnd : (xs.map DevAttrInfo.acKey).Nodup)
    (hndz : (zs.map fun z => z.2.acKey).Nodup) :
    ((zs.map fun z => renewed xs z.2) ++
      xs.filter fun x => decide (x.acKey ∉ zs.map fun z => z.2.acKey)).Perm xs ↔
    ∀ z ∈ zs, z.2.acKey ∈ xs.map DevAttrInfo.acKey := by
  constructor
  · intro hperm z hz
    have hmem : renewed xs z.2 ∈ xs :=
      hperm.mem_iff.mp (mem_append_left _ (List.mem_map_of_mem (f := fun z =>
        renewed xs z.2) hz))
    exact List.mem_map.mpr ⟨_, hmem, renewed_acKey _ _⟩
  · intro hall
    have hleft : ((zs.map fun z => renewed xs z.2) ++
        xs.filter fun x => decide (x.acKey ∉ zs.map fun z => z.2.acKey)).Nodup := by
      refine nodup_append.mpr ⟨?_, (List.Nodup.of_map _ hnd).filter _, ?_⟩
      · have hkeys : zs.map (acKey ∘ fun z => renewed xs z.2) =
            zs.map fun z => z.2.acKey :=
          map_congr_left fun z _ => renewed_acKey xs z.2
        refine List.Nodup.of_map acKey ?_
        rw [List.map_map, hkeys]
        exact hndz
      · rintro _ hx y hy rfl
        obtain ⟨z, hz, rfl⟩ := List.mem_map.mp hx
        have hnot := (mem_filter.mp hy).2
        rw [decide_eq_true_iff, renewed_acKey] at hnot
        exact hnot (List.mem_map_of_mem (f := fun z => z.2.acKey) hz)
    refine (perm_ext_iff_of_nodup hleft (List.Nodup.of_map _ hnd)).mpr fun x => ?_
    rw [mem_append, mem_filter, decide_eq_true_iff]
    constructor
    · rintro (hx | hx)
      · obtain ⟨z, hz, rfl⟩ := List.mem_map.mp hx
        obtain ⟨w, hw, hkey⟩ := List.mem_map.mp (hall z hz)
        rwa [renewed_of_mem hnd hw hkey]
      · exact hx.1
    · intro hx
      by_cases hkey : x.acKey ∈ zs.map fun z => z.2.acKey
      · obtain ⟨z, hz, heq⟩ := List.mem_map.mp hkey
        exact .inl (List.mem_map.mpr ⟨z, hz, renewed_of_mem hnd hx heq.symm⟩)
      · exact .inr ⟨hx, hkey⟩

theorem attrSynced_nil (hs : Sound s) (h : DevAt s p d as bs) (hl : d.pstDevAttrList = some l) :
    AttrSynced d.acDevId [] s := by
  have hfind := hs.find_of_mem h.mem
  by_cases hnil : l.nodes = []
  · refine ⟨s, ?_, ⟨(p, d), h.mem, rfl, ?_⟩, fun _ _ => rfl⟩
    · simp only at hfind
      simp [attrSync, hfind, h.attrList_eq, hl, hnil, attrAddAll]
    · simp [attrs_of_list hl, hnil]
  · have hgone : l.gone = false := by
      by_contra hg
      exact hnil (l.gone_nil (by simpa using hg))
    obtain ⟨s', l', hclear, hnil', hout⟩ := attrClear_live hs h hl hgone true
    have hat' := DevAt.mk hout.nodes_eq h.before h.behind
    refine ⟨s', ?_, ⟨_, hat'.mem, rfl, ?_⟩, fun e he => toMap_of_ne hs h hat' (by rfl) he⟩
    · simp only at hfind
      simp [attrSync, hfind, h.attrList_eq, hl, hnil, hclear]
    · simp [attrs, hnil']

theorem attrSynced_empty_iff (hs : Sound s) (h : DevAt s p d as bs)
    (hl : d.pstDevAttrList = some l) (hnil : l.nodes = [])
    (hnd : (xs.map DevAttrInfo.acKey).Nodup) :
    AttrSynced d.acDevId xs s ↔
      xs = [] ∨ l.gone = false ∧ ∀ x ∈ xs, AttrApart s d.acDevId x.acKey := by
  have hfind := hs.find_of_mem h.mem
  simp only at hfind
  have hsync : s.attrSync d.acDevId xs =
      (s.attrAddAll d.acDevId xs).map fun s => (s, Ret.noErr) := by
    simp only [attrSync, hfind, h.attrList_eq, hl, bind_eq_bind, bind_some,
      hnil, length_nil, if_true]
    cases s.attrAddAll d.acDevId xs <;> rfl
  have hiff := attrAddAll_iff xs xs hs h hl (by simpa [hnil] using hnd) fun _ h => h
  rw [hnil, map_nil, nil_append] at hiff
  have hsome (s' : DevList) : s.attrSync d.acDevId xs = some (s', .noErr) ↔
      s.attrAddAll d.acDevId xs = some s' := by
    simp [hsync]
  simp only [AttrSynced, hsome, hiff, List.Perm.refl, and_true]

/-- A list with attributes is renewed when its first one is among the new ones. -/
theorem attrSynced_cons_iff (hs : Sound s) (h : DevAt s p d as bs)
    (hl : d.pstDevAttrList = some l) (hne : l.nodes ≠ []) (hxs : xs ≠ [])
    (hnd : (xs.map DevAttrInfo.acKey).Nodup) :
    AttrSynced d.acDevId xs s ↔
      (∀ y ∈ l.nodes, y.2.acKey ∈ xs.map DevAttrInfo.acKey) ∧
        ∀ x ∈ xs, AttrApart s d.acDevId x.acKey := by
  have hfind := hs.find_of_mem h.mem
  simp only at hfind
  obtain ⟨⟨a, y⟩, zs, hcons⟩ := exists_cons_of_ne_nil hne
  by_cases hfirst : y.acKey ∈ xs.map acKey
  · obtain ⟨s₁, l₁, f, hwalk, hat₁, hhash, hnodes, hf⟩ :=
      walk_attrs hnd h hl hcons hfirst (attrDelAt d.acDevId p)
    have hkeys : (l₁.nodes.map fun z => z.2.acKey) = l.nodes.map fun z => z.2.acKey := by
      rw [hnodes, List.map_map]
      exact map_congr_left fun z _ => renewed_acKey xs z.2
    have hs₁ : Sound s₁ := by
      have hentries : entriesOf (p, { d with pstDevAttrList := some l₁ }) = entriesOf (p, d) := by
        simp [entriesOf, attrs, hl, hnodes, attrEntry]
      have hm := h.mirror hs
      rw [← hentries, ← hhash] at hm
      exact h.sound_of hs hat₁.nodes (by simp) hm
    have hunfound : unfound f xs =
        xs.filter fun x => decide (x.acKey ∉ l.nodes.map fun z => z.2.acKey) := by
      rw [unfound_eq (g := fun x => decide (x.acKey ∈ l.nodes.map fun z => z.2.acKey))]
      · simp
      · intro k x hx
        rw [Bool.eq_iff_iff, hf, decide_eq_true_iff, List.mem_map]
        constructor
        · rintro ⟨z, hz, hk⟩
          exact ⟨z, hz, ((indexOf_eq_some hnd hx).mp hk).symm⟩
        · rintro ⟨z, hz, hk⟩
          exact ⟨z, hz, (indexOf_eq_some hnd hx).mpr hk.symm⟩
    have hsync : s.attrSync d.acDevId xs =
        (s₁.attrAddAll d.acDevId (unfound f xs)).map fun s => (s, Ret.noErr) := by
      simp only [attrSync, hfind, h.attrList_eq, hl, bind_eq_bind,
        bind_some, length_eq_zero_iff, hne, hxs, if_false, hwalk]
      cases s₁.attrAddAll d.acDevId (unfound f xs) <;> rfl
    have hndz := nodup_attr_keys hs h hl
    have hndall : ((l₁.nodes.map fun z => z.2.acKey) ++
        (unfound f xs).map acKey).Nodup := by
      rw [hkeys, hunfound]
      refine nodup_append.mpr ⟨hndz, hnd.sublist (filter_sublist.map _), ?_⟩
      rintro _ hk _ hkey rfl
      obtain ⟨x, hx, rfl⟩ := List.mem_map.mp hkey
      have hnot := (mem_filter.mp hx).2
      rw [decide_eq_true_iff] at hnot
      exact hnot hk
    have hiff := attrAddAll_iff (unfound f xs) xs hs₁ hat₁ rfl hndall (fun y hy => by
      rw [hunfound] at hy
      exact (mem_filter.mp hy).1)
    have hsome (s' : DevList) : s.attrSync d.acDevId xs = some (s', .noErr) ↔
        s₁.attrAddAll d.acDevId (unfound f xs) = some s' := by
      simp [hsync]
    have hmap (s' : DevList) : (∀ e ≠ d.acDevId, s'.toMap e = s.toMap e) ↔
        ∀ e ≠ d.acDevId, s'.toMap e = s₁.toMap e :=
      forall₂_congr fun e he => by rw [toMap_of_ne hs h hat₁ rfl he]
    have hperm : (l₁.nodes.map Prod.snd ++ unfound f xs).Perm xs ↔
        ∀ y ∈ l.nodes, y.2.acKey ∈ xs.map acKey := by
      rw [hnodes, List.map_map, hunfound]
      exact renewed_perm_iff hnd hndz
    have hgone : l₁.gone = false := by
      by_contra hg
      have hnil := l₁.gone_nil (by simpa using hg)
      rw [hnodes, map_eq_nil_iff] at hnil
      exact hne hnil
    have hapart : (unfound f xs = [] ∨ l₁.gone = false ∧
        ∀ y ∈ unfound f xs, AttrApart s₁ d.acDevId y.acKey) ↔
        ∀ x ∈ xs, AttrApart s d.acDevId x.acKey := by
      constructor
      · intro hsafe x hx
        by_cases hkey : x.acKey ∈ l.nodes.map fun z => z.2.acKey
        · obtain ⟨z, hz, hk⟩ := List.mem_map.mp hkey
          have hz' : z ∈ (p, d).2.attrs := attrs_of_list hl ▸ hz
          exact hk ▸ hs.attrApart_of_mem h.mem hz'
        · have hx' : x ∈ unfound f xs := by
            rw [hunfound]
            exact mem_filter.mpr ⟨hx, decide_eq_true_iff.mpr hkey⟩
          rcases hsafe with hnil | ⟨-, hsafe⟩
          · rw [hnil] at hx'
            cases hx'
          · exact (attrApart_of_replaced h hat₁ rfl).mp (hsafe x hx')
      · intro hall
        refine .inr ⟨hgone, fun x hx => (attrApart_of_replaced h hat₁ rfl).mpr (hall x ?_)⟩
        rw [hunfound] at hx
        exact (mem_filter.mp hx).1
    simp only [AttrSynced, hsome, hmap]
    rw [hiff, hperm, hapart, and_comm]
  · have hnone : s.attrSync d.acDevId xs = none := by
      simp only [attrSync, hfind, h.attrList_eq, hl, bind_eq_bind,
        bind_some, length_eq_zero_iff, hne, hxs, if_false,
        walk_attrs_missing hs h hl hcons hfirst, bind_none]
    constructor
    · rintro ⟨s', hsome, -⟩
      rw [hnone] at hsome
      cases hsome
    · rintro ⟨hall, -⟩
      exact absurd (hall (a, y) (by simp [hcons])) hfirst

/-- The attributes are brought to the target exactly where the condition holds. -/
theorem attrSynced_iff (hs : Sound s) {n : Nat × Device} (hn : n ∈ s.devs.nodes)
    (hnd : (xs.map DevAttrInfo.acKey).Nodup) :
    AttrSynced n.2.acDevId xs s ↔ AttrSyncMeets s n xs := by
  obtain ⟨p, d⟩ := n
  obtain ⟨as, bs, hat⟩ := devAt_of_mem hn
  obtain ⟨l, hl⟩ := ne_none_iff_exists'.mp (hs.listed _ hn)
  rw [AttrSyncMeets]
  simp only at hl
  simp only [hl, mem_some_iff, forall_eq', attrs_of_list hl]
  by_cases hxs : xs = []
  · subst hxs
    simp [attrSynced_nil hs hat hl]
  · by_cases hnil : l.nodes = []
    · rw [attrSynced_empty_iff hs hat hl hnil hnd, hnil]
      simp
    · have hgone : l.gone = false := by
        by_contra hg
        exact hnil (l.gone_nil (by simpa using hg))
      rw [attrSynced_cons_iff hs hat hl hnil hxs hnd]
      simp [hxs, hgone]

/-- Both calls reach their targets exactly where their conditions hold. -/
theorem sync_reaches_target_iff (hs : Sound s) :
    (∀ pstDevList : List (DevId × DevInfo), (pstDevList.map Prod.fst).Nodup →
      (Synced pstDevList s ↔ SyncMeets s pstDevList)) ∧
    ∀ n ∈ s.devs.nodes, ∀ pstDevAttrList : List DevAttrInfo,
      (pstDevAttrList.map DevAttrInfo.acKey).Nodup →
        (AttrSynced n.2.acDevId pstDevAttrList s ↔ AttrSyncMeets s n pstDevAttrList) :=
  ⟨fun _ hnd => synced_iff hs hnd, fun _ hn _ hnd => attrSynced_iff hs hn hnd⟩

/-- One device, brought to itself and another one. -/
theorem sync_reaches_target_one :
    ∃ s os, Run.run step (newDevList false) [.add ⟨['A'], by decide⟩ blankInfo] = some (s, os) ∧
      Synced [(⟨['A'], by decide⟩, { blankInfo with ucOnline := 1 }),
        (⟨['B'], by decide⟩, { blankInfo with ucOnline := 1 })] s := by
  have hsafe : Run.Along step Safe (newDevList false) [.add ⟨['A'], by decide⟩ blankInfo] := by
    decide +kernel
  refine ⟨_, _, rfl, ?_⟩
  exact ((sync_reaches_target_iff (sound_of_run hsafe rfl)).1 _ (by decide)).mpr
    (by decide +kernel)

/-- The only device of the list is not among the new ones: it stays, and the new one is not
added. -/
theorem sync_keeps_old :
    ∃ s os, Run.run step (newDevList false) [.add ⟨['A'], by decide⟩ blankInfo] = some (s, os) ∧
      ¬ Synced [(⟨['B'], by decide⟩, { blankInfo with ucOnline := 1 })] s := by
  refine ⟨_, _, rfl, ?_⟩
  rintro ⟨s', hsync, hrec⟩
  have hrecords : s'.records = [(⟨['A'], by decide⟩, { blankInfo with ucOnline := 1 })] :=
    congrArg (fun x => DevList.records x.1) (some.inj hsync).symm
  rw [hrecords, perm_singleton] at hrec
  exact absurd hrec (by decide)

end Honyar.Devices
