import Honyar.Devices.Effects

/-!
# What is left after a removal

Clearing the attributes of a device, deleting it and clearing the whole list take the hash
entries of what goes, one after the other.  A list whose blocks were given back once is not
fit for any of the three: its ends still point at them.
-/

namespace Honyar.Devices

open Honyar.Base (HashMap)
open Option List DevList

open DevList (devKey attrKey devKey_inj attrKey_inj)

variable {s : DevList} {p : Nat} {d : Device} {as bs : List (Nat × Device)} {pcDevId : DevId}
  {l : Listing DevAttrInfo} {iDbClear : Bool}

/-- The hash map without the attributes of a device. -/
def withoutAttrs (d : Device) (m : HashMap DevAttrPtr) : HashMap DevAttrPtr :=
  ((d.attrs.map (attrEntry 0 d.acDevId)).map Prod.fst).foldl HashMap.del m

/-- The tables without the attributes of a device. -/
def Tables.attrsDel (d : Device) (t : Tables) : Tables :=
  (d.attrs.map Prod.snd).foldl (fun t x => t.attrDel d.acDevId x.acKey) t

theorem foldl_forgetAttr (xs : List DevAttrInfo) (s : DevList) :
    xs.foldl (DevList.forgetAttr pcDevId iDbClear) s = { s with
      hash := (xs.map fun x => attrKey pcDevId x.acKey).foldl HashMap.del s.hash
      db := if iDbClear then xs.foldl (fun t x => t.attrDel pcDevId x.acKey) s.db else s.db } := by
  induction xs generalizing s with
  | nil => cases iDbClear <;> rfl
  | cons x xs ih =>
    rw [foldl_cons, ih]
    cases iDbClear <;> rfl

/-! ## Clearing the attributes -/

theorem mirror_withoutAttrs {m : HashMap DevAttrPtr} {n : Nat × Device}
    {es : List (Base.HashKey × DevAttrPtr)}
    (h : HashMap.Mirror m (n.2.attrs.map (attrEntry n.1 n.2.acDevId) ++ es)) :
    HashMap.Mirror (withoutAttrs n.2 m) es := by
  have hattrs := HashMap.Mirror.delAll h
  rw [List.map_map] at hattrs
  rw [withoutAttrs, List.map_map]
  exact hattrs

theorem attrClear_eq (h : DevAt s p d as bs) (hl : d.pstDevAttrList = some l)
    (hgone : l.gone = false) (hfind : s.find d.acDevId = some p) (iDbClear : Bool) :
    ∃ devs l', s.attrClear d.acDevId iDbClear = some ({ s with
        devs := devs, hash := withoutAttrs d s.hash,
        db := if iDbClear then s.db.attrsDel d else s.db }, .noErr) ∧
      DevAt { s with devs := devs } p { d with pstDevAttrList := some l' } as bs ∧
      l'.nodes = [] := by
  obtain ⟨l', hclear, hnodes⟩ : ∃ l', l.clear = some l' ∧ l'.nodes = [] := by
    rw [Listing.clear, hgone, if_neg (by simp)]
    exact ⟨_, rfl, rfl⟩
  obtain ⟨devs, hset, hat⟩ := h.setDevice_eq fun d => { d with pstDevAttrList := some l' }
  refine ⟨devs, l', ?_, hat, hnodes⟩
  have hset' := hset
  rw [DevList.setDevice] at hset'
  simp only [DevList.attrClear, hfind, h.attrList_eq, hl, bind_eq_bind, bind_some,
    hclear, foldl_forgetAttr, DevList.setAttrList, DevList.setDevice]
  obtain ⟨devs', hmod, heq⟩ := bind_eq_some_iff.mp hset'
  obtain rfl : devs' = devs := congrArg DevList.devs (some.inj heq)
  simp only [hmod, bind_some, withoutAttrs, Tables.attrsDel, Device.attrs_of_list hl,
    List.map_map]
  rfl

theorem attrClear_live (hs : Sound s) (h : DevAt s p d as bs) (hl : d.pstDevAttrList = some l)
    (hgone : l.gone = false) (iDbClear : Bool) :
    ∃ s' l', s.attrClear d.acDevId iDbClear = some (s', .noErr) ∧ l'.nodes = [] ∧
      Outcome s s' (as ++ (p, { d with pstDevAttrList := some l' }) :: bs) []
        (if iDbClear then s.db.attrsDel d else s.db) := by
  obtain ⟨devs, l', hclear, hat, hnil⟩ := attrClear_eq h hl hgone (hs.find_of_mem h.mem) iDbClear
  have hperm : (entriesOf (p, d) ++ (as ++ bs).flatMap entriesOf).Perm
      (d.attrs.map (attrEntry p d.acDevId) ++
        (entriesOf (p, { d with pstDevAttrList := some l' }) ++ (as ++ bs).flatMap entriesOf)) := by
    simp only [entriesOf, Device.attrs_of_list (d := { d with pstDevAttrList := some l' }) rfl,
      hnil, map_nil]
    exact perm_middle.symm
  have hm := mirror_withoutAttrs (n := (p, d)) ((h.mirror hs).perm hperm)
  exact ⟨_, l', hclear, hnil, h.sound_of hs hat.nodes (by simp) hm, hat.nodes,
    (append_nil _).symm, rfl, rfl⟩

theorem attrClear_gone (h : DevAt s p d as bs) (hl : d.pstDevAttrList = some l)
    (hgone : l.gone = true) (hfind : s.find d.acDevId = some p) (iDbClear : Bool) :
    s.attrClear d.acDevId iDbClear = none := by
  simp [attrClear, hfind, h.attrList_eq, hl, Listing.clear, hgone]

theorem attrClear_none (hs : Sound s) (hd : DevApart s pcDevId)
    (hno : ∀ n ∈ s.devs.nodes, n.2.acDevId ≠ pcDevId) (iDbClear : Bool) :
    s.attrClear pcDevId iDbClear = some (s, .generalErr) := by
  rw [attrClear, hs.find_of_not_mem hd hno]

/-! ## Deleting a device -/

theorem destroyAttrList_eq (h : DevAt s p d as bs) (hl : d.pstDevAttrList = some l)
    (hnil : l.nodes = []) :
    ∃ devs, s.destroyAttrList p = some { s with devs := devs } ∧
      DevAt { s with devs := devs } p { d with pstDevAttrList := none } as bs := by
  obtain ⟨devs, hset, hat⟩ := h.setDevice_eq fun d => { d with pstDevAttrList := none }
  refine ⟨devs, ?_, hat⟩
  simp only [destroyAttrList, h.attrList_eq, hl, bind_eq_bind, bind_some,
    hnil, length_nil, ne_eq, not_true_eq_false, if_false, setAttrList]
  exact hset

/-- The hash map and the tables without a device and its attributes. -/
def withoutDev (d : Device) (m : HashMap DevAttrPtr) : HashMap DevAttrPtr :=
  (withoutAttrs d m).del (devKey d.acDevId)

def Tables.allDel (d : Device) (t : Tables) : Tables :=
  (t.attrsDel d).devDel d.acDevId

theorem mirror_withoutDev {m : HashMap DevAttrPtr} {n : Nat × Device}
    {es : List (Base.HashKey × DevAttrPtr)} (h : HashMap.Mirror m (entriesOf n ++ es)) :
    HashMap.Mirror (withoutDev n.2 m) es := by
  have hperm : (entriesOf n ++ es).Perm
      (n.2.attrs.map (attrEntry n.1 n.2.acDevId) ++
        ([(devKey n.2.acDevId, ⟨n.1, none⟩)] ++ es)) := by
    rw [entriesOf, cons_append, singleton_append]
    exact perm_middle.symm
  have hattrs := HashMap.Mirror.delAll (h.perm hperm)
  have hdev := HashMap.Mirror.delAll hattrs
  rw [List.map_map] at hdev
  rw [withoutDev, withoutAttrs, List.map_map]
  exact hdev

theorem del_live (hs : Sound s) (h : DevAt s p d as bs) (hl : d.pstDevAttrList = some l)
    (hgone : l.gone = false) :
    ∃ s', s.del d.acDevId = some (s', .noErr) ∧
      Outcome s s' (as ++ bs) [] (s.db.allDel d) := by
  have hfind := hs.find_of_mem h.mem
  obtain ⟨devs, l', hclear, hat, hnil⟩ := attrClear_eq h hl hgone hfind true
  obtain ⟨devs', hdestroy, hat'⟩ := destroyAttrList_eq
    (s := { s with
      devs := devs, hash := withoutAttrs d s.hash, db := s.db.attrsDel d })
    ⟨hat.nodes, hat.before, hat.behind⟩ rfl hnil
  obtain ⟨devs'', hdel, hnodes⟩ : ∃ devs'', devs'.del p = some devs'' ∧
      devs''.nodes = as ++ bs := by
    have hp : p ∈ devs'.nodes.map Prod.fst := List.mem_map_of_mem (f := Prod.fst) hat'.mem
    rw [Listing.del, dif_pos hp]
    refine ⟨_, rfl, ?_⟩
    change devs'.nodes.eraseP _ = _
    rw [hat'.nodes, Listing.eraseP_split hat'.before]
  have hm := mirror_withoutDev (h.mirror hs)
  refine ⟨{ s with devs := devs'', hash := withoutDev d s.hash, db := s.db.allDel d }, ?_,
    ⟨fun n hn => ?_, by rw [hnodes]; exact hm⟩, hnodes, (append_nil _).symm, rfl, rfl⟩
  rotate_left
  · rw [hnodes, mem_append] at hn
    refine hs.listed n ?_
    rw [h.nodes, mem_append, mem_cons]
    exact hn.imp_right .inr
  simp only at hfind hclear
  simp only [del, hfind, hclear, if_true, bind_eq_bind, bind_some, hdestroy,
    hdel]
  rfl

theorem del_none (hs : Sound s) (hd : DevApart s pcDevId)
    (hno : ∀ n ∈ s.devs.nodes, n.2.acDevId ≠ pcDevId) : s.del pcDevId = some (s, .noErr) := by
  rw [del, hs.find_of_not_mem hd hno]

/-! ## Clearing the list -/

theorem forgetDev_eq (h : DevAt s p d as bs) (hl : d.pstDevAttrList = some l)
    (hgone : l.gone = false) (hfind : s.find d.acDevId = some p) (iDbClear : Bool) :
    ∃ devs db, DevList.forgetDev iDbClear s p = some { s with
        devs := devs, hash := withoutDev d s.hash, db := db } ∧
      DevAt { s with devs := devs } p { d with pstDevAttrList := none } as bs := by
  obtain ⟨devs, l', hclear, hat, hnil⟩ := attrClear_eq h hl hgone hfind iDbClear
  obtain ⟨devs', hdestroy, hat'⟩ := destroyAttrList_eq
    (s := { s with
      devs := devs, hash := withoutAttrs d s.hash,
      db := if iDbClear then s.db.attrsDel d else s.db })
    ⟨hat.nodes, hat.before, hat.behind⟩ rfl hnil
  refine ⟨devs', if iDbClear then (if iDbClear then s.db.attrsDel d else s.db).devDel d.acDevId
    else if iDbClear then s.db.attrsDel d else s.db, ?_, hat'.nodes, hat'.before, hat'.behind⟩
  simp only [forgetDev, h.device_eq, bind_eq_bind, bind_some, hclear,
    hdestroy]
  rfl

theorem forgetDev_gone (h : DevAt s p d as bs) (hl : d.pstDevAttrList = some l)
    (hgone : l.gone = true) (hfind : s.find d.acDevId = some p) (iDbClear : Bool) :
    DevList.forgetDev iDbClear s p = none := by
  simp [forgetDev, h.device_eq, attrClear_gone h hl hgone hfind]

theorem devAt_of_nodes (hnodes : s.devs.nodes = as ++ (p, d) :: bs) : DevAt s p d as bs :=
  ⟨hnodes, (Listing.notMem_of_split hnodes).1, (Listing.notMem_of_split hnodes).2⟩

theorem find_of_mirror {todo : List (Nat × Device)}
    (hm : HashMap.Mirror s.hash (((p, d) :: todo).flatMap entriesOf)) :
    s.find d.acDevId = some p := by
  rw [find, hm.find_eq (mem_entries_dev (n := (p, d)) mem_cons_self)]
  rfl

/-- The walk that forgets the devices still to come goes through when none of their attribute
lists is gone, and the hash map is empty behind it. -/
theorem foldlM_forgetDev (done todo : List (Nat × Device)) (hnodes : s.devs.nodes = done ++ todo)
    (hm : HashMap.Mirror s.hash (todo.flatMap entriesOf))
    (hl : ∀ n ∈ todo, ∃ l, n.2.pstDevAttrList = some l ∧ l.gone = false) (iDbClear : Bool) :
    ∃ devs hash db, (todo.map Prod.fst).foldlM (DevList.forgetDev iDbClear) s =
        some { s with devs := devs, hash := hash, db := db } ∧
      devs.nodes.length = s.devs.nodes.length ∧ HashMap.Mirror hash [] := by
  induction todo generalizing s done with
  | nil => exact ⟨s.devs, s.hash, s.db, rfl, rfl, hm⟩
  | cons n todo ih =>
    obtain ⟨⟨l, hlist, hgone⟩, htodo⟩ := forall_mem_cons.mp hl
    obtain ⟨p, d⟩ := n
    have hat : DevAt s p d done todo := devAt_of_nodes hnodes
    have hfind : s.find d.acDevId = some p := find_of_mirror hm
    obtain ⟨devs, db, hforget, hat'⟩ := forgetDev_eq hat hlist hgone hfind iDbClear
    have hm' := mirror_withoutDev (n := (p, d)) hm
    obtain ⟨devs', hash', db', hfold, hlen, hempty⟩ := ih
      (s := { s with devs := devs, hash := withoutDev d s.hash, db := db })
      (done ++ [(p, { d with pstDevAttrList := none })])
      (by rw [append_assoc]; exact hat'.nodes) hm' htodo
    refine ⟨devs', hash', db', ?_, ?_, hempty⟩
    · rw [map_cons, foldlM_cons]
      simp only [hforget, bind_eq_bind, bind_some]
      exact hfold
    · have hlen' : devs.nodes.length = s.devs.nodes.length := by
        have hn : devs.nodes = _ := hat'.nodes
        rw [hn, hnodes]
        simp
      rw [hlen, hlen']

theorem foldlM_forgetDev_gone (done todo : List (Nat × Device))
    (hnodes : s.devs.nodes = done ++ todo) (hm : HashMap.Mirror s.hash (todo.flatMap entriesOf))
    (hl : ∀ n ∈ todo, n.2.pstDevAttrList ≠ none) (iDbClear : Bool)
    (hgone : ∃ n ∈ todo, ∃ l, n.2.pstDevAttrList = some l ∧ l.gone = true) :
    (todo.map Prod.fst).foldlM (DevList.forgetDev iDbClear) s = none := by
  induction todo generalizing s done with
  | nil =>
    obtain ⟨n, hn, -⟩ := hgone
    cases hn
  | cons n todo ih =>
    obtain ⟨hlist, htodo⟩ := forall_mem_cons.mp hl
    obtain ⟨p, d⟩ := n
    obtain ⟨l, hlist⟩ := ne_none_iff_exists'.mp hlist
    have hat : DevAt s p d done todo := devAt_of_nodes hnodes
    have hfind : s.find d.acDevId = some p := find_of_mirror hm
    rw [map_cons, foldlM_cons]
    by_cases hg : l.gone = true
    · simp [forgetDev_gone hat hlist hg hfind]
    · have hg : l.gone = false := by simpa using hg
      obtain ⟨devs, db, hforget, hat'⟩ := forgetDev_eq hat hlist hg hfind iDbClear
      have hrest : ∃ n ∈ todo, ∃ l, n.2.pstDevAttrList = some l ∧ l.gone = true := by
        obtain ⟨n, hn, l', hl', hg'⟩ := hgone
        rcases mem_cons.mp hn with rfl | hn
        · rw [hlist, some.injEq] at hl'
          exact absurd hg' (by simp [← hl', hg])
        · exact ⟨n, hn, l', hl', hg'⟩
      simp only [hforget, bind_eq_bind, bind_some]
      exact ih (s := { s with devs := devs, hash := withoutDev d s.hash, db := db })
        (done ++ [(p, { d with pstDevAttrList := none })])
        (by rw [append_assoc]; exact hat'.nodes) (mirror_withoutDev (n := (p, d)) hm)
        htodo hrest

/-- No list of a device was cleared and not destroyed. -/
def Fresh (s : DevList) : Prop :=
  ∀ n ∈ s.devs.nodes, ∀ l ∈ n.2.pstDevAttrList, l.gone = false

instance (s : DevList) : Decidable (Fresh s) :=
  inferInstanceAs (Decidable (∀ n ∈ s.devs.nodes, ∀ l ∈ n.2.pstDevAttrList, l.gone = false))

theorem clear_eq (hs : Sound s) (hgone : s.devs.gone = false) (hfresh : Fresh s)
    (iDbClear : Bool) :
    ∃ s' db, s.clear iDbClear = some (s', .noErr) ∧ Outcome s s' [] [] db ∧
      s'.devs.gone = !s.devs.nodes.isEmpty := by
  have hl : ∀ n ∈ s.devs.nodes, ∃ l, n.2.pstDevAttrList = some l ∧ l.gone = false := by
    intro n hn
    obtain ⟨l, hlist⟩ := ne_none_iff_exists'.mp (hs.listed n hn)
    exact ⟨l, hlist, hfresh n hn l hlist⟩
  obtain ⟨devs, hash, db, hfold, hlen, hempty⟩ :=
    foldlM_forgetDev [] s.devs.nodes rfl hs.mirror hl iDbClear
  have hisEmpty : devs.nodes.isEmpty = s.devs.nodes.isEmpty := by
    rw [Bool.eq_iff_iff, isEmpty_iff_length_eq_zero, isEmpty_iff_length_eq_zero, hlen]
  have hgone' : devs.gone = false := by
    by_contra hg
    have hnil := devs.gone_nil (by simpa using hg)
    have hnil' : s.devs.nodes = [] := by
      rw [← length_eq_zero_iff, ← hlen, hnil]
      rfl
    rw [hnil', map_nil, foldlM_nil] at hfold
    have : devs = s.devs := congrArg DevList.devs (some.inj hfold).symm
    rw [this, hgone] at hg
    simp at hg
  obtain ⟨devs', hclear, hnil, hgone''⟩ : ∃ devs', devs.clear = some devs' ∧ devs'.nodes = [] ∧
      devs'.gone = !devs.nodes.isEmpty := by
    rw [Listing.clear, hgone', if_neg (by simp)]
    exact ⟨_, rfl, rfl, rfl⟩
  refine ⟨{ s with devs := devs', hash := hash, db := db }, db, ?_,
    ⟨⟨by simp [hnil], by rw [hnil]; exact hempty⟩, hnil, (append_nil _).symm, rfl, rfl⟩,
    by rw [hgone'', hisEmpty]⟩
  simp only [DevList.clear, hfold, bind_eq_bind, bind_some, hclear]
  rfl

theorem clear_of_not_fresh (hs : Sound s) (hfresh : ¬ Fresh s) (iDbClear : Bool) :
    s.clear iDbClear = none := by
  have hgone : ∃ n ∈ s.devs.nodes, ∃ l, n.2.pstDevAttrList = some l ∧ l.gone = true := by
    simp only [Fresh, not_forall, Bool.not_eq_false] at hfresh
    obtain ⟨n, hn, l, hl, hg⟩ := hfresh
    exact ⟨n, hn, l, hl, hg⟩
  simp [clear, foldlM_forgetDev_gone [] s.devs.nodes rfl hs.mirror hs.listed iDbClear hgone]

end Honyar.Devices
