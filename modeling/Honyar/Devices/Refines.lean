import Honyar.Devices.Map

/-!
# Where the device list is its map

One lemma for each call: where it is safe it does to the lists what it does to the map.  A run
of safe calls is a run of the map, with the same answers.
-/

namespace Honyar.Devices

open DevList (attrKey_inj)
open Option List Device DevList Store

variable {s s' : DevList} {p : Nat} {d : Device} {as bs : List (Nat × Device)} {pcDevId : DevId}
  {pcAttrKey : AttrKey} {l : Listing DevAttrInfo}

/-! ## The map of the lists -/

theorem devAt_or_absent (s : DevList) (pcDevId : DevId) :
    (∃ p d as bs, DevAt s p d as bs ∧ d.acDevId = pcDevId) ∨
      ∀ n ∈ s.devs.nodes, n.2.acDevId ≠ pcDevId := by
  by_cases h : ∃ n ∈ s.devs.nodes, n.2.acDevId = pcDevId
  · obtain ⟨⟨p, d⟩, hn, hid⟩ := h
    obtain ⟨as, bs, hat⟩ := devAt_of_mem hn
    exact .inl ⟨p, d, as, bs, hat, hid⟩
  · exact .inr fun n hn hid => h ⟨n, hn, hid⟩

theorem attrAt_or_absent (l : Listing DevAttrInfo) (pcAttrKey : AttrKey) :
    (∃ a y xs ys, l.nodes = xs ++ (a, y) :: ys ∧ y.acKey = pcAttrKey) ∨
      ∀ y ∈ l.nodes, y.2.acKey ≠ pcAttrKey := by
  by_cases h : ∃ y ∈ l.nodes, y.2.acKey = pcAttrKey
  · obtain ⟨⟨a, y⟩, hy, hkey⟩ := h
    obtain ⟨xs, ys, hsplit⟩ := append_of_mem hy
    exact .inl ⟨a, y, xs, ys, hsplit, hkey⟩
  · exact .inr fun y hy hkey => h ⟨y, hy, hkey⟩

theorem DevAt.others (hs : Sound s) (h : DevAt s p d as bs) :
    (∀ n ∈ as, n.2.acDevId ≠ d.acDevId) ∧ ∀ n ∈ bs, n.2.acDevId ≠ d.acDevId := by
  constructor
  · intro n hn hid
    have hmem : n ∈ s.devs.nodes := h.nodes ▸ mem_append_left _ hn
    obtain rfl : n = (p, d) := hs.dev_inj hmem h.mem hid
    exact h.before (List.mem_map_of_mem (f := Prod.fst) hn)
  · intro n hn hid
    have hmem : n ∈ s.devs.nodes := h.nodes ▸ mem_append_right _ (mem_cons_of_mem _ hn)
    obtain rfl : n = (p, d) := hs.dev_inj hmem h.mem hid
    exact h.behind (List.mem_map_of_mem (f := Prod.fst) hn)

theorem attrs_others (hs : Sound s) (h : DevAt s p d as bs) (hl : d.pstDevAttrList = some l)
    {a : Nat} {y : DevAttrInfo} {xs ys : List (Nat × DevAttrInfo)}
    (hsplit : l.nodes = xs ++ (a, y) :: ys) :
    (∀ z ∈ xs, z.2.acKey ≠ y.acKey) ∧ ∀ z ∈ ys, z.2.acKey ≠ y.acKey := by
  have hattrs : d.attrs = xs ++ (a, y) :: ys := (attrs_of_list hl).trans hsplit
  have hy : (a, y) ∈ d.attrs := by
    rw [hattrs]
    exact mem_append_right _ mem_cons_self
  have hnd := l.nodup
  rw [hsplit, map_append, map_cons] at hnd
  obtain ⟨-, hndB, hdisj⟩ := nodup_append.mp hnd
  constructor
  · intro z hz hkey
    have hz' : z ∈ d.attrs := hattrs ▸ mem_append_left _ hz
    have heq := (hs.attr_inj h.mem h.mem hz' hy (by rw [hkey])).2
    exact hdisj z.1 (List.mem_map_of_mem hz) a mem_cons_self heq
  · intro z hz hkey
    have hz' : z ∈ d.attrs := hattrs ▸ mem_append_right _ (mem_cons_of_mem _ hz)
    have heq : z.1 = a := (hs.attr_inj h.mem h.mem hz' hy (by rw [hkey])).2
    have hmem : z.1 ∈ ys.map Prod.fst := List.mem_map_of_mem hz
    rw [heq] at hmem
    exact (nodup_cons.mp hndB).1 hmem

theorem toMap_of_at (hs : Sound s) (h : DevAt s p d as bs) :
    s.toMap d.acDevId = some d.entry := by
  have hmiss : as.find? (fun n => decide (n.2.acDevId = d.acDevId)) = none := by
    simpa using (h.others hs).1
  rw [toMap, Store.lookup, h.nodes, find?_append, hmiss]
  simp

theorem toMap_of_absent (hno : ∀ n ∈ s.devs.nodes, n.2.acDevId ≠ pcDevId) :
    s.toMap pcDevId = none :=
  lookup_eq_none.mpr hno

theorem toMap_of_replaced (hs : Sound s) (h : DevAt s p d as bs) {d' : Device}
    (hid : d'.acDevId = d.acDevId) (hnodes : s'.devs.nodes = as ++ (p, d') :: bs) :
    s'.toMap = Function.update s.toMap d.acDevId (some d'.entry) := by
  rw [toMap, toMap, hnodes, h.nodes]
  exact lookup_replace (r := (p, d)) (x := (p, d')) hid (h.others hs).1

theorem toMap_of_removed (hs : Sound s) (h : DevAt s p d as bs)
    (hnodes : s'.devs.nodes = as ++ bs) :
    s'.toMap = Function.update s.toMap d.acDevId none := by
  rw [toMap, toMap, hnodes, h.nodes]
  exact lookup_remove (r := (p, d)) (h.others hs).1 (h.others hs).2

theorem toMap_of_added (hno : ∀ n ∈ s.devs.nodes, n.2.acDevId ≠ d.acDevId)
    (hnodes : s'.devs.nodes = s.devs.nodes ++ [(p, d)]) :
    s'.toMap = Function.update s.toMap d.acDevId (some d.entry) := by
  rw [toMap, toMap, hnodes]
  exact lookup_append (r := (p, d)) hno

theorem entry_attrs_of_at (hs : Sound s) (h : DevAt s p d as bs) (hl : d.pstDevAttrList = some l)
    {a : Nat} {y : DevAttrInfo} {xs ys : List (Nat × DevAttrInfo)}
    (hsplit : l.nodes = xs ++ (a, y) :: ys) : d.entry.attrs y.acKey = some y.acValue := by
  have hmiss : xs.find? (fun z => decide (z.2.acKey = y.acKey)) = none := by
    simpa using (attrs_others hs h hl hsplit).1
  simp only [entry, attrs_of_list hl, Store.lookup]
  rw [hsplit, find?_append, hmiss]
  simp

theorem entry_attrs_of_absent (hl : d.pstDevAttrList = some l)
    (hno : ∀ y ∈ l.nodes, y.2.acKey ≠ pcAttrKey) : d.entry.attrs pcAttrKey = none := by
  rw [entry, attrs_of_list hl]
  exact lookup_eq_none.mpr hno

theorem not_cleared_of_at (h : DevAt s p d as bs) (hc : ¬ Cleared s d.acDevId)
    (hl : d.pstDevAttrList = some l) : l.gone = false := by
  by_contra hg
  exact hc ⟨(p, d), h.mem, rfl, l, hl, by simpa using hg⟩

/-! ## One call -/

/-- A call does the same to the lists and to the map they stand for, and leaves lists that a
map stands for. -/
def Refines (s : DevList) (op : Op) : Prop :=
  ∃ s' o, step s op = some (s', o) ∧ mapStep s.ucInitFlag s.toMap op = some (s'.toMap, o) ∧
    Sound s' ∧ s'.ucInitFlag = s.ucInitFlag

/-- An addition that is safe is that to the map, and brings no attribute. -/
theorem add_safe (hs : Sound s) (hapart : DevApart s pcDevId) (hgone : s.devs.gone = false)
    (i : DevInfo) :
    ∃ s', s.add pcDevId i = some (s', .noErr) ∧ Sound s' ∧ s'.ucInitFlag = s.ucInitFlag ∧
      s'.toMap = s.toMap.add s.ucInitFlag pcDevId i ∧ s'.devs.gone = false ∧
      ∀ e, DevApart s' e ↔ DevApart s e := by
  rcases devAt_or_absent s pcDevId with ⟨p, d, as, bs, hat, rfl⟩ | hno
  · obtain ⟨s', hadd, hout⟩ := add_live hs hat i
    refine ⟨s', hadd, hout.sound, hout.flag_eq, ?_, ?_, fun e => ?_⟩
    · rw [DevMap.add, toMap_of_at hs hat, toMap_of_replaced hs hat (by rfl) hout.nodes_eq]
      rfl
    · exact DevAt.gone_eq ⟨hout.nodes_eq, hat.before, hat.behind⟩
    · rw [DevApart, DevApart, hout.nodes_eq, hat.nodes, forall_mem_append,
        forall_mem_append, forall_mem_cons, forall_mem_cons]
      rfl
  · obtain ⟨s', hadd, hout⟩ := add_new hs hapart hno hgone i
    refine ⟨s', hadd, hout.sound, hout.flag_eq, ?_, ?_, fun e => ?_⟩
    · rw [DevMap.add, toMap_of_absent hno, toMap_of_added (by exact hno) hout.nodes_eq]
      rfl
    · by_contra hg
      have hnil := s'.devs.gone_nil (by simpa using hg)
      rw [hout.nodes_eq] at hnil
      simp at hnil
    · simp [DevApart, hout.nodes_eq, attrs, Listing.empty, or_imp, forall_and]

theorem refines_add (hs : Sound s) {i : DevInfo} (h : Safe s (.add pcDevId i)) :
    Refines s (.add pcDevId i) := by
  obtain ⟨s', hadd, hs', hflag, hmap, -, -⟩ := add_safe hs h.1 h.2 i
  refine ⟨s', [.ret .noErr], by rw [step, hadd]; rfl, ?_, hs', hflag⟩
  rw [mapStep, hmap]

theorem refines_del (hs : Sound s) (h : Safe s (.del pcDevId)) : Refines s (.del pcDevId) := by
  obtain ⟨hapart, hclear⟩ := h
  rcases devAt_or_absent s pcDevId with ⟨p, d, as, bs, hat, rfl⟩ | hno
  · obtain ⟨l, hl⟩ := ne_none_iff_exists'.mp (hs.listed _ hat.mem)
    obtain ⟨s', hdel, hout⟩ := del_live hs hat hl (not_cleared_of_at hat hclear hl)
    refine ⟨s', [.ret .noErr], by rw [step, hdel]; rfl, ?_, hout.sound, hout.flag_eq⟩
    rw [mapStep, DevMap.del, toMap_of_removed hs hat hout.nodes_eq]
  · refine ⟨s, [.ret .noErr], by rw [step, del_none hs hapart hno]; rfl, ?_, hs, rfl⟩
    have hself := Function.update_eq_self pcDevId s.toMap
    rw [toMap_of_absent hno] at hself
    rw [mapStep, DevMap.del, hself]

theorem onAttrs_of_at (hs : Sound s) (h : DevAt s p d as bs) {d' : Device} {f : Entry → Entry}
    (hid : d'.acDevId = d.acDevId) (hnodes : s'.devs.nodes = as ++ (p, d') :: bs)
    (hf : d'.entry = f d.entry) : s.toMap.onAttrs d.acDevId f = (s'.toMap, .noErr) := by
  rw [DevMap.onAttrs, toMap_of_at hs h, toMap_of_replaced hs h hid hnodes, hf]

theorem onAttrs_of_absent (hno : ∀ n ∈ s.devs.nodes, n.2.acDevId ≠ pcDevId)
    (f : Entry → Entry) : s.toMap.onAttrs pcDevId f = (s.toMap, .generalErr) := by
  rw [DevMap.onAttrs, toMap_of_absent hno]

theorem refines_attrAdd (hs : Sound s) {x : DevAttrInfo} (h : Safe s (.attrAdd pcDevId x)) :
    Refines s (.attrAdd pcDevId x) := by
  obtain ⟨hapart, hsafe⟩ := h
  rcases devAt_or_absent s pcDevId with ⟨p, d, as, bs, hat, rfl⟩ | hno
  · obtain ⟨l, hl⟩ := ne_none_iff_exists'.mp (hs.listed _ hat.mem)
    rcases attrAt_or_absent l x.acKey with ⟨a, y, xs, ys, hsplit, hkey⟩ | hmiss
    · obtain ⟨s', l', hadd, hl', hout⟩ := attrAdd_live hs hat hl hsplit hkey
      refine ⟨s', [.ret .noErr], by rw [step, hadd]; rfl, ?_, hout.sound, hout.flag_eq⟩
      rw [mapStep, DevMap.attrAdd, onAttrs_of_at hs hat (by rfl) hout.nodes_eq]
      · rfl
      · rw [entry, entry, attrs_of_list rfl, attrs_of_list hl, hl',
          hsplit, lookup_replace (r := (a, y)) (x := (a, x)) hkey.symm
            (attrs_others hs hat hl hsplit).1, hkey]
    · have hgone : l.gone = false := by
        rcases hsafe with ⟨n, hn, hid, y, hy, hkey⟩ | ⟨-, hclear⟩
        · obtain rfl : n = (p, d) := hs.dev_inj hn hat.mem hid
          rw [attrs_of_list hl] at hy
          exact absurd hkey (hmiss y hy)
        · exact not_cleared_of_at hat hclear hl
      obtain ⟨s', l', hadd, hl', hout⟩ := attrAdd_new hs hat hl hapart hmiss hgone
      refine ⟨s', [.ret .noErr], by rw [step, hadd]; rfl, ?_, hout.sound, hout.flag_eq⟩
      rw [mapStep, DevMap.attrAdd, onAttrs_of_at hs hat (by rfl) hout.nodes_eq]
      · rfl
      · rw [entry, entry, attrs_of_list rfl, attrs_of_list hl, hl',
          lookup_append (r := (l.fresh, x)) hmiss]
  · have hdev : DevApart s pcDevId := by
      rcases hsafe with ⟨n, hn, hid, -⟩ | ⟨hdev, -⟩
      · exact absurd hid (hno n hn)
      · exact hdev
    refine ⟨s, [.ret .generalErr], by rw [step, attrAdd_none hs hdev hno hapart]; rfl, ?_, hs, rfl⟩
    rw [mapStep, DevMap.attrAdd, onAttrs_of_absent hno]
    rfl

theorem refines_attrDel (hs : Sound s) (h : Safe s (.attrDel pcDevId pcAttrKey)) :
    Refines s (.attrDel pcDevId pcAttrKey) := by
  obtain ⟨hapart, hno⟩ := h
  have hmiss : ∀ n ∈ s.devs.nodes, n.2.acDevId = pcDevId → ∀ x ∈ n.2.attrs,
      x.2.acKey ≠ pcAttrKey := fun n hn hid x hx hkey => hno ⟨n, hn, hid, x, hx, hkey⟩
  have hattr : (s.toMap pcDevId).bind (fun e => e.attrs pcAttrKey) = none := by
    rcases devAt_or_absent s pcDevId with ⟨p, d, as, bs, hat, rfl⟩ | habsent
    · obtain ⟨l, hl⟩ := ne_none_iff_exists'.mp (hs.listed _ hat.mem)
      rw [toMap_of_at hs hat, bind_some]
      refine entry_attrs_of_absent hl fun y hy => hmiss _ hat.mem rfl y ?_
      rwa [attrs_of_list hl]
    · rw [toMap_of_absent habsent, bind_none]
  refine ⟨s, [.ret .generalErr], ?_, ?_, hs, rfl⟩
  · rw [step, attrDel, hs.attrFind_of_not_mem hapart hmiss]
    rfl
  · rw [mapStep, DevMap.attrDel, hattr]
    rfl

theorem refines_attrClear (hs : Sound s) {iDbClear : Bool}
    (h : Safe s (.attrClear pcDevId iDbClear)) : Refines s (.attrClear pcDevId iDbClear) := by
  obtain ⟨hapart, hclear⟩ := h
  rcases devAt_or_absent s pcDevId with ⟨p, d, as, bs, hat, rfl⟩ | hno
  · obtain ⟨l, hl⟩ := ne_none_iff_exists'.mp (hs.listed _ hat.mem)
    obtain ⟨s', l', hc, hnil, hout⟩ :=
      attrClear_live hs hat hl (not_cleared_of_at hat hclear hl) iDbClear
    refine ⟨s', [.ret .noErr], by rw [step, hc]; rfl, ?_, hout.sound, hout.flag_eq⟩
    rw [mapStep, DevMap.attrClear, onAttrs_of_at hs hat (by rfl) hout.nodes_eq]
    · rfl
    · rw [entry, entry, attrs_of_list rfl, hnil]
      rfl
  · refine ⟨s, [.ret .generalErr], by rw [step, attrClear_none hs hapart hno]; rfl, ?_, hs, rfl⟩
    rw [mapStep, DevMap.attrClear, onAttrs_of_absent hno]
    rfl

theorem refines_clear (hs : Sound s) {iDbClear : Bool} (h : Safe s (.clear iDbClear)) :
    Refines s (.clear iDbClear) := by
  obtain ⟨s', db, hc, hout, -⟩ := clear_eq hs h.1 h.2 iDbClear
  refine ⟨s', [.ret .noErr], by rw [step, hc]; rfl, ?_, hout.sound, hout.flag_eq⟩
  have hmap : s'.toMap = fun _ => none := by
    funext d
    rw [toMap, hout.nodes_eq]
    rfl
  rw [mapStep, hmap]

theorem refines_find (hs : Sound s) (h : Safe s (.find pcDevId)) : Refines s (.find pcDevId) := by
  rcases devAt_or_absent s pcDevId with ⟨p, d, as, bs, hat, rfl⟩ | hno
  · refine ⟨s, [.dev (some (d.acDevId, d.entry))], ?_, ?_, hs, rfl⟩
    · have hfind := hs.find_of_mem hat.mem
      simp only at hfind
      simp [step, hfind, readDev, hat.device_eq]
    · rw [mapStep, toMap_of_at hs hat]
      rfl
  · refine ⟨s, [.dev none], ?_, ?_, hs, rfl⟩
    · rw [step, hs.find_of_not_mem h hno]
      rfl
    · rw [mapStep, toMap_of_absent hno]
      rfl

theorem refines_attrFind (hs : Sound s) (h : Safe s (.attrFind pcDevId pcAttrKey)) :
    Refines s (.attrFind pcDevId pcAttrKey) := by
  have habsent (hmiss : ∀ n ∈ s.devs.nodes, n.2.acDevId = pcDevId → ∀ x ∈ n.2.attrs,
      x.2.acKey ≠ pcAttrKey)
      (hattr : (s.toMap pcDevId).bind (fun e => e.attrs pcAttrKey) = none) :
      Refines s (.attrFind pcDevId pcAttrKey) := by
    refine ⟨s, [.attr none], ?_, ?_, hs, rfl⟩
    · rw [step, hs.attrFind_of_not_mem h hmiss]
      rfl
    · rw [mapStep, hattr]
      rfl
  rcases devAt_or_absent s pcDevId with ⟨p, d, as, bs, hat, rfl⟩ | hno
  · obtain ⟨l, hl⟩ := ne_none_iff_exists'.mp (hs.listed _ hat.mem)
    rcases attrAt_or_absent l pcAttrKey with ⟨a, y, xs, ys, hsplit, rfl⟩ | hmiss
    · have hy : (a, y) ∈ l.nodes := by
        rw [hsplit]
        exact mem_append_right _ mem_cons_self
      refine ⟨s, [.attr (some (d.acDevId, y.acKey, y.acValue))], ?_, ?_, hs, rfl⟩
      · have hfind := hs.attrFind_of_mem hat.mem (attrs_of_list hl ▸ hy)
        have hread : s.attr p a = some y := by
          rw [attr, hat.attrList_eq, hl]
          exact Listing.data_eq_some hy
        simp only at hfind
        simp [step, hfind, readAttr, hat.device_eq, hread]
      · rw [mapStep, toMap_of_at hs hat, bind_some, entry_attrs_of_at hs hat hl hsplit]
        rfl
    · refine habsent (fun n hn hid x hx => ?_) ?_
      · obtain rfl : n = (p, d) := hs.dev_inj hn hat.mem hid
        rw [attrs_of_list hl] at hx
        exact hmiss x hx
      · rw [toMap_of_at hs hat]
        exact entry_attrs_of_absent hl hmiss
  · refine habsent (fun n hn hid => absurd hid (hno n hn)) ?_
    rw [toMap_of_absent hno]
    rfl

theorem refines_of_safe (hs : Sound s) : (op : Op) → Safe s op → Refines s op
  | .add _ _, h => refines_add hs h
  | .del _, h => refines_del hs h
  | .attrAdd _ _, h => refines_attrAdd hs h
  | .attrDel _ _, h => refines_attrDel hs h
  | .attrClear _ _, h => refines_attrClear hs h
  | .clear _, h => refines_clear hs h
  | .find _, h => refines_find hs h
  | .attrFind _ _, h => refines_attrFind hs h

/-! ## A run of calls -/

/-- In a run of safe calls no block is touched that was given back, every answer is that of the
map, and the lists hold what the map holds. -/
theorem devList_refines_map (ucInitFlag : Bool) (ops : List Op)
    (h : Run.Along step Safe (newDevList ucInitFlag) ops) :
    ∃ s os, Run.run step (newDevList ucInitFlag) ops = some (s, os) ∧
      Run.run (mapStep ucInitFlag) (fun _ => none) ops = some (s.toMap, os) := by
  have hstep (s : DevList) (m : DevMap) (op : Op)
      (hr : Sound s ∧ s.ucInitFlag = ucInitFlag ∧ s.toMap = m) (hsafe : Safe s op) :
      ∃ s' m' o, step s op = some (s', o) ∧ mapStep ucInitFlag m op = some (m', o) ∧
        Sound s' ∧ s'.ucInitFlag = ucInitFlag ∧ s'.toMap = m' := by
    obtain ⟨hs, rfl, rfl⟩ := hr
    obtain ⟨s', o, hstep, hmap, hs', hflag⟩ := refines_of_safe hs op hsafe
    exact ⟨s', s'.toMap, o, hstep, hmap, hs', hflag, rfl⟩
  obtain ⟨s, m, os, hrun, hmap, -, -, rfl⟩ :=
    Run.simulates_along hstep ⟨sound_newDevList ucInitFlag, rfl, rfl⟩ h
  exact ⟨s, os, hrun, hmap⟩

theorem sound_of_run {ucInitFlag : Bool} {ops : List Op} {os : List Answer}
    (h : Run.Along step Safe (newDevList ucInitFlag) ops)
    (hrun : Run.run step (newDevList ucInitFlag) ops = some (s, os)) : Sound s := by
  refine Run.run_preserves_along (I := Sound) (fun s op s' o hs hsafe hstep => ?_)
    (sound_newDevList ucInitFlag) h hrun
  obtain ⟨s'', o', hstep', -, hs'', -⟩ := refines_of_safe hs op hsafe
  rw [hstep', some.injEq, Prod.mk.injEq] at hstep
  exact hstep.1 ▸ hs''

/-- Information without texts, for runs on fixed inputs. -/
def blankInfo : DevInfo := ⟨[], [], [], [], [], [], [], [], [], 0, 0, 0⟩

/-- Two devices, an attribute of each, and the first device gone again. -/
theorem devList_refines_map_two :
    ∃ s os, Run.run step (newDevList false)
      [.add ⟨['A'], by decide⟩ blankInfo, .add ⟨['B'], by decide⟩ blankInfo,
        .attrAdd ⟨['B'], by decide⟩ ⟨⟨['k'], by decide⟩, ⟨['1'], by decide⟩⟩,
        .attrFind ⟨['B'], by decide⟩ ⟨['k'], by decide⟩, .del ⟨['A'], by decide⟩,
        .find ⟨['A'], by decide⟩] = some (s, os) ∧
      Run.run (mapStep false) (fun _ => none)
      [.add ⟨['A'], by decide⟩ blankInfo, .add ⟨['B'], by decide⟩ blankInfo,
        .attrAdd ⟨['B'], by decide⟩ ⟨⟨['k'], by decide⟩, ⟨['1'], by decide⟩⟩,
        .attrFind ⟨['B'], by decide⟩ ⟨['k'], by decide⟩, .del ⟨['A'], by decide⟩,
        .find ⟨['A'], by decide⟩] = some (s.toMap, os) :=
  devList_refines_map false _ (by decide +kernel)

/-- The key of an attribute is read as the id of a device: `AB` was never added. -/
theorem find_attr_as_dev :
    ∃ s e m, Run.run step (newDevList false)
        [.add ⟨['A'], by decide⟩ blankInfo,
          .attrAdd ⟨['A'], by decide⟩ ⟨⟨['B'], by decide⟩, ⟨['1'], by decide⟩⟩,
          .find ⟨['A', 'B'], by decide⟩] =
        some (s, [.ret .noErr, .ret .noErr, .dev (some (⟨['A'], by decide⟩, e))]) ∧
      Run.run (mapStep false) (fun _ => none)
        [.add ⟨['A'], by decide⟩ blankInfo,
          .attrAdd ⟨['A'], by decide⟩ ⟨⟨['B'], by decide⟩, ⟨['1'], by decide⟩⟩,
          .find ⟨['A', 'B'], by decide⟩] =
        some (m, [.ret .noErr, .ret .noErr, .dev none]) :=
  ⟨_, _, _, rfl, rfl⟩

end Honyar.Devices
