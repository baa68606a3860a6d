import Honyar.Devices.DevSync

/-!
# The saving thread

Additions are written to the tables later, through messages that name blocks, and deletions at
once.  While a device or an attribute is not in the tables as it is in memory, a message names
its block; so nothing is left to write when no message is left, provided no block is given back
that a message names.
-/

namespace Honyar.Devices

open Option List Device DevList Store

variable {s s' : DevList} {p a : Nat} {d : Device} {as bs : List (Nat × Device)}
  {l : Listing DevAttrInfo}

variable {pcDevId : DevId} {t : Tables}

/-! ## The machine -/

/-- A call of the list or a step of the saving thread. -/
inductive Act where
  | add (pcDevId : DevId) (i : DevInfo)
  | attrAdd (pcDevId : DevId) (x : DevAttrInfo)
  | del (pcDevId : DevId)
  | attrDel (pcDevId : DevId) (pcAttrKey : AttrKey)
  | save

def actStep (s : DevList) : Act → Option (DevList × List Answer)
  | .add d i => step s (.add d i)
  | .attrAdd d x => step s (.attrAdd d x)
  | .del d => step s (.del d)
  | .attrDel d k => step s (.attrDel d k)
  | .save => s.dbSave.map fun s => (s, [])

/-- The device of a message. -/
def SaveTask.dev : SaveTask → Nat
  | .devAdd p | .attrAdd p _ => p

/-- No message names the device that is to be deleted. -/
def NotQueued (s : DevList) (pcDevId : DevId) : Prop :=
  ∀ n ∈ s.devs.nodes, n.2.acDevId = pcDevId → ∀ t ∈ s.saves, t.dev ≠ n.1

/-- The calls are safe, and a device is deleted only when it was saved. -/
def SaveSafe (s : DevList) : Act → Prop
  | .add d i => Safe s (.add d i)
  | .attrAdd d x => Safe s (.attrAdd d x)
  | .del d => Safe s (.del d) ∧ NotQueued s d
  | .attrDel d k => Safe s (.attrDel d k)
  | .save => True

instance (s : DevList) (d : DevId) : Decidable (NotQueued s d) :=
  inferInstanceAs (Decidable (∀ n ∈ s.devs.nodes, n.2.acDevId = d → ∀ t ∈ s.saves, t.dev ≠ n.1))

instance (s : DevList) : (act : Act) → Decidable (SaveSafe s act)
  | .add d i => inferInstanceAs (Decidable (Safe s (.add d i)))
  | .attrAdd d x => inferInstanceAs (Decidable (Safe s (.attrAdd d x)))
  | .del d => inferInstanceAs (Decidable (Safe s (.del d) ∧ NotQueued s d))
  | .attrDel d k => inferInstanceAs (Decidable (Safe s (.attrDel d k)))
  | .save => inferInstanceAs (Decidable True)

/-! ## What the messages and the tables stand for -/

/-- A message refers to a device that is there, and to an attribute it has. -/
def Refers (s : DevList) : SaveTask → Prop
  | .devAdd p => ∃ n ∈ s.devs.nodes, n.1 = p
  | .attrAdd p a => ∃ n ∈ s.devs.nodes, n.1 = p ∧ ∃ x ∈ n.2.attrs, x.1 = a

/-- The rows of the attributes in memory. -/
def DevList.attrRecords (s : DevList) : List ((DevId × AttrKey) × AttrValue) :=
  s.devs.nodes.flatMap fun n => n.2.attrs.map fun x => ((n.2.acDevId, x.2.acKey), x.2.acValue)

/-- Every message refers to something that is there, the tables have rows for nothing else than
what is there, and where a row is not up to date, or there is none, a message waits. -/
structure Saved (s : DevList) : Prop where
  sound : Sound s
  refers : ∀ t ∈ s.saves, Refers s t
  devKeys : (s.db.dev.map Prod.fst).Nodup
  devRows : ∀ r ∈ s.db.dev, ∃ n ∈ s.devs.nodes, n.2.acDevId = r.1
  devSaved : ∀ n ∈ s.devs.nodes,
    (n.2.acDevId, n.2.stDevInfo) ∈ s.db.dev ∨ .devAdd n.1 ∈ s.saves
  attrKeys : (s.db.attr.map Prod.fst).Nodup
  attrRows : ∀ r ∈ s.db.attr, ∃ n ∈ s.devs.nodes, ∃ x ∈ n.2.attrs,
    (n.2.acDevId, x.2.acKey) = r.1
  attrSaved : ∀ n ∈ s.devs.nodes, ∀ x ∈ n.2.attrs,
    ((n.2.acDevId, x.2.acKey), x.2.acValue) ∈ s.db.attr ∨ .attrAdd n.1 x.1 ∈ s.saves

theorem saved_newDevList (b : Bool) : Saved (newDevList b) where
  sound := sound_newDevList b
  refers := by simp [newDevList]
  devKeys := nodup_nil
  devRows := by simp [newDevList]
  devSaved := by simp [newDevList, Listing.empty]
  attrKeys := nodup_nil
  attrRows := by simp [newDevList]
  attrSaved := by simp [newDevList, Listing.empty]

theorem perm_of_rows {κ γ : Type} {rows recs : List (κ × γ)} (hrows : (rows.map Prod.fst).Nodup)
    (hrecs : (recs.map Prod.fst).Nodup) (hsub : ∀ r ∈ recs, r ∈ rows)
    (hof : ∀ r ∈ rows, r.1 ∈ recs.map Prod.fst) : rows.Perm recs := by
  refine (perm_ext_iff_of_nodup (List.Nodup.of_map _ hrows) (List.Nodup.of_map _ hrecs)).mpr
    fun r => ⟨fun hr => ?_, hsub r⟩
  obtain ⟨r', hr', hkey⟩ := mem_map.mp (hof r hr)
  rwa [← inj_on_of_nodup_map hrows (hsub r' hr') hr hkey]

theorem Sound.nodup_attrRecords (hs : Sound s) : (s.attrRecords.map Prod.fst).Nodup := by
  have hkeys : (s.attrRecords.map fun r => attrKey r.1.1 r.1.2).Sublist
      ((s.devs.nodes.flatMap entriesOf).map Prod.fst) := by
    rw [attrRecords, map_flatMap, map_flatMap]
    generalize s.devs.nodes = ns
    induction ns with
    | nil => exact List.Sublist.slnil
    | cons n ns ih =>
      rw [flatMap_cons, flatMap_cons]
      refine List.Sublist.append ?_ ih
      rw [entriesOf, map_cons, List.map_map, List.map_map]
      exact sublist_cons_self _ _
  have hnd := hs.mirror.nodup.sublist hkeys
  have hcomp : (s.attrRecords.map fun r => attrKey r.1.1 r.1.2) =
      (s.attrRecords.map Prod.fst).map fun k => attrKey k.1 k.2 := by
    rw [List.map_map]
    rfl
  rw [hcomp] at hnd
  exact List.Nodup.of_map _ hnd

theorem Saved.tables (h : Saved s) (hempty : s.saves = []) :
    s.db.dev.Perm s.records ∧ s.db.attr.Perm s.attrRecords := by
  constructor
  · refine perm_of_rows h.devKeys ?_ ?_ ?_
    · rw [records, List.map_map]
      exact h.sound.nodup_ids
    · intro r hr
      obtain ⟨n, hn, rfl⟩ := List.mem_map.mp hr
      exact (h.devSaved n hn).resolve_right (by simp [hempty])
    · intro r hr
      obtain ⟨n, hn, hid⟩ := h.devRows r hr
      rw [records, List.map_map]
      exact List.mem_map.mpr ⟨n, hn, hid⟩
  · refine perm_of_rows h.attrKeys h.sound.nodup_attrRecords ?_ ?_
    · intro r hr
      obtain ⟨n, hn, hmem⟩ := mem_flatMap.mp hr
      obtain ⟨x, hx, rfl⟩ := List.mem_map.mp hmem
      exact (h.attrSaved n hn x hx).resolve_right (by simp [hempty])
    · intro r hr
      obtain ⟨n, hn, x, hx, hkey⟩ := h.attrRows r hr
      exact List.mem_map.mpr ⟨((n.2.acDevId, x.2.acKey), x.2.acValue),
        mem_flatMap.mpr ⟨n, hn, List.mem_map.mpr ⟨x, hx, rfl⟩⟩, hkey⟩

/-! ## Calls that only add -/

/-- Additions keep devices and attributes in their blocks, and queue a message for everything
they write. -/
structure Grown (s s' : DevList) (saves : List SaveTask) : Prop where
  sound : Sound s'
  db : s'.db = s.db
  saves_eq : s'.saves = s.saves ++ saves
  kept : ∀ n ∈ s.devs.nodes, ∃ n' ∈ s'.devs.nodes, n'.1 = n.1 ∧ n'.2.acDevId = n.2.acDevId ∧
    ∀ x ∈ n.2.attrs, ∃ x' ∈ n'.2.attrs, x'.1 = x.1 ∧ x'.2.acKey = x.2.acKey
  devOld : ∀ n' ∈ s'.devs.nodes, .devAdd n'.1 ∈ saves ∨ ∃ n ∈ s.devs.nodes, n.1 = n'.1 ∧
    n.2.acDevId = n'.2.acDevId ∧ n.2.stDevInfo = n'.2.stDevInfo
  attrOld : ∀ n' ∈ s'.devs.nodes, ∀ x' ∈ n'.2.attrs, .attrAdd n'.1 x'.1 ∈ saves ∨
    ∃ n ∈ s.devs.nodes, n.1 = n'.1 ∧ n.2.acDevId = n'.2.acDevId ∧ x' ∈ n.2.attrs
  refers : ∀ t ∈ saves, Refers s' t

theorem Saved.grow {saves : List SaveTask} (h : Saved s) (hg : Grown s s' saves) : Saved s' where
  sound := hg.sound
  refers := by
    intro t ht
    rw [hg.saves_eq, mem_append] at ht
    rcases ht with ht | ht
    · have href := h.refers t ht
      cases t with
      | devAdd p =>
        obtain ⟨n, hn, rfl⟩ := href
        obtain ⟨n', hn', haddr, -⟩ := hg.kept n hn
        exact ⟨n', hn', haddr⟩
      | attrAdd p a =>
        obtain ⟨n, hn, rfl, x, hx, rfl⟩ := href
        obtain ⟨n', hn', haddr, -, hattrs⟩ := hg.kept n hn
        obtain ⟨x', hx', haddr', -⟩ := hattrs x hx
        exact ⟨n', hn', haddr, x', hx', haddr'⟩
    · exact hg.refers t ht
  devKeys := by
    rw [hg.db]
    exact h.devKeys
  devRows := by
    intro r hr
    rw [hg.db] at hr
    obtain ⟨n, hn, hid⟩ := h.devRows r hr
    obtain ⟨n', hn', -, hid', -⟩ := hg.kept n hn
    exact ⟨n', hn', hid'.trans hid⟩
  devSaved := by
    intro n' hn'
    rw [hg.saves_eq, hg.db, mem_append]
    rcases hg.devOld n' hn' with hnew | ⟨n, hn, haddr, hid, hinfo⟩
    · exact .inr (.inr hnew)
    · rw [← haddr, ← hid, ← hinfo]
      exact (h.devSaved n hn).imp_right .inl
  attrKeys := by
    rw [hg.db]
    exact h.attrKeys
  attrRows := by
    intro r hr
    rw [hg.db] at hr
    obtain ⟨n, hn, x, hx, hkey⟩ := h.attrRows r hr
    obtain ⟨n', hn', -, hid', hattrs⟩ := hg.kept n hn
    obtain ⟨x', hx', -, hkey'⟩ := hattrs x hx
    exact ⟨n', hn', x', hx', by rw [hid', hkey', hkey]⟩
  attrSaved := by
    intro n' hn' x' hx'
    rw [hg.saves_eq, hg.db, mem_append]
    rcases hg.attrOld n' hn' x' hx' with hnew | ⟨n, hn, haddr, hid, hx⟩
    · exact .inr (.inr hnew)
    · rw [← haddr, ← hid]
      exact (h.attrSaved n hn x' hx).imp_right .inl

theorem grown_of_replaced (h : DevAt s p d as bs) {d' : Device} {saves : List SaveTask}
    (hout : Outcome s s' (as ++ (p, d') :: bs) saves s.db) (hid : d'.acDevId = d.acDevId)
    (hdev : .devAdd p ∈ saves)
    (hkept : ∀ x ∈ d.attrs, ∃ x' ∈ d'.attrs, x'.1 = x.1 ∧ x'.2.acKey = x.2.acKey)
    (hold : ∀ x' ∈ d'.attrs, .attrAdd p x'.1 ∈ saves ∨ x' ∈ d.attrs)
    (href : ∀ t ∈ saves, t = .devAdd p ∨ ∃ x' ∈ d'.attrs, t = .attrAdd p x'.1) :
    Grown s s' saves := by
  have hat' : DevAt s' p d' as bs := ⟨hout.nodes_eq, h.before, h.behind⟩
  have hother {n : Nat × Device} : n ∈ as ∨ n ∈ bs → n ∈ s.devs.nodes ∧ n ∈ s'.devs.nodes := by
    intro hn
    rw [h.nodes, hat'.nodes]
    simp only [mem_append, mem_cons]
    exact ⟨hn.imp_right .inr, hn.imp_right .inr⟩
  refine ⟨hout.sound, hout.db_eq, hout.saves_eq, fun n hn => ?_, fun n hn => ?_, fun n hn => ?_,
    fun t ht => ?_⟩
  · rw [h.nodes, mem_append, mem_cons] at hn
    rcases hn with hn | rfl | hn
    · exact ⟨n, (hother (.inl hn)).2, rfl, rfl, fun x hx => ⟨x, hx, rfl, rfl⟩⟩
    · exact ⟨(p, d'), hat'.mem, rfl, hid, hkept⟩
    · exact ⟨n, (hother (.inr hn)).2, rfl, rfl, fun x hx => ⟨x, hx, rfl, rfl⟩⟩
  · rw [hat'.nodes, mem_append, mem_cons] at hn
    rcases hn with hn | rfl | hn
    · exact .inr ⟨n, (hother (.inl hn)).1, rfl, rfl, rfl⟩
    · exact .inl hdev
    · exact .inr ⟨n, (hother (.inr hn)).1, rfl, rfl, rfl⟩
  · rw [hat'.nodes, mem_append, mem_cons] at hn
    intro x' hx'
    rcases hn with hn | rfl | hn
    · exact .inr ⟨n, (hother (.inl hn)).1, rfl, rfl, hx'⟩
    · exact (hold x' hx').imp_right fun hx => ⟨(p, d), h.mem, rfl, hid.symm, hx⟩
    · exact .inr ⟨n, (hother (.inr hn)).1, rfl, rfl, hx'⟩
  · rcases href t ht with rfl | ⟨x', hx', rfl⟩
    · exact ⟨(p, d'), hat'.mem, rfl⟩
    · exact ⟨(p, d'), hat'.mem, rfl, x', hx', rfl⟩

theorem grown_of_added (hattrs : d.attrs = [])
    (hout : Outcome s s' (s.devs.nodes ++ [(p, d)]) [.devAdd p] s.db) :
    Grown s s' [.devAdd p] := by
  refine ⟨hout.sound, hout.db_eq, hout.saves_eq, fun n hn => ?_, fun n hn => ?_, fun n hn => ?_,
    fun t ht => ?_⟩
  · refine ⟨n, ?_, rfl, rfl, fun x hx => ⟨x, hx, rfl, rfl⟩⟩
    rw [hout.nodes_eq]
    exact mem_append_left _ hn
  · rw [hout.nodes_eq, mem_append, mem_singleton] at hn
    rcases hn with hn | rfl
    · exact .inr ⟨n, hn, rfl, rfl, rfl⟩
    · exact .inl (by simp)
  · rw [hout.nodes_eq, mem_append, mem_singleton] at hn
    intro x' hx'
    rcases hn with hn | rfl
    · exact .inr ⟨n, hn, rfl, rfl, hx'⟩
    · rw [hattrs] at hx'
      cases hx'
  · obtain rfl := mem_singleton.mp ht
    refine ⟨(p, d), ?_, rfl⟩
    rw [hout.nodes_eq]
    simp

theorem Saved.add (h : Saved s) {i : DevInfo} (hsafe : Safe s (.add pcDevId i)) :
    ∃ s' o, step s (.add pcDevId i) = some (s', o) ∧ Saved s' := by
  rcases devAt_or_absent s pcDevId with ⟨p, d, as, bs, hat, rfl⟩ | hno
  · obtain ⟨s', hadd, hout⟩ := add_live h.sound hat i
    refine ⟨s', _, by rw [step, hadd]; rfl, h.grow (grown_of_replaced hat hout rfl ?_ ?_ ?_ ?_)⟩
    · simp
    · exact fun x hx => ⟨x, hx, rfl, rfl⟩
    · exact fun x hx => .inr hx
    · simp
  · obtain ⟨s', hadd, hout⟩ := add_new h.sound hsafe.1 hno hsafe.2 i
    exact ⟨s', _, by rw [step, hadd]; rfl, h.grow (grown_of_added rfl hout)⟩

theorem Saved.attrAdd (h : Saved s) {x : DevAttrInfo} (hsafe : Safe s (.attrAdd pcDevId x)) :
    ∃ s' o, step s (.attrAdd pcDevId x) = some (s', o) ∧ Saved s' := by
  obtain ⟨hapart, hsafe⟩ := hsafe
  rcases devAt_or_absent s pcDevId with ⟨p, d, as, bs, hat, rfl⟩ | hno
  · obtain ⟨l, hl⟩ := ne_none_iff_exists'.mp (h.sound.listed _ hat.mem)
    rcases attrAt_or_absent l x.acKey with ⟨a, y, xs, ys, hsplit, hkey⟩ | hmiss
    · obtain ⟨s', l', hadd, hl', hout⟩ := attrAdd_live h.sound hat hl hsplit hkey
      refine ⟨s', _, by rw [step, hadd]; rfl, h.grow (grown_of_replaced hat hout rfl ?_ ?_ ?_ ?_)⟩
      · simp
      · intro z hz
        rw [attrs_of_list hl, hsplit, mem_append, mem_cons] at hz
        rw [attrs_of_list rfl, hl']
        rcases hz with hz | rfl | hz
        · exact ⟨z, mem_append_left _ hz, rfl, rfl⟩
        · exact ⟨(a, x), by simp, rfl, hkey.symm⟩
        · exact ⟨z, mem_append_right _ (mem_cons_of_mem _ hz), rfl, rfl⟩
      · intro z hz
        rw [attrs_of_list rfl, hl', mem_append, mem_cons] at hz
        rw [attrs_of_list hl, hsplit]
        rcases hz with hz | rfl | hz
        · exact .inr (mem_append_left _ hz)
        · exact .inl (by simp)
        · exact .inr (mem_append_right _ (mem_cons_of_mem _ hz))
      · rw [attrs_of_list rfl, hl']
        rintro t ht
        rcases mem_cons.mp ht with rfl | ht
        · exact .inl rfl
        · exact .inr ⟨(a, x), by simp, mem_singleton.mp ht⟩
    · have hgone : l.gone = false := by
        rcases hsafe with ⟨n, hn, hid, y, hy, hkey⟩ | ⟨-, hclear⟩
        · obtain rfl : n = (p, d) := h.sound.dev_inj hn hat.mem hid
          rw [attrs_of_list hl] at hy
          exact absurd hkey (hmiss y hy)
        · exact not_cleared_of_at hat hclear hl
      obtain ⟨s', l', hadd, hl', hout⟩ := attrAdd_new h.sound hat hl hapart hmiss hgone
      refine ⟨s', _, by rw [step, hadd]; rfl, h.grow (grown_of_replaced hat hout rfl ?_ ?_ ?_ ?_)⟩
      · simp
      · intro z hz
        rw [attrs_of_list hl] at hz
        rw [attrs_of_list rfl, hl']
        exact ⟨z, mem_append_left _ hz, rfl, rfl⟩
      · intro z hz
        rw [attrs_of_list rfl, hl', mem_append, mem_singleton] at hz
        rw [attrs_of_list hl]
        rcases hz with hz | rfl
        · exact .inr hz
        · exact .inl (by simp)
      · rw [attrs_of_list rfl, hl']
        simp
  · have hdev : DevApart s pcDevId := by
      rcases hsafe with ⟨n, hn, hid, -⟩ | ⟨hdev, -⟩
      · exact absurd hid (hno n hn)
      · exact hdev
    exact ⟨s, _, by rw [step, attrAdd_none h.sound hdev hno hapart]; rfl, h⟩

theorem Saved.attrDel (h : Saved s) {pcAttrKey : AttrKey}
    (hsafe : Safe s (.attrDel pcDevId pcAttrKey)) :
    ∃ s' o, step s (.attrDel pcDevId pcAttrKey) = some (s', o) ∧ Saved s' := by
  have hnone := h.sound.attrFind_of_not_mem hsafe.1 fun n hn hid x hx hkey =>
    hsafe.2 ⟨n, hn, hid, x, hx, hkey⟩
  exact ⟨s, _, by rw [step, DevList.attrDel, hnone]; rfl, h⟩

/-! ## Deletions -/

theorem mem_dev_allDel {r : DevId × DevInfo} :
    r ∈ (t.allDel d).dev ↔ r ∈ t.dev ∧ r.1 ≠ d.acDevId := by
  have hdev : ∀ (xs : List DevAttrInfo) (t : Tables),
      (xs.foldl (fun t x => t.attrDel d.acDevId x.acKey) t).dev = t.dev := by
    intro xs
    induction xs with
    | nil => exact fun t => rfl
    | cons x xs ih => exact fun t => ih _
  rw [Tables.allDel, Tables.devDel, mem_remove, Tables.attrsDel, hdev]

theorem mem_attr_allDel {r : (DevId × AttrKey) × AttrValue} :
    r ∈ (t.allDel d).attr ↔ r ∈ t.attr ∧ ∀ x ∈ d.attrs, r.1 ≠ (d.acDevId, x.2.acKey) := by
  have hattr : ∀ (xs : List DevAttrInfo) (t : Tables),
      r ∈ (xs.foldl (fun t x => t.attrDel d.acDevId x.acKey) t).attr ↔
        r ∈ t.attr ∧ ∀ x ∈ xs, r.1 ≠ (d.acDevId, x.acKey) := by
    intro xs
    induction xs with
    | nil => simp
    | cons x xs ih =>
      intro t
      rw [foldl_cons, ih, Tables.attrDel, Store.mem_remove, forall_mem_cons, and_assoc]
  rw [Tables.allDel, Tables.devDel, Tables.attrsDel, hattr, List.forall_mem_map]

theorem nodup_allDel (hdev : (t.dev.map Prod.fst).Nodup) (hattr : (t.attr.map Prod.fst).Nodup) :
    ((t.allDel d).dev.map Prod.fst).Nodup ∧ ((t.allDel d).attr.map Prod.fst).Nodup := by
  have hfold : ∀ (xs : List DevAttrInfo) (t : Tables),
      (t.dev.map Prod.fst).Nodup → (t.attr.map Prod.fst).Nodup →
        ((xs.foldl (fun t x => t.attrDel d.acDevId x.acKey) t).dev.map Prod.fst).Nodup ∧
          ((xs.foldl (fun t x => t.attrDel d.acDevId x.acKey) t).attr.map Prod.fst).Nodup := by
    intro xs
    induction xs with
    | nil => exact fun t hd ha => ⟨hd, ha⟩
    | cons x xs ih => exact fun t hd ha => ih _ hd (nodup_remove ha _)
  obtain ⟨hd, ha⟩ := hfold (d.attrs.map Prod.snd) t hdev hattr
  exact ⟨nodup_remove hd _, ha⟩

theorem Saved.del (h : Saved s) (hsafe : Safe s (.del pcDevId)) (hqueue : NotQueued s pcDevId) :
    ∃ s' o, step s (.del pcDevId) = some (s', o) ∧ Saved s' := by
  obtain ⟨hapart, hclear⟩ := hsafe
  rcases devAt_or_absent s pcDevId with ⟨p, d, as, bs, hat, rfl⟩ | hno
  · obtain ⟨l, hl⟩ := ne_none_iff_exists'.mp (h.sound.listed _ hat.mem)
    obtain ⟨s', hdel, hout⟩ := del_live h.sound hat hl (not_cleared_of_at hat hclear hl)
    refine ⟨s', _, by rw [step, hdel]; rfl, ?_⟩
    have hleft {n : Nat × Device} : n ∈ s'.devs.nodes ↔ n ∈ s.devs.nodes ∧ n ≠ (p, d) := by
      rw [hout.nodes_eq, hat.nodes]
      simp only [mem_append, mem_cons]
      constructor
      · intro hn
        refine ⟨hn.imp_right .inr, ?_⟩
        rintro rfl
        rcases hn with hn | hn
        · exact hat.before (mem_map_of_mem (f := Prod.fst) hn)
        · exact hat.behind (mem_map_of_mem (f := Prod.fst) hn)
      · rintro ⟨hn | rfl | hn, hne⟩
        · exact .inl hn
        · exact absurd rfl hne
        · exact .inr hn
    have hid {n : Nat × Device} (hn : n ∈ s'.devs.nodes) : n.2.acDevId ≠ d.acDevId := fun heq =>
      (hleft.mp hn).2 (h.sound.dev_inj (hleft.mp hn).1 hat.mem heq)
    have hsaves : s'.saves = s.saves := by rw [hout.saves_eq, append_nil]
    obtain ⟨hdevKeys, hattrKeys⟩ := nodup_allDel (d := d) h.devKeys h.attrKeys
    refine ⟨hout.sound, fun t ht => ?_, hout.db_eq ▸ hdevKeys, fun r hr => ?_, fun n hn => ?_,
      hout.db_eq ▸ hattrKeys, fun r hr => ?_, fun n hn x hx => ?_⟩
    · rw [hsaves] at ht
      have hne := hqueue (p, d) hat.mem rfl t ht
      have href := h.refers t ht
      cases t with
      | devAdd q =>
        obtain ⟨n, hn, rfl⟩ := href
        exact ⟨n, hleft.mpr ⟨hn, fun heq => hne (by rw [heq]; rfl)⟩, rfl⟩
      | attrAdd q a =>
        obtain ⟨n, hn, rfl, hx⟩ := href
        exact ⟨n, hleft.mpr ⟨hn, fun heq => hne (by rw [heq]; rfl)⟩, rfl, hx⟩
    · rw [hout.db_eq, mem_dev_allDel] at hr
      obtain ⟨n, hn, hnid⟩ := h.devRows r hr.1
      refine ⟨n, hleft.mpr ⟨hn, fun heq => hr.2 ?_⟩, hnid⟩
      rw [← hnid, heq]
    · rw [hsaves, hout.db_eq, mem_dev_allDel]
      exact (h.devSaved n (hleft.mp hn).1).imp_left fun hr => ⟨hr, hid hn⟩
    · rw [hout.db_eq, mem_attr_allDel] at hr
      obtain ⟨n, hn, x, hx, hkey⟩ := h.attrRows r hr.1
      refine ⟨n, hleft.mpr ⟨hn, ?_⟩, x, hx, hkey⟩
      rintro rfl
      exact hr.2 x hx hkey.symm
    · rw [hsaves, hout.db_eq, mem_attr_allDel]
      refine (h.attrSaved n (hleft.mp hn).1 x hx).imp_left fun hr => ⟨hr, fun y _ heq => ?_⟩
      exact hid hn (Prod.mk.inj heq).1
  · exact ⟨s, _, by rw [step, del_none h.sound hapart hno]; rfl, h⟩

/-! ## A step of the saving thread -/

theorem Saved.save (h : Saved s) : ∃ s', s.dbSave = some s' ∧ Saved s' := by
  cases hq : s.saves with
  | nil => exact ⟨s, by rw [dbSave, hq], h⟩
  | cons t saves =>
    have href := h.refers t (by simp [hq])
    have hrest : ∀ t ∈ saves, Refers s t := fun t ht =>
      h.refers t (by rw [hq]; exact mem_cons_of_mem _ ht)
    cases t with
    | devAdd p =>
      obtain ⟨⟨p, d⟩, hn, rfl⟩ := href
      have hdev : s.device p = some d := Sound.device_eq hn
      refine ⟨{ s with saves := saves, db := s.db.devAdd d },
        by simp [dbSave, hq, hdev], ?_⟩
      exact
        { sound := ⟨h.sound.listed, h.sound.mirror⟩
          refers := hrest
          devKeys := nodup_put h.devKeys _
          devRows := by
            intro r hr
            rcases mem_put.mp hr with rfl | ⟨hr, -⟩
            · exact ⟨(p, d), hn, rfl⟩
            · exact h.devRows r hr
          devSaved := by
            intro n hmem
            by_cases hid : n.2.acDevId = d.acDevId
            · obtain rfl : n = (p, d) := h.sound.dev_inj hmem hn hid
              exact .inl (mem_put.mpr (.inl rfl))
            · rcases h.devSaved n hmem with hrow | hwait
              · exact .inl (mem_put.mpr (.inr ⟨hrow, hid⟩))
              · rw [hq, mem_cons, SaveTask.devAdd.injEq] at hwait
                refine .inr (hwait.resolve_left fun haddr => hid ?_)
                rw [inj_on_of_nodup_map s.devs.nodup hmem hn haddr]
          attrKeys := h.attrKeys
          attrRows := h.attrRows
          attrSaved := by
            intro n hmem x hx
            refine (h.attrSaved n hmem x hx).imp_right fun hwait => ?_
            rw [hq, mem_cons] at hwait
            exact hwait.resolve_left (by simp) }
    | attrAdd p a =>
      obtain ⟨⟨p, d⟩, hn, rfl, ⟨a, x⟩, hx, rfl⟩ := href
      have hdev : s.device p = some d := Sound.device_eq hn
      obtain ⟨l, hl⟩ := ne_none_iff_exists'.mp (h.sound.listed _ hn)
      have hattr : s.attr p a = some x := by
        rw [attrs_of_list hl] at hx
        rw [attr, attrList, hdev]
        simp only [bind_eq_bind, bind_some]
        rw [show d.pstDevAttrList = some l from hl]
        exact Listing.data_eq_some hx
      refine ⟨{ s with saves := saves, db := s.db.attrAdd d.acDevId x },
        by simp [dbSave, hq, hdev, hattr], ?_⟩
      exact
        { sound := ⟨h.sound.listed, h.sound.mirror⟩
          refers := hrest
          devKeys := h.devKeys
          devRows := h.devRows
          devSaved := by
            intro n hmem
            refine (h.devSaved n hmem).imp_right fun hwait => ?_
            rw [hq, mem_cons] at hwait
            exact hwait.resolve_left (by simp)
          attrKeys := nodup_put h.attrKeys _
          attrRows := by
            intro r hr
            rcases mem_put.mp hr with rfl | ⟨hr, -⟩
            · exact ⟨(p, d), hn, (a, x), hx, rfl⟩
            · exact h.attrRows r hr
          attrSaved := by
            intro n hmem z hz
            by_cases hboth : (n.2.acDevId, z.2.acKey) = (d.acDevId, x.acKey)
            · obtain ⟨hid, hkey⟩ := Prod.mk.inj hboth
              obtain rfl : n = (p, d) := h.sound.dev_inj hmem hn hid
              have haddr := (h.sound.attr_inj hn hn hz hx (by rw [hkey])).2
              rw [attrs_of_list hl] at hz hx
              obtain rfl : z = (a, x) := inj_on_of_nodup_map l.nodup hz hx haddr
              exact .inl (mem_put.mpr (.inl rfl))
            · rcases h.attrSaved n hmem z hz with hrow | hwait
              · exact .inl (mem_put.mpr (.inr ⟨hrow, hboth⟩))
              · rw [hq, mem_cons, SaveTask.attrAdd.injEq] at hwait
                refine .inr (hwait.resolve_left fun haddr => hboth ?_)
                obtain rfl := inj_on_of_nodup_map s.devs.nodup hmem hn haddr.1
                rw [attrs_of_list hl] at hz hx
                rw [inj_on_of_nodup_map l.nodup hz hx haddr.2] }

/-! ## A run -/

theorem Saved.act (h : Saved s) (act : Act) (hsafe : SaveSafe s act) :
    ∃ s' o, actStep s act = some (s', o) ∧ Saved s' := by
  cases act with
  | add d i => exact h.add hsafe
  | attrAdd d x => exact h.attrAdd hsafe
  | del d => exact h.del hsafe.1 hsafe.2
  | attrDel d k => exact h.attrDel hsafe
  | save =>
    obtain ⟨s', hsave, hs'⟩ := h.save
    exact ⟨s', [], by rw [actStep, hsave]; rfl, hs'⟩

/-- In a run that deletes no device a message names, every message names something that is
there, and with none left the tables hold what is in memory. -/
theorem saves_follow_list (ucInitFlag : Bool) (acts : List Act)
    (h : Run.Along actStep SaveSafe (newDevList ucInitFlag) acts) :
    ∃ s os, Run.run actStep (newDevList ucInitFlag) acts = some (s, os) ∧
      (∀ t ∈ s.saves, Refers s t) ∧
      (s.saves = [] → s.db.dev.Perm s.records ∧ s.db.attr.Perm s.attrRecords) := by
  obtain ⟨s, os, hrun, hs⟩ :=
    Run.run_progress_along (fun _ act hs hsafe => Saved.act hs act hsafe)
      (saved_newDevList ucInitFlag) h
  exact ⟨s, os, hrun, hs.refers, hs.tables⟩

/-- A device with an attribute is saved, and deleted after that. -/
theorem saves_follow_list_one :
    ∃ s os, Run.run actStep (newDevList false)
        [.add ⟨['A'], by decide⟩ blankInfo,
          .attrAdd ⟨['A'], by decide⟩ ⟨⟨['k'], by decide⟩, ⟨['1'], by decide⟩⟩,
          .save, .save, .save, .del ⟨['A'], by decide⟩] = some (s, os) ∧
      (∀ t ∈ s.saves, Refers s t) ∧
      (s.saves = [] → s.db.dev.Perm s.records ∧ s.db.attr.Perm s.attrRecords) :=
  saves_follow_list false _ (by decide +kernel)

/-- The device is deleted before it was saved: the message names a block that was given back,
and carrying it out touches that block. -/
theorem save_after_del :
    ∃ s os p, Run.run actStep (newDevList false)
        [.add ⟨['A'], by decide⟩ blankInfo, .del ⟨['A'], by decide⟩] = some (s, os) ∧
      s.saves = [.devAdd p] ∧ ¬ Refers s (.devAdd p) ∧ actStep s .save = none := by
  refine ⟨_, _, 0, rfl, rfl, ?_, rfl⟩
  rintro ⟨n, hn, -⟩
  cases hn

end Honyar.Devices
