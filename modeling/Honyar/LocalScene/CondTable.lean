import Honyar.LocalScene.CondRows

/-!
# What the table holds of a list

The rows of a list are those of some conditions, one for one.  Each statement does to them what
its words say, leaves the rows of the other lists, and a reader gives back what it has room for.
-/

namespace Honyar.LocalScene

open CText Option List CondRow TimeCond EventCond

variable {l l' : Logic} {k k' : Kind} {id : CText} {rows rows' : List CondRow} {c d : Cond k}
variable {cs : List (Cond k)}
variable {cs' : List (Cond k')}

/-- The rows of a list are those of the conditions. -/
def Shows (id : CText) (l : Logic) (k : Kind) (rows : List CondRow) (cs : List (Cond k)) : Prop :=
  rows.filter (CondRow.isOf id l k) = cs.map (Cond.row id l)

/-! ## One row -/

theorem Logic.text_injective : Function.Injective Logic.text := by
  intro l l' h
  cases l <;> cases l' <;> first | rfl | exact absurd h (by decide)

theorem Kind.text_injective : Function.Injective Kind.text := by
  intro k k' h
  cases k <;> cases k' <;> first | rfl | exact absurd h (by decide)

theorem CondRow.isOf_row (id' : CText) (l' : Logic) (k' : Kind) :
    (c.row id l).isOf id' l' k' = true ↔ id = id' ∧ l' = l ∧ k' = k := by
  have hrow : (c.row id l).id = id ∧ (c.row id l).logic = l.text ∧
      (c.row id l).condType = k.text := by
    cases k <;> exact ⟨rfl, rfl, rfl⟩
  obtain ⟨hid, hlogic, htype⟩ := hrow
  rw [isOf, decide_eq_true_eq, hid, hlogic, htype]
  exact and_congr_right fun _ => and_congr
    ⟨fun h => (Logic.text_injective h).symm, fun h => by rw [h]⟩
    ⟨fun h => (Kind.text_injective h).symm, fun h => by rw [h]⟩

theorem CondRow.isFor_row : (d.row id l).isFor c = true ↔ d.SameId c := by
  cases k <;> simp [isFor, Cond.row, Cond.SameId]

theorem CondRow.set_row (h : d.SameId c) : (d.row id l).set c = c.row id l := by
  cases k with
  | time =>
    have h : acTimeKey d = acTimeKey c := h
    simp [set, Cond.row, h]
  | event =>
    obtain ⟨hdev, hkey⟩ : acDevId d = acDevId c ∧
      acKey d = acKey c := h
    simp [set, Cond.row, hdev, hkey]

theorem CondRow.isOf_set (row : CondRow) (id' : CText) (l' : Logic) (k' : Kind) :
    (row.set c).isOf id' l' k' = row.isOf id' l' k' := by
  cases k <;> rfl

/-! ## Statements -/

theorem statement_eq {texts : List CText} (h : statement texts rows = some rows') :
    rows' = rows := by
  rw [statement] at h
  split at h
  · exact (some.inj h).symm
  · cases h

theorem CondRow.isOf_other {row : CondRow} (h : row.isOf id l k = true)
    (hne : ¬ (l' = l ∧ k' = k)) : row.isOf id l' k' = false := by
  rw [isOf, decide_eq_true_eq] at h
  refine decide_eq_false ?_
  rintro ⟨-, hlogic, htype⟩
  refine hne ⟨Logic.text_injective (hlogic.symm.trans h.2.1), ?_⟩
  exact Kind.text_injective (htype.symm.trans h.2.2)

theorem Shows.add (h : Shows id l k rows cs) (hadd : condAddDb id l c rows = some rows') :
    Shows id l k rows' (cs ++ [c]) := by
  rw [statement_eq hadd, Shows, filter_append, map_append, h]
  have hrow : (c.row id l).isOf id l k = true := (isOf_row ..).mpr ⟨rfl, rfl, rfl⟩
  rw [filter_singleton, hrow]
  rfl

theorem Shows.add_other (h : Shows id l' k' rows cs') (hne : ¬ (l' = l ∧ k' = k))
    (hadd : condAddDb id l c rows = some rows') : Shows id l' k' rows' cs' := by
  rw [statement_eq hadd, Shows, filter_append, h]
  have hrow : (c.row id l).isOf id l' k' = false := Bool.eq_false_iff.mpr fun hrow =>
    hne ((isOf_row ..).mp hrow).2
  rw [filter_singleton, hrow]
  exact append_nil _

theorem filter_change (f : CondRow → CondRow)
    (hf : ∀ row, (f row).isOf id l k = row.isOf id l k) :
    (rows.map f).filter (CondRow.isOf id l k) = (rows.filter (CondRow.isOf id l k)).map f := by
  rw [List.filter_map]
  exact congrArg (List.map f) (filter_congr fun row _ => hf row)

theorem Shows.set (h : Shows id l k rows cs) (hset : condSetDb id l c rows = some rows') :
    Shows id l k rows' (cs.map fun d => if d.SameId c then c else d) := by
  rw [statement_eq hset, Shows, filter_change, h, List.map_map, List.map_map]
  · refine map_congr_left fun d _ => ?_
    have hof : (d.row id l).isOf id l k = true := (isOf_row ..).mpr ⟨rfl, rfl, rfl⟩
    simp only [Function.comp_apply, hof, true_and, isFor_row]
    by_cases hid : d.SameId c
    · rw [if_pos hid, if_pos hid, set_row hid]
    · rw [if_neg hid, if_neg hid]
  · intro row
    split
    · exact isOf_set row id l k
    · rfl

theorem Shows.set_other (h : Shows id l' k' rows cs') (hne : ¬ (l' = l ∧ k' = k))
    (hset : condSetDb id l c rows = some rows') : Shows id l' k' rows' cs' := by
  rw [statement_eq hset, Shows, filter_change, ← h]
  · refine (map_congr_left fun row hrow => ?_).trans (List.map_id _)
    have hother := isOf_other (mem_filter.mp hrow).2 fun h => hne ⟨h.1.symm, h.2.symm⟩
    rw [hother, if_neg fun h => Bool.false_ne_true h.1]
    rfl
  · intro row
    split
    · exact isOf_set row id l' k'
    · rfl

theorem Shows.del (h : Shows id l k rows cs) (hdel : condDelDb id l c rows = some rows') :
    Shows id l k rows' (cs.filter fun d => ¬ d.SameId c) := by
  rw [statement_eq hdel, Shows, filter_comm, h, List.filter_map]
  refine congrArg (List.map _) (filter_congr fun d _ => ?_)
  have hof : (d.row id l).isOf id l k = true := (isOf_row ..).mpr ⟨rfl, rfl, rfl⟩
  simp only [Function.comp_apply, hof, true_and, isFor_row]

theorem Shows.del_other (h : Shows id l' k' rows cs') (hne : ¬ (l' = l ∧ k' = k))
    (hdel : condDelDb id l c rows = some rows') : Shows id l' k' rows' cs' := by
  rw [statement_eq hdel, Shows, filter_comm, ← h]
  refine filter_eq_self.mpr fun row hrow => ?_
  have hother := isOf_other (mem_filter.mp hrow).2 fun h => hne ⟨h.1.symm, h.2.symm⟩
  refine decide_eq_true fun h => ?_
  rw [hother] at h
  exact Bool.false_ne_true h.1

theorem Shows.delAll {ds : List (Cond k)} (h : Shows id l k rows cs)
    (hdel : ds.foldlM (fun rows c => condDelDb id l c rows) rows = some rows') :
    Shows id l k rows' (cs.filter fun d => ∀ c ∈ ds, ¬ d.SameId c) := by
  induction ds generalizing rows cs with
  | nil =>
    obtain rfl : rows = rows' := some.inj hdel
    simpa using h
  | cons c ds ih =>
    rw [foldlM_cons] at hdel
    obtain ⟨rows₁, hc, hds⟩ := bind_eq_some_iff.mp hdel
    have hrest := ih (h.del hc) hds
    rw [List.filter_filter] at hrest
    refine Eq.trans hrest (congrArg (List.map _) (filter_congr fun d _ => ?_))
    simp [Bool.and_comm]

theorem Shows.delAll_other {ds : List (Cond k)} (h : Shows id l' k' rows cs')
    (hne : ¬ (l' = l ∧ k' = k))
    (hdel : ds.foldlM (fun rows c => condDelDb id l c rows) rows = some rows') :
    Shows id l' k' rows' cs' := by
  induction ds generalizing rows with
  | nil =>
    obtain rfl : rows = rows' := some.inj hdel
    exact h
  | cons c ds ih =>
    rw [foldlM_cons] at hdel
    obtain ⟨rows₁, hc, hds⟩ := bind_eq_some_iff.mp hdel
    exact ih (h.del_other hne hc) hds

theorem Shows.del_absent (h : Shows id l k rows cs) (habsent : ∀ d ∈ cs, ¬ d.SameId c)
    (hdel : condDelDb id l c rows = some rows') : Shows id l k rows' cs := by
  have hcs : cs.filter (fun d => ¬ d.SameId c) = cs :=
    filter_eq_self.mpr fun d hd => decide_eq_true (habsent d hd)
  have hdel := h.del hdel
  rwa [hcs] at hdel

/-! ## Reading -/

/-- The texts that say which condition is meant fit their arrays. -/
def Cond.KeyFits : {k : Kind} → Cond k → Prop
  | .time => fun c : TimeCond => c.acTimeKey.length ≤ keyMaxLen
  | .event => fun c : EventCond => c.acDevId.length ≤ devIdMaxLen ∧ c.acKey.length ≤ keyMaxLen

/-- The row of a condition is not passed over by its reader, and the reader has room for its last
value. -/
def Cond.Legible : {k : Kind} → Cond k → Prop
  | .time => fun c : TimeCond => c.acTimeKey ≠ []
  | .event => fun c : EventCond => c.acTriggerType ≠ [] ∧ c.acLastValue.length ≤ activeMaxLen

/-- What `db_get` copies out of a row. -/
def CondRow.copied (k : Kind) (row : CondRow) : List CText :=
  (row.columns k).map fun t => strncpy dbDataMaxLen (t.getD [])

theorem copied_first (h : c.Legible) :
    ((c.row id l).copied k).getD 0 [] ≠ [] := by
  cases k with
  | time =>
    have hkey : acTimeKey c ≠ [] := h
    show strncpy dbDataMaxLen (acTimeKey c) ≠ []
    simpa [strncpy, dbDataMaxLen] using hkey
  | event =>
    have htype : acTriggerType c ≠ [] := h.1
    show strncpy dbDataMaxLen (acTriggerType c) ≠ []
    simpa [strncpy, dbDataMaxLen] using htype

theorem strncpy_strncpy {n : Nat} {t : CText} (hn : n ≤ dbDataMaxLen) (ht : t.length ≤ n) :
    strncpy n (strncpy dbDataMaxLen t) = t := by
  rw [strncpy, strncpy, take_of_length_le (ht.trans hn), take_of_length_le ht]

theorem passed_readColumns (hkey : c.KeyFits) (hfits : c.Fits) (h : c.Legible) :
    (readColumns k ((c.row id l).copied k)).passed = c.passed := by
  cases k with
  | time =>
    have hfits : TimeCond.Fits c := hfits
    show passed (readColumns .time (copied .time (Cond.row id l _))) =
      passed c
    simp only [passed, readColumns, copied, columns, Cond.row,
      map_cons, getD_cons_zero, getD_cons_succ, getD_some,
      strncpy_strncpy (by decide) hkey, strncpy_strncpy (by decide) hfits.acTriggerType,
      strncpy_strncpy (by decide) hfits.acTriggerInterval,
      strncpy_strncpy (by decide) hfits.acStartHour,
      strncpy_strncpy (by decide) hfits.acStartMinu,
      strncpy_strncpy (by decide) hfits.acEndHour, strncpy_strncpy (by decide) hfits.acEndMinu,
      strncpy_strncpy (by decide) hfits.acWeek, strncpy_strncpy (by decide) hfits.acRepeat]
  | event =>
    have hfits : EventCond.Fits c := hfits
    show readColumns .event (copied .event (Cond.row id l _)) = c
    simp only [readColumns, copied, columns, Cond.row,
      map_cons, getD_cons_zero, getD_cons_succ, getD_some,
      strncpy_strncpy (by decide) hkey.1, strncpy_strncpy (by decide) hkey.2,
      strncpy_strncpy (by decide) hfits.acTriggerType,
      strncpy_strncpy (by decide) hfits.acContinueTime,
      strncpy_strncpy (by decide) hfits.acValue, strncpy_strncpy (by decide) hfits.acActive,
      strncpy_strncpy (by decide) h.2]

theorem readLoop_eq {α : Type} (read : List CText → α) :
    ∀ (ts : List (List CText)) (iInfoMax : Nat), (∀ t ∈ ts, t.getD 0 [] ≠ []) →
      ts.length ≤ iInfoMax → readLoop read ts ts.length iInfoMax = some (ts.map read)
  | [], _, _, _ => by rw [length_nil, readLoop, map_nil]
  | t :: ts, 0, _, hlen => absurd hlen (Nat.not_succ_le_zero _)
  | t :: ts, iInfoMax + 1, hne, hlen => by
    obtain ⟨ht, hts⟩ := forall_mem_cons.mp hne
    rw [length_cons, readLoop, if_neg ht,
      readLoop_eq read ts iInfoMax hts (Nat.le_of_succ_le_succ hlen)]
    rfl

/-- A list of conditions that are all legible, and not more than a reader has room for, is read
back. -/
theorem Shows.read (h : Shows id l k rows cs) (hlen : cs.length ≤ condMaxNum)
    (hkey : ∀ c ∈ cs, c.KeyFits) (hfits : ∀ c ∈ cs, c.Fits) (hlegible : ∀ c ∈ cs, c.Legible) :
    ∃ ds, condGetListDb id l k rows condMaxNum = some ds ∧
      ds.map Cond.passed = cs.map Cond.passed := by
  have hcolumns : ((rows.filter (isOf id l k)).map (columns k)).take condMaxNum =
      cs.map fun c => (c.row id l).columns k := by
    rw [h, List.map_map, take_of_length_le (by rwa [length_map])]
    rfl
  have hcopied : (cs.map fun c => (c.row id l).columns k).map
      (fun row => row.map fun t => strncpy dbDataMaxLen (t.getD [])) =
        cs.map fun c => (c.row id l).copied k := List.map_map
  have hrows : ((rows.filter (isOf id l k)).map (columns k)).length =
      (cs.map fun c => (c.row id l).copied k).length := by
    rw [h, length_map, length_map, length_map]
  refine ⟨(cs.map fun c => (c.row id l).copied k).map (readColumns k), ?_, ?_⟩
  · rw [condGetListDb, dbGet, hcolumns, hcopied, hrows]
    refine readLoop_eq _ _ _ (fun t ht => ?_) (by rwa [length_map])
    obtain ⟨c, hc, rfl⟩ := List.mem_map.mp ht
    exact copied_first (hlegible c hc)
  · rw [List.map_map, List.map_map]
    exact map_congr_left fun c hc =>
      passed_readColumns (hkey c hc) (hfits c hc) (hlegible c hc)

end Honyar.LocalScene
