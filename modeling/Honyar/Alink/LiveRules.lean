import Honyar.Alink.RuleTable

/-!
# The live rules of the cloud's scenes

What the table of rules is for: it follows the rules that live, each with the scene of its last
creation or update.  The code takes the row of a rule out by looking for a scene of that name,
so the table follows the rules exactly as long as no request names a rule where this does harm.
-/

namespace Honyar.Alink.RuleTable

open Option List

variable {T : Tables} {rows rows' : List Row} {sent : List Sent}

/-! ## Requests as the cloud means them -/

/-- What a request asks of the rules. -/
inductive Request where
  | create (sceneId : CText) (ruleIds : List CText)
  | update (sceneId : CText) (ruleIds : List CText)
  | delete (ruleIds : List CText)
  | other

/-- The id of a rule. -/
def ruleId? (rules : Json) : Option CText :=
  (rules.getObjectItem "ruleId".toList).bind Json.valuestring?

/-- The rules a deletion names, one by itself or several. -/
def namedRules : Option Json → List CText
  | none => []
  | some (.array ruleIds) => ruleIds.filterMap Json.valuestring?
  | some ruleId => ruleId.valuestring?.toList

/-- The request a text stands for.  A deletion that carries rules is refused as a whole. -/
def asks (root : Option Json) : Request :=
  let rules := items (member root "rules")
  match member root "operationType", member root "sceneId" with
  | some operationType, some sceneId =>
    if operationType.valuestring? = some "createScene".toList then
      (sceneId.valuestring?.map fun s => .create s (rules.filterMap ruleId?)).getD .other
    else if operationType.valuestring? = some "updateScene".toList then
      (sceneId.valuestring?.map fun s => .update s (rules.filterMap ruleId?)).getD .other
    else if operationType.valuestring? = some "deleteScene".toList ∧ rules = [] then
      .delete (namedRules (member root "ruleIds"))
    else .other
  | _, _ => .other

/-- The scene of each rule that lives. -/
abbrev Live := CText → Option CText

variable {live : Live} {s op q t : CText} {js : List Json} {sceneId : Option CText} {ok : Bool}
  {rs : List CText}

/-- What becomes of the rules.  An update of a rule that does not live creates it. -/
def Live.next (live : Live) : Request → Live
  | .create s rs, r => if r ∈ rs then some s else live r
  | .update s rs, r => if r ∈ rs then some s else live r
  | .delete rs, r => if r ∈ rs then none else live r
  | .other, r => live r

theorem Live.next_create (live : Live) (s : CText) (rs : List CText) (r : CText) :
    live.next (.create s rs) r = if r ∈ rs then some s else live r := rfl

theorem Live.next_update (live : Live) (s : CText) (rs : List CText) (r : CText) :
    live.next (.update s rs) r = if r ∈ rs then some s else live r := rfl

theorem Live.next_delete (live : Live) (rs : List CText) (r : CText) :
    live.next (.delete rs) r = if r ∈ rs then none else live r := rfl

/-- The table has one row for each rule that lives, with its scene, and hands on the rules of
a scene. -/
structure Follows (rows : List Row) (live : Live) : Prop where
  unique : (rows.map Prod.fst).Nodup
  mem_iff : ∀ r s, (r, s) ∈ rows ↔ live r = some s
  select : ∀ s, (table0Select s rows).Nodup ∧ ∀ r, r ∈ table0Select s rows ↔ live r = some s

theorem follows_iff :
    Follows rows live ↔
      (rows.map Prod.fst).Nodup ∧ ∀ r s, (r, s) ∈ rows ↔ live r = some s := by
  constructor
  · rintro ⟨hnd, hrows, -⟩
    exact ⟨hnd, hrows⟩
  · rintro ⟨hnd, hrows⟩
    refine ⟨hnd, hrows, fun s => ⟨hnd.sublist (filter_sublist.map _), fun r => ?_⟩⟩
    rw [← hrows, table0Select, List.mem_map]
    constructor
    · rintro ⟨⟨r', s'⟩, hmem, rfl⟩
      obtain ⟨hrow, hs⟩ := mem_filter.mp hmem
      obtain rfl : s' = s := by simpa using hs
      exact hrow
    · intro hmem
      exact ⟨(r, s), mem_filter.mpr ⟨hmem, by simp⟩, rfl⟩

/-! ## What a request does to the table -/

/-- A rule goes in. -/
def putRule (s : CText) (rows : List Row) (r : CText) : List Row :=
  Store.replace Prod.fst (r, s) rows

/-- Before it does, what is filed under a scene of its name is taken out. -/
def moveRule (s : CText) (rows : List Row) (r : CText) : List Row :=
  putRule s (table0Delete r rows) r

/-- What the code does. -/
def Request.write : Request → List Row → List Row
  | .create s rs, rows => rs.foldl (putRule s) rows
  | .update s rs, rows => rs.foldl (moveRule s) rows
  | .delete rs, rows => rs.foldl (fun rows r => table0Delete r rows) rows
  | .other, rows => rows

theorem table0Insert_eq {r : CText} (h : table0Insert r s rows = some rows') :
    rows' = putRule s rows r := by
  simp only [table0Insert, bind_eq_bind, bind_eq_some_iff, Option.pure_def,
    some.injEq, CText.sprintf_singleton_eq_some] at h
  obtain ⟨_, ⟨-, rfl⟩, _, ⟨-, rfl⟩, rfl⟩ := h
  rfl

theorem delRules_rows (h : delRules js rows = some (rows', sent)) :
    rows' = (Request.delete (js.filterMap Json.valuestring?)).write rows := by
  induction js generalizing rows sent with
  | nil =>
    cases h
    rfl
  | cons j js ih =>
    simp only [delRules, bind_eq_bind, bind_eq_some_iff, Option.pure_def,
      some.injEq, Prod.mk.injEq, Prod.exists] at h
    obtain ⟨r, hr, rows₁, later, hrest, rfl, -⟩ := h
    rw [ih hrest, filterMap_cons_some hr]
    rfl

theorem delScene_rows {j : Json} (h : delScene j rows = some (rows', sent)) :
    rows' = (Request.delete (namedRules (some j))).write rows := by
  unfold delScene at h
  split at h
  next js => exact delRules_rows h
  next hj =>
    obtain ⟨r, hr, heq⟩ := map_eq_some_iff.mp h
    cases heq
    have hnamed : namedRules (some j) = j.valuestring?.toList := by
      unfold namedRules
      split
      · contradiction
      · next js heq => exact absurd (some.inj heq) (hj js)
      · next j' _ heq => rw [some.inj heq]
    rw [hnamed, hr]
    rfl

theorem addScene_rows {j : Json} {isUpdate : Bool}
    (h : addScene T sceneId j isUpdate rows = some (rows', sent)) :
    ∃ r s, ruleId? j = some r ∧ sceneId = some s ∧
      rows' = if isUpdate then moveRule s rows r else putRule s rows r := by
  simp only [addScene, bind_eq_bind, bind_eq_some_iff, Option.pure_def,
    some.injEq, Prod.mk.injEq, Prod.exists] at h
  obtain ⟨id, hid, rows₁, sent₁, hdel, r, hr, s, rfl, rows₂, hins, arrays, -, rfl, -⟩ := h
  refine ⟨r, s, by rw [ruleId?, hid]; exact hr, rfl, ?_⟩
  cases isUpdate with
  | false =>
    cases hdel
    exact table0Insert_eq hins
  | true =>
    obtain rfl : id = .string r := by
      cases id <;> cases hr
      rfl
    rw [if_pos rfl] at hdel
    rw [table0Insert_eq hins, delScene_rows hdel]
    rfl

theorem addScenes_rows (isUpdate : Bool)
    (hop : op = if isUpdate then "updateScene".toList else "createScene".toList)
    (h : addScenes T (some op) sceneId js rows = some (rows', sent, ok)) :
    ok = true ∧ (js ≠ [] → ∃ s, sceneId = some s) ∧ ∀ s, sceneId = some s →
      rows' = (js.filterMap ruleId?).foldl (if isUpdate then moveRule s else putRule s) rows := by
  induction js generalizing rows sent with
  | nil =>
    cases h
    exact ⟨rfl, fun hne => absurd rfl hne, fun _ _ => rfl⟩
  | cons j js ih =>
    have hupd : decide (op = "updateScene".toList) = isUpdate := by
      cases isUpdate <;> subst hop <;> decide
    have hknown : op = "createScene".toList ∨ op = "updateScene".toList := by
      cases isUpdate
      · exact .inl hop
      · exact .inr hop
    simp only [addScenes, bind_eq_bind, bind_some, if_pos hknown, hupd,
      bind_eq_some_iff, Option.pure_def, some.injEq, Prod.mk.injEq,
      Prod.exists] at h
    obtain ⟨rows₁, sent₁, hadd, rows₂, later, ok', hrest, rfl, -, rfl⟩ := h
    obtain ⟨r, s, hr, rfl, rfl⟩ := addScene_rows hadd
    obtain ⟨hok, -, hrows⟩ := ih hrest
    refine ⟨hok, fun _ => ⟨s, rfl⟩, ?_⟩
    rintro s' hs
    cases hs
    rw [hrows s rfl, filterMap_cons_some hr, foldl_cons]
    cases isUpdate <;> rfl

theorem addScenes_refused (hc : op ≠ "createScene".toList) (hu : op ≠ "updateScene".toList)
    (hne : js ≠ []) (h : addScenes T (some op) sceneId js rows = some (rows', sent, ok)) :
    rows' = rows ∧ ok = false := by
  cases js with
  | nil => exact absurd rfl hne
  | cons j js =>
    simp only [addScenes, bind_eq_bind, bind_some,
      if_neg (not_or.mpr ⟨hc, hu⟩)] at h
    cases h
    exact ⟨rfl, rfl⟩

theorem deletePart_rows {op : Option CText} {ruleIds : Option Json}
    (h : deletePart op ruleIds rows = some (rows', sent)) :
    rows' = if op = some "deleteScene".toList then
      (Request.delete (namedRules ruleIds)).write rows else rows := by
  cases ruleIds with
  | none =>
    cases h
    exact (ite_self _).symm
  | some ids =>
    simp only [deletePart, bind_eq_bind, bind_eq_some_iff] at h
    obtain ⟨op, rfl, h⟩ := h
    by_cases hd : op = "deleteScene".toList
    · rw [if_pos hd] at h
      rw [if_pos (congrArg some hd)]
      exact delScene_rows h
    · rw [if_neg hd] at h
      rw [if_neg fun heq => hd (some.inj heq)]
      cases h
      rfl

theorem put_rows (isUpdate : Bool) {sceneId : Json} {ruleIds : Option Json}
    {added deleted : List Sent} {rows₁ : List Row}
    (hop : op = if isUpdate then "updateScene".toList else "createScene".toList)
    (hadd : addScenes T (some op) sceneId.valuestring? js rows = some (rows₁, added, ok))
    (hdel : deletePart (some op) ruleIds rows₁ = some (rows', deleted)) :
    rows' = ((sceneId.valuestring?.map fun s =>
      if isUpdate then Request.update s (js.filterMap ruleId?)
      else .create s (js.filterMap ruleId?)).getD .other).write rows := by
  have hne : some op ≠ some "deleteScene".toList := by
    cases isUpdate <;> subst hop <;> decide
  obtain ⟨-, hscene, hrows⟩ := addScenes_rows isUpdate hop hadd
  rw [deletePart_rows hdel, if_neg hne]
  cases hs : sceneId.valuestring? with
  | some s =>
    rw [hrows s hs]
    cases isUpdate <;> rfl
  | none =>
    have hnil : js = [] := by
      by_contra hjs
      obtain ⟨s, hs'⟩ := hscene hjs
      rw [hs] at hs'
      cases hs'
    subst hnil
    cases hadd
    rfl

theorem sceneDispatch_rows {root : Option Json}
    (h : sceneDispatch T rows root = some (rows', sent)) : rows' = (asks root).write rows := by
  unfold sceneDispatch at h
  split at h
  next operationType sceneId hop hid =>
    simp only [asks, hop, hid]
    simp only [bind_eq_bind, bind_eq_some_iff, Prod.exists] at h
    obtain ⟨rows₁, added, ok, hadd, h⟩ := h
    have hrest : ok = true ∧ (∃ deleted, deletePart operationType.valuestring?
        (member root "ruleIds") rows₁ = some (rows', deleted)) ∨ ok = false ∧ rows' = rows₁ := by
      cases ok with
      | false =>
        cases h
        exact .inr ⟨rfl, rfl⟩
      | true =>
        simp only [if_true, bind_eq_some_iff, Prod.exists, Option.pure_def,
          some.injEq, Prod.mk.injEq] at h
        obtain ⟨rows₂, deleted, hdel, fired, -, rfl, -⟩ := h
        exact .inl ⟨rfl, deleted, hdel⟩
    generalize operationType.valuestring? = op at hadd hrest ⊢
    generalize items (member root "rules") = js at hadd ⊢
    by_cases hc : op = some "createScene".toList
    · subst hc
      obtain ⟨rfl, -⟩ := addScenes_rows false rfl hadd
      obtain ⟨-, deleted, hdel⟩ := hrest.resolve_right (by rintro ⟨⟨⟩, -⟩)
      rw [if_pos rfl]
      exact put_rows false rfl hadd hdel
    by_cases hu : op = some "updateScene".toList
    · subst hu
      obtain ⟨rfl, -⟩ := addScenes_rows true rfl hadd
      obtain ⟨-, deleted, hdel⟩ := hrest.resolve_right (by rintro ⟨⟨⟩, -⟩)
      rw [if_neg hc, if_pos rfl]
      exact put_rows true rfl hadd hdel
    rw [if_neg hc, if_neg hu]
    cases js with
    | nil =>
      cases hadd
      obtain ⟨-, deleted, hdel⟩ := hrest.resolve_right (by rintro ⟨⟨⟩, -⟩)
      rw [deletePart_rows hdel]
      by_cases hd : op = some "deleteScene".toList
      · rw [if_pos hd, if_pos ⟨hd, rfl⟩]
      · rw [if_neg hd, if_neg fun hand => hd hand.1]
        rfl
    | cons j js =>
      cases op with
      | none => cases hadd
      | some op =>
        obtain ⟨rfl, rfl⟩ := addScenes_refused (fun heq => hc (congrArg some heq))
          (fun heq => hu (congrArg some heq)) (cons_ne_nil j js) hadd
        rw [if_neg fun hand => cons_ne_nil j js hand.2]
        exact (hrest.resolve_left (by rintro ⟨⟨⟩, -⟩)).2
  next hnone =>
    have hother : asks root = .other := by
      unfold asks
      split
      · next operationType sceneId hop hid => exact (hnone _ _ hop hid).elim
      · rfl
    cases h
    rw [hother]
    rfl

/-! ## Where the table follows -/

theorem mem_putRules :
    (q, t) ∈ rs.foldl (putRule s) rows ↔ q ∈ rs ∧ t = s ∨ q ∉ rs ∧ (q, t) ∈ rows := by
  induction rs generalizing rows with
  | nil => simp
  | cons r rs ih =>
    rw [foldl_cons, ih, putRule, Store.mem_replace, mem_cons, Prod.mk.injEq]
    constructor
    · rintro (⟨hq, rfl⟩ | ⟨hq, ⟨rfl, rfl⟩ | ⟨hrow, hne⟩⟩)
      · exact .inl ⟨.inr hq, rfl⟩
      · exact .inl ⟨.inl rfl, rfl⟩
      · exact .inr ⟨not_or.mpr ⟨hne, hq⟩, hrow⟩
    · rintro (⟨hq, rfl⟩ | ⟨hq, hrow⟩)
      · by_cases hmem : q ∈ rs
        · exact .inl ⟨hmem, rfl⟩
        · exact .inr ⟨hmem, .inl ⟨hq.resolve_right hmem, rfl⟩⟩
      · obtain ⟨hne, hmem⟩ := not_or.mp hq
        exact .inr ⟨hmem, .inr ⟨hrow, hne⟩⟩

theorem mem_delRules :
    (q, t) ∈ rs.foldl (fun rows r => table0Delete r rows) rows ↔ t ∉ rs ∧ (q, t) ∈ rows := by
  induction rs generalizing rows with
  | nil => simp
  | cons r rs ih =>
    rw [foldl_cons, ih, table0Delete, Store.mem_remove, mem_cons, not_or]
    constructor
    · rintro ⟨ht, hrow, hne⟩
      exact ⟨⟨hne, ht⟩, hrow⟩
    · rintro ⟨⟨hne, ht⟩, hrow⟩
      exact ⟨ht, hrow, hne⟩

/-- A rule that is moved stays, if no rule of the scene's own name comes behind it. -/
theorem mem_moveRules :
    (q, t) ∈ rs.foldl (moveRule s) rows ↔
      t = s ∧ (∃ as bs, rs = as ++ q :: bs ∧ s ∉ bs) ∨ q ∉ rs ∧ t ∉ rs ∧ (q, t) ∈ rows := by
  induction rs generalizing rows with
  | nil => simp
  | cons r rs ih =>
    rw [foldl_cons, ih, moveRule, putRule, Store.mem_replace, table0Delete,
      Store.mem_remove, mem_cons, mem_cons, Prod.mk.injEq]
    constructor
    · rintro (⟨rfl, as, bs, rfl, hs⟩ | ⟨hq, ht, ⟨rfl, rfl⟩ | ⟨⟨hrow, htr⟩, hqr⟩⟩)
      · exact .inl ⟨rfl, r :: as, bs, rfl, hs⟩
      · exact .inl ⟨rfl, [], rs, rfl, ht⟩
      · exact .inr ⟨not_or.mpr ⟨hqr, hq⟩, not_or.mpr ⟨htr, ht⟩, hrow⟩
    · rintro (⟨rfl, as, bs, heq, hs⟩ | ⟨hq, ht, hrow⟩)
      · cases as with
        | nil =>
          obtain ⟨rfl, rfl⟩ := List.cons.inj heq
          by_cases hq : r ∈ rs
          · obtain ⟨as, bs, rfl⟩ := append_of_mem hq
            exact .inl ⟨rfl, as, bs, rfl, fun hmem => hs (by simp [hmem])⟩
          · exact .inr ⟨hq, hs, .inl ⟨rfl, rfl⟩⟩
        | cons a as =>
          obtain ⟨rfl, rfl⟩ := List.cons.inj heq
          exact .inl ⟨rfl, as, bs, rfl, hs⟩
      · obtain ⟨hqr, hq⟩ := not_or.mp hq
        obtain ⟨htr, ht⟩ := not_or.mp ht
        exact .inr ⟨hq, ht, .inr ⟨⟨hrow, htr⟩, hqr⟩⟩

theorem nodup_write {req : Request} (h : (rows.map Prod.fst).Nodup) :
    ((req.write rows).map Prod.fst).Nodup := by
  have hfold : ∀ (f : List Row → CText → List Row) (rs : List CText),
      (∀ rows r, (rows.map Prod.fst).Nodup → ((f rows r).map Prod.fst).Nodup) →
        ((rs.foldl f rows).map Prod.fst).Nodup := fun f rs hf =>
    List.foldlRecOn (motive := fun rows => (rows.map Prod.fst).Nodup) rs f h
      fun rows hrows r _ => hf rows r hrows
  have hdel : ∀ rows r, (rows.map Prod.fst).Nodup → ((table0Delete r rows).map Prod.fst).Nodup :=
    fun rows r hrows => hrows.sublist (filter_sublist.map _)
  cases req with
  | create s rs => exact hfold _ rs fun rows r hrows => Store.nodup_replace hrows (r, s)
  | update s rs => exact hfold _ rs fun rows r hrows => Store.nodup_replace (hdel _ r hrows) (r, s)
  | delete rs => exact hfold _ rs hdel
  | other => exact h

/-- A request does no harm: one that deletes names, with a rule, its scene and the other way
round; one that updates names no scene of a rule that it does not move, and moves no rule in
front of the last one that has the name of their scene. -/
def Request.Harmless : Request → List Row → Prop
  | .create _ _, _ => True
  | .update s rs, rows =>
    (∀ row ∈ rows, row.1 ∉ rs → row.2 ∉ rs) ∧
      ∀ r ∈ rs, ∃ as bs, rs = as ++ r :: bs ∧ s ∉ bs
  | .delete rs, rows => ∀ row ∈ rows, row.2 ∈ rs ↔ row.1 ∈ rs
  | .other, _ => True

/-- A scene of a name that is updated stays the one of the rules that have been moved. -/
theorem update_follows_iff (hrows : ∀ r s, (r, s) ∈ rows ↔ live r = some s) :
    (∀ q t, (q, t) ∈ (Request.update s rs).write rows ↔ live.next (.update s rs) q = some t) ↔
      (Request.update s rs).Harmless rows := by
  constructor
  · intro hall
    refine ⟨fun row hrow hq ht => ?_, fun r hr => ?_⟩
    · have hlive : live.next (.update s rs) row.1 = some row.2 := by
        rw [Live.next_update, if_neg hq]
        exact (hrows _ _).mp hrow
      rcases mem_moveRules.mp ((hall _ _).mpr hlive) with ⟨-, as, bs, rfl, -⟩ | ⟨-, hnot, -⟩
      · exact hq (by simp)
      · exact hnot ht
    · have hlive : live.next (.update s rs) r = some s := by
        rw [Live.next_update, if_pos hr]
      rcases mem_moveRules.mp ((hall _ _).mpr hlive) with ⟨-, hlast⟩ | ⟨hnot, -, -⟩
      · exact hlast
      · exact absurd hr hnot
  · rintro ⟨hscenes, hlast⟩ q t
    rw [Request.write, mem_moveRules, Live.next_update]
    by_cases hq : q ∈ rs
    · rw [if_pos hq, some.injEq]
      constructor
      · rintro (⟨rfl, -⟩ | ⟨hnot, -, -⟩)
        · rfl
        · exact absurd hq hnot
      · rintro rfl
        exact .inl ⟨rfl, hlast q hq⟩
    · rw [if_neg hq, ← hrows]
      constructor
      · rintro (⟨-, as, bs, rfl, -⟩ | ⟨-, -, hrow⟩)
        · exact absurd (by simp) hq
        · exact hrow
      · intro hrow
        exact .inr ⟨hq, hscenes _ hrow hq, hrow⟩

theorem delete_follows_iff (hrows : ∀ r s, (r, s) ∈ rows ↔ live r = some s) :
    (∀ q t, (q, t) ∈ (Request.delete rs).write rows ↔ live.next (.delete rs) q = some t) ↔
      (Request.delete rs).Harmless rows := by
  have hnext : ∀ q t, live.next (.delete rs) q = some t ↔ q ∉ rs ∧ (q, t) ∈ rows := by
    intro q t
    rw [Live.next_delete, hrows]
    by_cases hq : q ∈ rs <;> simp [hq]
  constructor
  · rintro hall ⟨q, t⟩ hrow
    have := (hall q t).trans (hnext q t)
    rw [Request.write, mem_delRules] at this
    exact not_iff_not.mp
      ⟨fun ht => (this.mp ⟨ht, hrow⟩).1, fun hq => (this.mpr ⟨hq, hrow⟩).1⟩
  · intro hsame q t
    rw [hnext, Request.write, mem_delRules]
    exact and_congr_left fun hrow => not_congr (hsame _ hrow)

theorem follows_write_iff {req : Request} (h : Follows rows live) :
    Follows (req.write rows) (live.next req) ↔ req.Harmless rows := by
  rw [follows_iff, and_iff_right (nodup_write h.unique)]
  cases req with
  | create s rs =>
    refine ⟨fun _ => trivial, fun _ q t => ?_⟩
    rw [Request.write, mem_putRules, Live.next_create, h.mem_iff]
    by_cases hq : q ∈ rs <;> simp [hq, eq_comm]
  | update s rs => exact update_follows_iff h.mem_iff
  | delete rs => exact delete_follows_iff h.mem_iff
  | other => exact ⟨fun _ => trivial, fun _ => h.mem_iff⟩

theorem follows_empty : Follows [] fun _ => none :=
  follows_iff.mpr ⟨nodup_nil, fun _ _ => by simp⟩

/-- The rules that live after a sequence of requests. -/
def liveAfter (requests : List (Option Json)) : Live :=
  requests.foldl (fun live root => live.next (asks root)) fun _ => none

/-- The table follows the rules throughout a run of requests exactly when none of them does
harm to the table it meets. -/
theorem table_follows_iff {requests : List (Option Json)}
    (h : Run.run (sceneDispatch T) [] requests = some (rows, sent)) :
    (∀ handled rows' sent', handled <+: requests →
        Run.run (sceneDispatch T) [] handled = some (rows', sent') →
          Follows rows' (liveAfter handled)) ↔
      Run.Along (sceneDispatch T) (fun rows root => (asks root).Harmless rows) [] requests := by
  refine Run.tracks_iff_along (fun live root => Live.next live (asks root)) ?_ follows_empty h
  intro rows live root rows' sent hf hstep
  rw [sceneDispatch_rows hstep]
  exact follows_write_iff hf

namespace Sample

/-- No device is known. -/
def noDevices : Tables := ⟨fun _ => none, fun _ => none, fun _ => [], fun _ => []⟩

def request (operationType sceneId : CText) (rest : List (CText × Json)) : Option Json :=
  some (.object ([("operationType".toList, .string operationType),
    ("sceneId".toList, .string sceneId)] ++ rest))

/-- A rule without triggers, conditions and actions. -/
def create (sceneId ruleId : CText) : Option Json :=
  request "createScene".toList sceneId
    [("rules".toList, .array [.object
      [("ruleId".toList, .string ruleId), ("enable".toList, .number ['1'] 1)]])]

def delete (sceneId ruleId : CText) : Option Json :=
  request "deleteScene".toList sceneId [("ruleIds".toList, .array [.string ruleId])]

end Sample

/-- A rule that has the name of its scene is created and deleted. -/
theorem table_follows_same_name : ∃ rows' sent',
    Run.run (sceneDispatch Sample.noDevices) []
        [Sample.create ['r'] ['r'], Sample.delete ['r'] ['r']] = some (rows', sent') ∧
      Follows rows' (liveAfter [Sample.create ['r'] ['r'], Sample.delete ['r'] ['r']]) := by
  have hrun : Run.run (sceneDispatch Sample.noDevices) []
      [Sample.create ['r'] ['r'], Sample.delete ['r'] ['r']] = some (_, _) := rfl
  refine ⟨_, _, hrun, (table_follows_iff hrun).mpr ⟨trivial, ?_⟩ _ _ _ prefix_rfl hrun⟩
  rintro _ ⟨⟩
  refine ⟨?_, fun _ _ => trivial⟩
  show ∀ row ∈ [((['r'] : CText), (['r'] : CText))], row.2 ∈ [['r']] ↔ row.1 ∈ [['r']]
  decide

/-- A rule is deleted and stays in the table, under the name of its scene. -/
theorem table_keeps_rule : ¬ ∀ (T : Tables) (requests : List (Option Json)) (rows : List Row)
    (sent : List Sent), Run.run (sceneDispatch T) [] requests = some (rows, sent) →
      Follows rows (liveAfter requests) := by
  intro h
  have hf := h Sample.noDevices [Sample.create ['s'] ['r'], Sample.delete ['s'] ['r']] _ _ rfl
  have hrow : (['r'], ['s']) ∈ [((['r'] : CText), (['s'] : CText))] := mem_singleton_self _
  exact absurd ((hf.mem_iff _ _).mp hrow) (by decide)

end Honyar.Alink.RuleTable
