import Honyar.Lib.Keyed

/-!
# Bringing a store to the contents of an array

A store of records is reconciled with an array in two passes.  The first walks
the records of the store and looks each of them up in the array: a record that
is found is brought up to date and its entry marked, a record that is not found
is deleted.  The second adds the entries that were not marked.

The array is read by index.  A search that finds nothing leaves its index behind
the end, where there is nothing to read, and a reconciliation that reads there
has no result.

The rules below say what the passes do to a store whose operations are lawful:
the first succeeds exactly when every record is found, and the second is then
the additions of the entries that no record has the identity of.
-/

namespace Honyar.Reconcile

open Option List

variable {σ ι β α : Type}

/-- A store `σ` of records `β` at places `ι`, and an array of `α`. -/
structure Ops (σ ι β α : Type) where
  /-- The record at a place. -/
  read : σ → ι → Option β
  /-- The record and the entry have one identity. -/
  same : β → α → Bool
  /-- What is done to a record whose entry was found. -/
  meet : σ → ι → β → α → Option σ
  /-- The deletion of the record an entry names. -/
  del : σ → α → Option σ
  /-- The addition of an entry. -/
  add : σ → α → Option σ
  /-- Whether an entry needs no addition, given its mark. -/
  met : σ → α → Bool → Bool

/-- The body of the first pass at one place. -/
def visit (o : Ops σ ι β α) (target : List α) (r : σ × List Bool) (p : ι) :
    Option (σ × List Bool) := do
  let d ← o.read r.1 p
  let i := target.findIdx (o.same d)
  let c ← target[i]?
  if i < target.length then return (← o.meet r.1 p d c, r.2.set i true)
  else return (← o.del r.1 c, r.2)

/-- The second pass over the entries and their marks. -/
def secondPass (o : Ops σ ι β α) (x : σ) (es : List (α × Bool)) : Option σ :=
  es.foldlM (fun x e => if o.met x e.1 e.2 then some x else o.add x e.1) x

/-- Both passes; `ps` are the places the first one walks. -/
def passes (o : Ops σ ι β α) (target : List α) (ps : List ι) (x : σ) : Option σ := do
  let (x, marks) ← ps.foldlM (visit o target) (x, List.replicate target.length false)
  secondPass o x (target.zip marks)

/-- The entries are added one after another. -/
def addAll (o : Ops σ ι β α) (target : List α) (x : σ) : Option σ := target.foldlM o.add x

/-- A reconciliation: a store that counts no records is filled, an empty array
clears the store, and otherwise the two passes are made. -/
def sync (o : Ops σ ι β α) (clear : σ → Option σ) (empty : Bool) (ps : List ι) (target : List α)
    (x : σ) : Option σ :=
  if empty then addAll o target x
  else if target = [] then clear x
  else passes o target ps x

/-! ## What every operation keeps -/

/-- What meeting and adding entries of the array keep, a reconciliation keeps: no
entry is ever deleted, for none is read behind the end. -/
theorem passes_preserves {o : Ops σ ι β α} {target : List α} {P : σ → Prop}
    (hmeet : ∀ x p d x', ∀ c ∈ target, P x → o.meet x p d c = some x' → P x')
    (hadd : ∀ x x', ∀ c ∈ target, P x → o.add x c = some x' → P x') {ps : List ι} {x x' : σ}
    (hx : P x) (h : passes o target ps x = some x') : P x' := by
  have hfirst : ∀ (ps : List ι) (r r' : σ × List Bool), P r.1 →
      ps.foldlM (visit o target) r = some r' → P r'.1 := by
    intro ps
    induction ps with
    | nil =>
      intro r r' hr h
      cases h
      exact hr
    | cons p ps ih =>
      intro r r' hr h
      rw [foldlM_cons, bind_eq_bind, bind_eq_some_iff] at h
      obtain ⟨r₁, hvisit, hrest⟩ := h
      refine ih r₁ r' ?_ hrest
      simp only [visit, bind_eq_bind, bind_eq_some_iff] at hvisit
      obtain ⟨d, -, c, hc, hvisit⟩ := hvisit
      have hmem := mem_of_getElem? hc
      rw [if_pos (List.getElem?_eq_some_iff.mp hc).1] at hvisit
      obtain ⟨y, hy, hr₁⟩ := bind_eq_some_iff.mp hvisit
      cases hr₁
      exact hmeet _ _ _ _ c hmem hr hy
  have hsecond : ∀ (es : List (α × Bool)) (x x' : σ), (∀ e ∈ es, e.1 ∈ target) → P x →
      secondPass o x es = some x' → P x' := by
    intro es
    induction es with
    | nil =>
      intro x x' _ hx h
      cases h
      exact hx
    | cons e es ih =>
      intro x x' hes hx h
      rw [secondPass, foldlM_cons, bind_eq_bind, bind_eq_some_iff] at h
      obtain ⟨y, hy, hrest⟩ := h
      refine ih y x' (fun f hf => hes f (mem_cons_of_mem e hf)) ?_ hrest
      split at hy
      · cases hy
        exact hx
      · exact hadd _ _ _ (hes e mem_cons_self) hx hy
  simp only [passes, bind_eq_bind, bind_eq_some_iff] at h
  obtain ⟨⟨y, marks⟩, hy, h⟩ := h
  exact hsecond _ y x' (fun e he => (of_mem_zip he).1) (hfirst ps _ _ hx hy) h

/-- And so do additions alone. -/
theorem addAll_preserves {o : Ops σ ι β α} {target : List α} {P : σ → Prop}
    (hadd : ∀ x x', ∀ c ∈ target, P x → o.add x c = some x' → P x') {x x' : σ}
    (hx : P x) (h : addAll o target x = some x') : P x' := by
  induction target generalizing x with
  | nil =>
    cases h
    exact hx
  | cons c cs ih =>
    rw [addAll, foldlM_cons, bind_eq_bind, bind_eq_some_iff] at h
    obtain ⟨y, hy, hrest⟩ := h
    refine ih (fun x x' c' hc' => hadd x x' c' (mem_cons_of_mem c hc')) ?_ hrest
    exact hadd x y c mem_cons_self hx hy

/-! ## Marks -/

/-- The marks after the records of a chain. -/
def Ops.marks (o : Ops σ ι β α) (target : List α) (qs : List (ι × β)) (fs : List Bool) :
    List Bool :=
  qs.foldl (fun fs q => fs.set (target.findIdx (o.same q.2)) true) fs

section Marks

variable {o : Ops σ ι β α} {target : List α}

/-- The search at a record that is found. -/
theorem getElem?_findIdx {d : β} (h : ∃ c ∈ target, o.same d c = true) :
    target.findIdx (o.same d) < target.length ∧
      ∃ c ∈ target, target[target.findIdx (o.same d)]? = some c ∧ o.same d c = true := by
  have hlt := findIdx_lt_length_of_exists h
  exact ⟨hlt, _, getElem_mem hlt, getElem?_eq_getElem hlt, findIdx_getElem⟩

/-- No record has the identity of two entries of the array. -/
def Ops.Distinct (o : Ops σ ι β α) (target : List α) : Prop :=
  target.Pairwise fun c c' => ∀ d, o.same d c = true → o.same d c' = true → False

theorem Ops.Distinct.findIdx_eq_iff (h : o.Distinct target) {i : Nat} (hi : i < target.length)
    (d : β) : target.findIdx (o.same d) = i ↔ o.same d target[i] = true := by
  rw [Ops.Distinct, pairwise_iff_getElem] at h
  constructor
  · rintro rfl
    exact findIdx_getElem
  · intro hsame
    have hlt : target.findIdx (o.same d) < target.length :=
      findIdx_lt_length_of_exists ⟨_, getElem_mem hi, hsame⟩
    have hfirst : o.same d target[target.findIdx (o.same d)] = true := findIdx_getElem
    rcases Nat.lt_trichotomy (target.findIdx (o.same d)) i with hlt' | heq | hgt
    · exact (h _ _ hlt hi hlt' d hfirst hsame).elim
    · exact heq
    · exact (h _ _ hi hlt hgt d hsame hfirst).elim

theorem Ops.length_marks (o : Ops σ ι β α) (target : List α) (qs : List (ι × β))
    (fs : List Bool) : (o.marks target qs fs).length = fs.length := by
  induction qs generalizing fs with
  | nil => rfl
  | cons q qs ih =>
    rw [marks, foldl_cons]
    exact (ih _).trans length_set

theorem Ops.getElem?_marks (qs : List (ι × β)) (fs : List Bool) {i : Nat} (hi : i < fs.length) :
    (o.marks target qs fs)[i]? = some true ↔
      fs[i]? = some true ∨ ∃ q ∈ qs, target.findIdx (o.same q.2) = i := by
  induction qs generalizing fs with
  | nil => simp [marks]
  | cons q qs ih =>
    rw [marks, foldl_cons]
    have := ih (fs.set (target.findIdx (o.same q.2)) true) (by rwa [length_set])
    rw [marks] at this
    rw [this, getElem?_set]
    by_cases heq : target.findIdx (o.same q.2) = i
    · simp [heq, hi]
    · simp [heq]

/-- The marks the first pass leaves. -/
theorem Ops.Distinct.marks_eq (h : o.Distinct target) (qs : List (ι × β)) :
    o.marks target qs (List.replicate target.length false) =
      target.map fun c => qs.any fun q => o.same q.2 c := by
  have hlen := o.length_marks target qs (List.replicate target.length false)
  rw [length_replicate] at hlen
  refine ext_getElem (by rw [hlen, length_map]) fun i hi _ => ?_
  rw [hlen] at hi
  rw [getElem_map, Bool.eq_iff_iff, List.any_eq_true]
  have hmark : (o.marks target qs (List.replicate target.length false))[i]? = some true ↔
      (List.replicate target.length false)[i]? = some true ∨
        ∃ q ∈ qs, target.findIdx (o.same q.2) = i :=
    Ops.getElem?_marks qs _ (by rwa [length_replicate])
  rw [getElem?_eq_getElem (by rwa [hlen]), some.injEq] at hmark
  rw [hmark, getElem?_replicate, if_pos hi]
  simp only [some.injEq, Bool.false_eq_true, false_or, h.findIdx_eq_iff hi]

/-- The second pass is the additions of the entries that are not met, where that
does not depend on what was added before. -/
theorem secondPass_eq_addAll {J : σ → Prop} {g : α → Bool → Bool}
    (hmet : ∀ x, J x → ∀ c ∈ target, ∀ f,
      (if o.met x c f then some x else o.add x c) = if g c f then some x else o.add x c)
    (hadd : ∀ x x', ∀ c ∈ target, J x → o.add x c = some x' → J x') (es : List (α × Bool)) :
    ∀ x, J x → (∀ e ∈ es, e.1 ∈ target) →
      secondPass o x es = addAll o ((es.filter fun e => !g e.1 e.2).map Prod.fst) x := by
  induction es with
  | nil => exact fun _ _ _ => rfl
  | cons e es ih =>
    intro x hx hes
    have he := hes e mem_cons_self
    have hrest : ∀ f ∈ es, f.1 ∈ target := fun f hf => hes f (mem_cons_of_mem e hf)
    rw [secondPass, foldlM_cons, hmet x hx e.1 he e.2]
    cases hg : g e.1 e.2 with
    | true =>
      rw [filter_cons_of_neg (by simp [hg])]
      exact ih x hx hrest
    | false =>
      rw [filter_cons_of_pos (by simp [hg]), map_cons, addAll, foldlM_cons]
      simp only [Bool.false_eq_true, if_false, bind_eq_bind]
      cases ha : o.add x e.1 with
      | none => rfl
      | some y => exact ih y (hadd x y e.1 he hx ha) hrest

/-- One entry has the identity of a record that is found. -/
theorem Ops.Distinct.filter_same (h : o.Distinct target) {c : α} (hc : c ∈ target) {d : β}
    (hsame : o.same d c = true) : target.filter (o.same d) = [c] := by
  induction target with
  | nil => exact absurd hc not_mem_nil
  | cons c' target ih =>
    obtain ⟨hfirst, hrest⟩ := pairwise_cons.mp h
    rcases mem_cons.mp hc with rfl | hc
    · rw [filter_cons_of_pos hsame, filter_eq_nil_iff.mpr]
      exact fun c' hc' hsame' => hfirst c' hc' d hsame hsame'
    · rw [filter_cons_of_neg fun hsame' => hfirst c hc d hsame' hsame]
      exact ih hrest hc

end Marks

/-! ## Lawful stores -/

/-- In the states of `I` the store is a chain `view` of records at pairwise
different places, and meeting an entry writes the record it was found for. -/
structure Ops.Lawful [DecidableEq ι] (o : Ops σ ι β α) (target : List α) (I : σ → Prop)
    (view : σ → List (ι × β)) (upd : β → α → β) : Prop where
  keys : ∀ x, I x → ((view x).map Prod.fst).Nodup
  read : ∀ x, I x → ∀ q ∈ view x, o.read x q.1 = some q.2
  meet : ∀ x, I x → ∀ q ∈ view x, ∀ c ∈ target, o.same q.2 c = true →
    ∃ x', o.meet x q.1 q.2 c = some x' ∧ I x' ∧
      view x' = (view x).map fun r => if r.1 = q.1 then (r.1, upd r.2 c) else r

/-- What the first pass makes of a chain of records. -/
def Ops.Met (o : Ops σ ι β α) (target : List α) (upd : β → α → β) :
    List (ι × β) → List (ι × β) → Prop :=
  List.Forall₂ fun q r => ∃ c ∈ target, o.same q.2 c = true ∧ r = (q.1, upd q.2 c)

section Lawful

variable [DecidableEq ι] {o : Ops σ ι β α} {target : List α} {I : σ → Prop}
  {view : σ → List (ι × β)} {upd : β → α → β} {x : σ}

theorem Ops.Lawful.visit_eq (hlaw : o.Lawful target I view upd) (hx : I x)
    {done rest : List (ι × β)} {q : ι × β} (hview : view x = done ++ q :: rest)
    (hmatch : ∃ c ∈ target, o.same q.2 c = true) (fs : List Bool) :
    ∃ x' c, visit o target (x, fs) q.1 =
        some (x', fs.set (target.findIdx (o.same q.2)) true) ∧ I x' ∧ c ∈ target ∧
      o.same q.2 c = true ∧ view x' = done ++ (q.1, upd q.2 c) :: rest := by
  have hq : q ∈ view x := by
    rw [hview]
    exact mem_append_right _ mem_cons_self
  obtain ⟨hlt, c, hc, hget, hsame⟩ := getElem?_findIdx hmatch
  obtain ⟨x', hmeet, hx', hview'⟩ := hlaw.meet x hx q hq c hc hsame
  refine ⟨x', c, ?_, hx', hc, hsame, ?_⟩
  · simp only [visit, hlaw.read x hx q hq, bind_eq_bind, bind_some, hget, hlt,
      if_true, hmeet, Option.pure_def]
  · have hkeys := hlaw.keys x hx
    rw [hview] at hkeys hview'
    rw [hview']
    exact Keyed.map_write_split (f := fun r : ι × β => (r.1, upd r.2 c)) hkeys

/-- The first pass, when every record is found. -/
theorem Ops.Lawful.foldlM_visit (hlaw : o.Lawful target I view upd) (rest : List (ι × β)) :
    ∀ (x : σ) (done : List (ι × β)) (fs : List Bool), I x → view x = done ++ rest →
      (∀ q ∈ rest, ∃ c ∈ target, o.same q.2 c = true) →
      ∃ x' rest', (rest.map Prod.fst).foldlM (visit o target) (x, fs) =
          some (x', o.marks target rest fs) ∧ I x' ∧ view x' = done ++ rest' ∧
        o.Met target upd rest rest' := by
  induction rest with
  | nil =>
    intro x done fs hx hview _
    exact ⟨x, [], rfl, hx, hview, List.Forall₂.nil⟩
  | cons q rest ih =>
    intro x done fs hx hview hmatch
    obtain ⟨x₁, c, hvisit, hx₁, hc, hsame, hview₁⟩ :=
      hlaw.visit_eq hx hview (hmatch q mem_cons_self) fs
    obtain ⟨x', rest', hfold, hx', hview', hmet⟩ :=
      ih x₁ (done ++ [(q.1, upd q.2 c)]) (fs.set (target.findIdx (o.same q.2)) true) hx₁
        (by rw [hview₁, append_assoc, singleton_append])
        fun r hr => hmatch r (mem_cons_of_mem q hr)
    refine ⟨x', (q.1, upd q.2 c) :: rest', ?_, hx', ?_, .cons ⟨c, hc, hsame, rfl⟩ hmet⟩
    · rw [map_cons, foldlM_cons, hvisit]
      exact hfold
    · rw [hview', append_assoc, singleton_append]

/-- A first pass that succeeds found every record. -/
theorem Ops.Lawful.matched_of_foldlM (hlaw : o.Lawful target I view upd) (rest : List (ι × β)) :
    ∀ (x : σ) (done : List (ι × β)) (fs : List Bool) (r : σ × List Bool), I x →
      view x = done ++ rest → (rest.map Prod.fst).foldlM (visit o target) (x, fs) = some r →
      ∀ q ∈ rest, ∃ c ∈ target, o.same q.2 c = true := by
  induction rest with
  | nil => exact fun _ _ _ _ _ _ _ q hq => absurd hq not_mem_nil
  | cons q rest ih =>
    intro x done fs r hx hview h
    have hq : q ∈ view x := by
      rw [hview]
      exact mem_append_right _ mem_cons_self
    by_cases hmatch : ∃ c ∈ target, o.same q.2 c = true
    · obtain ⟨x₁, c, hvisit, hx₁, hc, hsame, hview₁⟩ := hlaw.visit_eq hx hview hmatch fs
      rw [map_cons, foldlM_cons, hvisit] at h
      intro q' hq'
      rcases mem_cons.mp hq' with rfl | hq'
      · exact hmatch
      · exact ih x₁ (done ++ [(q.1, upd q.2 c)]) _ r hx₁
          (by rw [hview₁, append_assoc, singleton_append]) h q' hq'
    · -- the search ran to the end, and there is nothing to read there
      have hend : target[target.findIdx (o.same q.2)]? = none := by
        have hfalse : ∀ c ∈ target, o.same q.2 c = false := by
          intro c hc
          rw [← Bool.not_eq_true]
          exact fun hsame => hmatch ⟨c, hc, hsame⟩
        exact getElem?_eq_none
          (Nat.le_of_eq (findIdx_eq_length_of_false hfalse).symm)
      rw [map_cons, foldlM_cons] at h
      simp [visit, hlaw.read x hx q hq, hend] at h

/-- Both passes over a store whose records are all found: the first brings them
up to date, and what remains are the additions of the entries that are not
met. -/
theorem Ops.Lawful.passes_eq {J : σ → Prop} {g : α → Bool → Bool}
    (hlaw : o.Lawful target I view upd) (hdistinct : o.Distinct target) (hIJ : ∀ x, I x → J x)
    (hmet : ∀ x, J x → ∀ c ∈ target, ∀ f,
      (if o.met x c f then some x else o.add x c) = if g c f then some x else o.add x c)
    (hadd : ∀ x x', ∀ c ∈ target, J x → o.add x c = some x' → J x') (hx : I x)
    (hmatch : ∀ q ∈ view x, ∃ c ∈ target, o.same q.2 c = true) :
    ∃ x₁, I x₁ ∧ o.Met target upd (view x) (view x₁) ∧
      passes o target ((view x).map Prod.fst) x =
        addAll o (target.filter fun c => !g c ((view x).any fun q => o.same q.2 c)) x₁ := by
  obtain ⟨x₁, rest, hfold, hx₁, hview, hrest⟩ :=
    hlaw.foldlM_visit (view x) x [] (List.replicate target.length false) hx rfl hmatch
  rw [nil_append] at hview
  refine ⟨x₁, hx₁, hview ▸ hrest, ?_⟩
  simp only [passes, hfold, bind_eq_bind, bind_some, hdistinct.marks_eq]
  rw [secondPass_eq_addAll hmet hadd _ x₁ (hIJ x₁ hx₁) fun e he => (of_mem_zip he).1]
  have hzip : target.zip (target.map fun c => (view x).any fun q => o.same q.2 c) =
      target.map fun c => (c, (view x).any fun q => o.same q.2 c) := by
    rw [← zip_map', List.map_id']
  rw [hzip, List.filter_map, List.map_map]
  exact congrArg (fun cs => addAll o cs x₁) (List.map_id' _)

theorem Ops.Lawful.matched_of_passes (hlaw : o.Lawful target I view upd) (hx : I x) {x' : σ}
    (h : passes o target ((view x).map Prod.fst) x = some x') :
    ∀ q ∈ view x, ∃ c ∈ target, o.same q.2 c = true := by
  simp only [passes, bind_eq_bind, bind_eq_some_iff] at h
  obtain ⟨r, hr, -⟩ := h
  exact hlaw.matched_of_foldlM (view x) x [] _ r hx rfl hr

end Lawful

/-! ## Contents -/

section Contents

variable {o : Ops σ ι β α} {target : List α} {upd : β → α → β} {γ : Type} {f : β → γ} {g : α → γ}

theorem filter_or_perm {p q : α → Bool} {xs : List α} (h : ∀ a ∈ xs, p a = true → q a = false) :
    (xs.filter fun a => p a || q a).Perm (xs.filter p ++ xs.filter q) := by
  induction xs with
  | nil => exact List.Perm.refl _
  | cons a xs ih =>
    have hrest := ih fun b hb => h b (mem_cons_of_mem a hb)
    cases hp : p a with
    | true =>
      have hq := h a mem_cons_self hp
      rw [filter_cons_of_pos (by simp [hp]), filter_cons_of_pos hp,
        filter_cons_of_neg (by simp [hq])]
      exact hrest.cons a
    | false =>
      rw [filter_cons_of_neg (by simp [hp] : ¬ p a = true)]
      cases hq : q a with
      | true =>
        rw [filter_cons_of_pos (by simp [hq]), filter_cons_of_pos hq]
        exact (hrest.cons a).trans perm_middle.symm
      | false =>
        rw [filter_cons_of_neg (by simp [hp, hq]), filter_cons_of_neg (by simp [hq])]
        exact hrest

/-- The records the first pass leaves are the entries that are met, when it
leaves each record as its entry says and no two records meet one entry. -/
theorem Ops.Met.perm (hdistinct : o.Distinct target) {qs rs : List (ι × β)}
    (h : o.Met target upd qs rs)
    (hrec : ∀ q ∈ qs, ∀ c ∈ target, o.same q.2 c = true → f (upd q.2 c) = g c)
    (hinj : qs.Pairwise fun q q' => ∀ c ∈ target, o.same q.2 c = true → o.same q'.2 c = false) :
    (rs.map fun r => f r.2).Perm ((target.filter fun c => qs.any fun q => o.same q.2 c).map g) := by
  induction h with
  | nil => simp
  | @cons q r qs rs hq _ ih =>
    obtain ⟨c, hc, hsame, rfl⟩ := hq
    obtain ⟨hfirst, hrest⟩ := pairwise_cons.mp hinj
    have hsplit : (target.filter fun c => (q :: qs).any fun q => o.same q.2 c).Perm
        (target.filter (o.same q.2) ++ target.filter fun c => qs.any fun q => o.same q.2 c) := by
      refine filter_or_perm fun c' hc' hsame' => ?_
      rw [List.any_eq_false]
      intro q' hq'
      rw [Bool.not_eq_true]
      exact hfirst q' hq' c' hc' hsame'
    rw [hdistinct.filter_same hc hsame, singleton_append] at hsplit
    rw [map_cons, hrec q mem_cons_self c hc hsame]
    have hrest' := ih (fun q' hq' => hrec q' (mem_cons_of_mem q hq')) hrest
    exact (hrest'.cons (g c)).trans (hsplit.map g).symm

/-- The store has the contents of the array afterwards exactly when the first pass
leaves every record as its entry says; `k` is the identity of a content. -/
theorem Ops.Met.perm_iff {κ : Type} {k : γ → κ} (hdistinct : o.Distinct target)
    {qs rs : List (ι × β)} (h : o.Met target upd qs rs)
    (hkey : ∀ q ∈ qs, ∀ c ∈ target, o.same q.2 c = true → k (f (upd q.2 c)) = k (g c))
    (hnodup : (target.map fun c => k (g c)).Nodup)
    (hinj : qs.Pairwise fun q q' => ∀ c ∈ target, o.same q.2 c = true → o.same q'.2 c = false) :
    ((rs.map fun r => f r.2) ++
        (target.filter fun c => !qs.any fun q => o.same q.2 c).map g).Perm (target.map g) ↔
      ∀ q ∈ qs, ∀ c ∈ target, o.same q.2 c = true → f (upd q.2 c) = g c := by
  constructor
  · intro hperm q hq c hc hsame
    obtain ⟨r, hr, c', hc', hsame', rfl⟩ : ∃ r ∈ rs, ∃ c ∈ target, o.same q.2 c = true ∧
        r = (q.1, upd q.2 c) := Keyed.exists_of_forall₂ (List.Forall₂.flip h) hq
    have hone := hdistinct.filter_same hc hsame
    rw [hdistinct.filter_same hc' hsame', singleton_inj] at hone
    subst hone
    have hmem : f (upd q.2 c') ∈ target.map g :=
      hperm.subset (mem_append_left _ (List.mem_map_of_mem hr))
    obtain ⟨c'', hc'', heq⟩ := List.mem_map.mp hmem
    have hk : k (g c'') = k (g c') := by rw [heq, hkey q hq c' hc hsame]
    rw [← heq, inj_on_of_nodup_map hnodup hc'' hc hk]
  · intro hrec
    have hmet := h.perm hdistinct hrec hinj
    have hsplit := filter_append_perm (fun c => qs.any fun q => o.same q.2 c) target
    refine (hmet.append_right _).trans ?_
    rw [← map_append]
    exact hsplit.map g

/-- Additions that each leave one record more; `J` is what the additions to come
rely on. -/
theorem addAll_perm {content : σ → List γ} {J : σ → List α → Prop}
    (hadd : ∀ x c cs, J x (c :: cs) →
      ∃ x', o.add x c = some x' ∧ J x' cs ∧ (content x').Perm (g c :: content x)) (cs : List α) :
    ∀ x, J x cs → ∃ x', addAll o cs x = some x' ∧ (content x').Perm (content x ++ cs.map g) := by
  induction cs with
  | nil => exact fun x _ => ⟨x, rfl, by simp⟩
  | cons c cs ih =>
    intro x hx
    obtain ⟨x₁, hadd₁, hx₁, hperm₁⟩ := hadd x c cs hx
    obtain ⟨x', hall, hperm⟩ := ih x₁ hx₁
    refine ⟨x', ?_, hperm.trans ?_⟩
    · rw [addAll, foldlM_cons, hadd₁]
      exact hall
    · rw [map_cons]
      exact (hperm₁.append_right _).trans perm_middle.symm

end Contents

end Honyar.Reconcile
