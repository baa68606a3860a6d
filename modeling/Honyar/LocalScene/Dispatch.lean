import Honyar.Lib.Json

/-!
# Batches of operations

`hyScene_Dispatch` (scene.c) works through the operations of a request in three
passes over one array: those on scenes, those on actions, conditions and panels,
those that execute a scene.  The first two take what they have executed out of
the array they are walking over.

The handlers of the operations are parameters: what an operation does to the
state, the code it returns (`NoErr` is 0, every error of error_msg.h a handler
returns is negative) and what it answers.
-/

namespace Honyar.LocalScene

open CText List

variable {d : Json} {acOp : CText}

/-- `OPERATION_MAX_LEN`. -/
def operationMaxLen : Nat := 16

/-- `JSON_KEY_OPERATION`. -/
def jsonKeyOperation : CText := ['O', 'p']

/-- The operations of a request. -/
inductive Operation where
  | addScene
  | delScene
  | getScene
  | addAction
  | delAction
  | getAction
  | addCond
  | delCond
  | getCond
  | bindScene
  | unbindScene
  | getBindScene
  | execScene
deriving DecidableEq, Repr

namespace Operation

/-- `JSON_VALUE_OPERATION_..`. -/
def text : Operation → CText
  | addScene => "AddScene".toList
  | delScene => "DelScene".toList
  | getScene => "GetScene".toList
  | addAction => "AddAction".toList
  | delAction => "DelAction".toList
  | getAction => "GetAction".toList
  | addCond => "AddCond".toList
  | delCond => "DelCond".toList
  | getCond => "GetCond".toList
  | bindScene => "BindScene".toList
  | unbindScene => "UnbindScene".toList
  | getBindScene => "GetBindScene".toList
  | execScene => "ExecScene".toList

/-- The operations that answer with data. -/
def answers : Operation → Bool
  | getScene | getAction | getCond | getBindScene => true
  | _ => false

end Operation

/-- What an operation leaves: the state, the code and `pstDataArryGet`. -/
structure Reply (σ : Type) where
  state : σ
  iRet : Int
  pstDataArryGet : List Json

/-- `hyScene_Add` and the others. -/
structure Handlers (σ : Type) where
  /-- The handler of an operation, on an element of the array. -/
  run : Operation → Json → σ → Reply σ
  /-- An error is negative. -/
  iRet_nonpos (o : Operation) (pstData : Json) (s : σ) : (run o pstData s).iRet ≤ 0

/-- `JsonFormatErr`. -/
def jsonFormatErr : Int := -283

/-- What `hyScene_Dispatch` works on; `ran` are the handlers called so far. -/
structure Batch (σ : Type) where
  state : σ
  pstDataArryIn : List Json
  pstDataArryOut : List Json
  acOp : CText
  iRet : Int
  ran : List (Operation × Json)

/-- One of the three loops: the operations of its `else if` chain, whether it
deletes what it has executed, and whether an element without an operation is an
error to it. -/
structure Pass where
  ops : List Operation
  deletes : Bool
  strict : Bool

variable {p : Pass}

def scenePass : Pass := ⟨[.addScene, .delScene, .getScene], true, true⟩

def otherPass : Pass where
  ops := [.addAction, .delAction, .getAction, .addCond, .delCond, .getCond, .bindScene,
    .unbindScene, .getBindScene]
  deletes := true
  strict := false

def execPass : Pass := ⟨[.execScene], false, false⟩

/-- The chain of `strncmp`s. -/
def Pass.find (p : Pass) (acOp : CText) : Option Operation :=
  p.ops.find? fun o => strncmpEq operationMaxLen acOp o.text

section

variable {σ : Type} (H : Handlers σ)

/-- An operation is executed. -/
def Batch.exec (b : Batch σ) (o : Operation) (pstData : Json) : Batch σ :=
  let r := H.run o pstData b.state
  { b with
    state := r.state
    pstDataArryOut := b.pstDataArryOut ++ if o.answers then r.pstDataArryGet else []
    iRet := b.iRet + r.iRet
    ran := b.ran ++ [(o, pstData)] }

/-- The body of a loop, with the index of the next one. -/
def Pass.visit (p : Pass) (i : Nat) (b : Batch σ) : Nat × Batch σ :=
  match b.pstDataArryIn[i]? with
  | none => (i + 1, b)
  | some pstData =>
    match Json.valueGet jsonKeyOperation b.acOp operationMaxLen pstData with
    | none => (i + 1, if p.strict then { b with iRet := jsonFormatErr } else b)
    | some acOp =>
      match p.find acOp with
      | none => (i + 1, { b with acOp := acOp })
      | some o =>
        let c := { b.exec H o pstData with acOp := acOp }
        -- `i--` and `iCount--`: the element behind the deleted one is next
        if p.deletes then (i, { c with pstDataArryIn := c.pstDataArryIn.eraseIdx i })
        else (i + 1, c)

/-- A loop that has `n = iCount - i` rounds to go: every round takes one off, be
it that `i` grows or that `iCount` shrinks. -/
def Pass.loop (p : Pass) : Nat → Nat → Batch σ → Batch σ
  | 0, _, b => b
  | n + 1, i, b =>
    let r := p.visit H i b
    p.loop n r.1 r.2

/-- A loop from its start. -/
def Pass.run (p : Pass) (b : Batch σ) : Batch σ := p.loop H b.pstDataArryIn.length 0 b

/-- `hyScene_Dispatch`. -/
def hySceneDispatch (s : σ) (pstDataArryIn : List Json) : Batch σ :=
  execPass.run H (otherPass.run H (scenePass.run H ⟨s, pstDataArryIn, [], [], 0, []⟩))

end

/-! ## What a pass does -/

/-- `acOp` after an element has been read. -/
def readOp (acOp : CText) (d : Json) : CText :=
  (Json.valueGet jsonKeyOperation acOp operationMaxLen d).getD acOp

/-- `JSON_value_get` finds an operation in the element. -/
def HasOp (d : Json) : Prop := (Json.valueGet jsonKeyOperation [] operationMaxLen d).isSome

/-- The operation a pass takes an element for. -/
def Pass.takes (p : Pass) (acOp : CText) (d : Json) : Option Operation :=
  (Json.valueGet jsonKeyOperation acOp operationMaxLen d).bind p.find

/-- What a pass executes, starting with `acOp` in the buffer. -/
def Pass.taken (p : Pass) : CText → List Json → List (Operation × Json)
  | _, [] => []
  | acOp, d :: ds => (p.takes acOp d).toList.map (·, d) ++ p.taken (readOp acOp d) ds

/-- What a pass does not execute. -/
def Pass.passed (p : Pass) : CText → List Json → List Json
  | _, [] => []
  | acOp, d :: ds =>
    if (p.takes acOp d).isSome then p.passed (readOp acOp d) ds
    else d :: p.passed (readOp acOp d) ds

/-- The operations in order: the state after them, their answers and codes. -/
def runAll {σ : Type} (H : Handlers σ) : σ → List (Operation × Json) → σ × List Json × List Int
  | s, [] => (s, [], [])
  | s, (o, d) :: os =>
    let r := H.run o d s
    let t := runAll H r.state os
    (t.1, (if o.answers then r.pstDataArryGet else []) ++ t.2.1, r.iRet :: t.2.2)

section

variable {σ : Type} {H : Handlers σ}

theorem runAll_append (s : σ) (os ps : List (Operation × Json)) :
    runAll H s (os ++ ps) =
      ((runAll H (runAll H s os).1 ps).1,
        (runAll H s os).2.1 ++ (runAll H (runAll H s os).1 ps).2.1,
        (runAll H s os).2.2 ++ (runAll H (runAll H s os).1 ps).2.2) := by
  induction os generalizing s with
  | nil => rfl
  | cons o os ih => simp [runAll, ih]

theorem getElem?_done (done : List Json) (d : Json) (ds : List Json) :
    (done ++ d :: ds)[done.length]? = some d := by
  simp

theorem eraseIdx_done (done : List Json) (d : Json) (ds : List Json) :
    (done ++ d :: ds).eraseIdx done.length = done ++ ds := by
  rw [eraseIdx_append_of_length_le (Nat.le_refl _), Nat.sub_self]
  rfl

theorem hasOp_iff (acOp : CText) (d : Json) :
    HasOp d ↔ (Json.valueGet jsonKeyOperation acOp operationMaxLen d).isSome := by
  unfold HasOp Json.valueGet
  split <;> rfl

/-- What a pass leaves of a batch of which it has been over the elements `ds`;
`done` were before them and `rest` are behind. -/
structure Pass.Spec (p : Pass) (H : Handlers σ) (done ds rest : List Json) (b c : Batch σ) :
    Prop where
  ran : c.ran = b.ran ++ p.taken b.acOp ds
  acOp : c.acOp = ds.foldl readOp b.acOp
  left : c.pstDataArryIn = done ++ (if p.deletes then p.passed b.acOp ds else ds) ++ rest
  state : c.state = (runAll H b.state (p.taken b.acOp ds)).1
  out : c.pstDataArryOut = b.pstDataArryOut ++ (runAll H b.state (p.taken b.acOp ds)).2.1
  nonpos : c.iRet ≤ 0
  noErr : c.iRet = 0 ↔ b.iRet = 0 ∧ (p.strict → ∀ d ∈ ds, HasOp d) ∧
    ∀ r ∈ (runAll H b.state (p.taken b.acOp ds)).2.2, r = 0

theorem Pass.taken_cons (p : Pass) (acOp : CText) (d : Json) (ds : List Json) :
    p.taken acOp (d :: ds) = p.taken acOp [d] ++ p.taken (readOp acOp d) ds := by
  simp [taken]

theorem Pass.passed_cons (p : Pass) (acOp : CText) (d : Json) (ds : List Json) :
    p.passed acOp (d :: ds) = p.passed acOp [d] ++ p.passed (readOp acOp d) ds := by
  cases h : (p.takes acOp d).isSome <;> simp [passed, h]

theorem Pass.visit_spec (p : Pass) (done : List Json) (d : Json) (ds : List Json) (b : Batch σ)
    (hb : b.pstDataArryIn = done ++ d :: ds) (hr : b.iRet ≤ 0) :
    p.Spec H done [d] ds b (p.visit H done.length b).2 ∧
      (p.visit H done.length b).1 =
        (done ++ if p.deletes then p.passed b.acOp [d] else [d]).length := by
  have hd : b.pstDataArryIn[done.length]? = some d := by rw [hb, getElem?_done]
  cases hv : Json.valueGet jsonKeyOperation b.acOp operationMaxLen d with
  | none =>
    have hread : readOp b.acOp d = b.acOp := by rw [readOp, hv]; rfl
    have htakes : p.takes b.acOp d = none := by rw [takes, hv]; rfl
    have hno : ¬ HasOp d := by rw [hasOp_iff b.acOp, hv]; exact Bool.false_ne_true
    have hvisit : p.visit H done.length b =
        (done.length + 1, if p.strict then { b with iRet := jsonFormatErr } else b) := by
      simp only [visit, hd, hv]
    rw [hvisit]
    constructor
    · cases hs : p.strict
      · refine ⟨?_, ?_, ?_, ?_, ?_, hr, ?_⟩
        all_goals simp [taken, passed, runAll, htakes, hread, hb, hs]
      · refine ⟨?_, ?_, ?_, ?_, ?_, ?_, ?_⟩
        all_goals simp [taken, passed, runAll, htakes, hread, hb, hs, hno, jsonFormatErr]
    · cases p.deletes <;> simp [passed, htakes]
  | some acOp =>
    have hread : readOp b.acOp d = acOp := by rw [readOp, hv]; rfl
    have hop : HasOp d := by rw [hasOp_iff b.acOp, hv]; rfl
    cases hf : p.find acOp with
    | none =>
      have htakes : p.takes b.acOp d = none := by rw [takes, hv]; exact hf
      have hvisit : p.visit H done.length b = (done.length + 1, { b with acOp := acOp }) := by
        simp only [visit, hd, hv, hf]
      rw [hvisit]
      constructor
      · refine ⟨?_, ?_, ?_, ?_, ?_, hr, ?_⟩
        all_goals simp [taken, passed, runAll, htakes, hread, hb, hop]
      · cases p.deletes <;> simp [passed, htakes]
    | some o =>
      have htakes : p.takes b.acOp d = some o := by rw [takes, hv]; exact hf
      have hcode : (H.run o d b.state).iRet ≤ 0 := H.iRet_nonpos o d b.state
      cases hdel : p.deletes
      · have hvisit : p.visit H done.length b =
            (done.length + 1, { b.exec H o d with acOp := acOp }) := by
          simp [visit, hd, hv, hf, hdel]
        rw [hvisit]
        refine ⟨⟨?_, ?_, ?_, ?_, ?_, Int.add_nonpos hr hcode, ?_⟩, ?_⟩
        all_goals simp [taken, runAll, htakes, hread, hb, hop, hdel, Batch.exec]
        omega
      · have hvisit : p.visit H done.length b =
            (done.length, { b.exec H o d with
              acOp := acOp, pstDataArryIn := b.pstDataArryIn.eraseIdx done.length }) := by
          simp [visit, hd, hv, hf, hdel, Batch.exec]
        rw [hvisit]
        refine ⟨⟨?_, ?_, ?_, ?_, ?_, Int.add_nonpos hr hcode, ?_⟩, ?_⟩
        all_goals
          simp [taken, passed, runAll, htakes, hread, hb, hop, hdel, Batch.exec, eraseIdx_done]
        omega

/-- The rounds of a pass, by induction on the elements still to come. -/
theorem Pass.loop_spec (p : Pass) (done ds : List Json) (b : Batch σ)
    (hb : b.pstDataArryIn = done ++ ds) (hr : b.iRet ≤ 0) :
    p.Spec H done ds [] b (p.loop H ds.length done.length b) := by
  induction ds generalizing done b with
  | nil =>
    refine ⟨?_, rfl, ?_, rfl, ?_, hr, ?_⟩
    all_goals simp [loop, taken, passed, runAll, hb]
  | cons d ds ih =>
    obtain ⟨hv, hi⟩ := p.visit_spec (H := H) done d ds b hb hr
    have hl := ih _ _ hv.left hv.nonpos
    have hop : (p.visit H done.length b).2.acOp = readOp b.acOp d := hv.acOp
    rw [length_cons, loop, hi]
    refine ⟨?_, ?_, ?_, ?_, ?_, hl.nonpos, ?_⟩
    · rw [hl.ran, hv.ran, hop, p.taken_cons b.acOp d ds, append_assoc]
    · rw [hl.acOp, hv.acOp]
      rfl
    · rw [hl.left, hop, p.passed_cons b.acOp d ds]
      cases p.deletes <;> simp
    · rw [hl.state, hv.state, hop, p.taken_cons b.acOp d ds, runAll_append]
    · rw [hl.out, hv.out, hv.state, hop, p.taken_cons b.acOp d ds, runAll_append, append_assoc]
    · rw [hl.noErr, hv.noErr, hv.state, hop, p.taken_cons b.acOp d ds, runAll_append,
        forall_mem_append]
      simp only [forall_mem_cons, not_mem_nil, false_imp_iff, implies_true, and_true]
      tauto

theorem Pass.run_spec (p : Pass) (b : Batch σ) (hr : b.iRet ≤ 0) :
    p.Spec H [] b.pstDataArryIn [] b (p.run H b) :=
  p.loop_spec [] b.pstDataArryIn b rfl hr

end

/-! ## What the batch asks for -/

/-- The operation an element names; none when it has no operation, or null for
it. -/
def opText (d : Json) : Option CText :=
  match d.getObjectItem jsonKeyOperation with
  | some .null => none
  | _ => Json.valueGet jsonKeyOperation [] operationMaxLen d

/-- An element whose operation is null. -/
def NullOp (d : Json) : Prop := HasOp d ∧ opText d = none

/-- The operation of a pass an element names. -/
def Pass.names (p : Pass) (d : Json) : Option Operation := (opText d).bind p.find

/-- The elements of a pass in their order, each with its operation. -/
def Pass.selects (p : Pass) (ds : List Json) : List (Operation × Json) :=
  ds.flatMap fun d => (p.names d).toList.map (·, d)

/-- The elements that are not of the pass. -/
def Pass.others (p : Pass) (ds : List Json) : List Json := ds.filter fun d => (p.names d).isNone

/-- No element with a null operation is read while the buffer holds the name of
an operation of the pass. -/
def Pass.Fresh (p : Pass) : CText → List Json → Prop
  | _, [] => True
  | acOp, d :: ds => (NullOp d → p.find acOp = none) ∧ p.Fresh (readOp acOp d) ds

theorem valueGet_of_opText {t : CText} (h : opText d = some t) (acOp : CText) :
    Json.valueGet jsonKeyOperation acOp operationMaxLen d = some t := by
  unfold opText at h
  split at h
  · cases h
  · next hn =>
      unfold Json.valueGet at h ⊢
      split at h <;> simp_all

theorem valueGet_of_nullOp (h : NullOp d) (acOp : CText) :
    Json.valueGet jsonKeyOperation acOp operationMaxLen d = some acOp := by
  obtain ⟨hop, ht⟩ := h
  unfold opText at ht
  split at ht
  · next hn => simp only [Json.valueGet, hn]
  · rw [HasOp, ht] at hop
    exact absurd hop Bool.false_ne_true

theorem valueGet_of_not_hasOp (h : ¬ HasOp d) (acOp : CText) :
    Json.valueGet jsonKeyOperation acOp operationMaxLen d = none := by
  rw [hasOp_iff acOp, Bool.not_eq_true, Option.isSome_eq_false_iff, Option.isNone_iff_eq_none] at h
  exact h

theorem op_cases (d : Json) : (∃ t, opText d = some t) ∨ NullOp d ∨ ¬ HasOp d := by
  by_cases h : HasOp d
  · cases ht : opText d with
    | some t => exact .inl ⟨t, rfl⟩
    | none => exact .inr (.inl ⟨h, ht⟩)
  · exact .inr (.inr h)

theorem names_of_not_hasOp (p : Pass) (h : ¬ HasOp d) : p.names d = none := by
  have ht : opText d = none := by
    cases ht : opText d with
    | none => rfl
    | some t =>
      rw [hasOp_iff [], valueGet_of_opText ht] at h
      exact absurd rfl h
  rw [Pass.names, ht]
  rfl

theorem Pass.takes_eq_names (p : Pass) (h : NullOp d → p.find acOp = none) :
    p.takes acOp d = p.names d := by
  rcases op_cases d with ⟨t, ht⟩ | hn | hno
  · rw [takes, valueGet_of_opText ht, names, ht]
  · rw [takes, valueGet_of_nullOp hn, names, hn.2]
    exact h hn
  · rw [takes, valueGet_of_not_hasOp hno, names_of_not_hasOp p hno]
    rfl

theorem Pass.Fresh.taken_eq {ds : List Json} (h : p.Fresh acOp ds) :
    p.taken acOp ds = p.selects ds ∧ p.passed acOp ds = p.others ds := by
  induction ds generalizing acOp with
  | nil => exact ⟨rfl, rfl⟩
  | cons d ds ih =>
    obtain ⟨ht, hp⟩ := ih h.2
    rw [taken, passed, p.takes_eq_names h.1, ht, hp]
    refine ⟨rfl, ?_⟩
    cases hn : p.names d <;> simp [others, hn]

theorem Pass.length_selects_le (p : Pass) (acOp : CText) (ds : List Json) :
    (p.selects ds).length ≤ (p.taken acOp ds).length := by
  induction ds generalizing acOp with
  | nil => exact Nat.le_refl 0
  | cons d ds ih =>
    have hd : (p.names d).toList.length ≤ (p.takes acOp d).toList.length := by
      rcases op_cases d with ⟨t, ht⟩ | hn | hno
      · rw [p.takes_eq_names fun hn => absurd (hn.2 ▸ ht) (by simp)]
      · rw [names, hn.2]
        exact Nat.zero_le _
      · rw [names_of_not_hasOp p hno]
        exact Nat.zero_le _
    have hrest := ih (readOp acOp d)
    simp only [selects, flatMap_cons, taken, length_append, length_map] at hrest ⊢
    exact Nat.add_le_add hd hrest

theorem Pass.fresh_of_length {ds : List Json}
    (h : (p.taken acOp ds).length = (p.selects ds).length) :
    p.Fresh acOp ds := by
  induction ds generalizing acOp with
  | nil => trivial
  | cons d ds ih =>
    have hrest := p.length_selects_le (readOp acOp d) ds
    have hd := p.length_selects_le acOp [d]
    have hsplit : p.selects (d :: ds) = p.selects [d] ++ p.selects ds := by simp [selects]
    rw [taken_cons, hsplit, length_append, length_append] at h
    refine ⟨fun hn => ?_, ih (by omega)⟩
    have hnone : (p.selects [d]).length = 0 := by simp [selects, names, hn.2]
    have htaken : (p.taken acOp [d]).length = (p.find acOp).toList.length := by
      simp [taken, takes, valueGet_of_nullOp hn]
    cases hf : p.find acOp with
    | none => rfl
    | some o =>
      rw [hf] at htaken
      have : (some o).toList.length = 1 := rfl
      omega

/-- Passes that have no operation in common. -/
def Pass.Disjoint (p q : Pass) : Prop := ∀ t, (p.find t).isSome → q.find t = none

theorem Pass.disjoint_of_texts {q : Pass}
    (h : ∀ o ∈ p.ops, ∀ o' ∈ q.ops, o.text.take operationMaxLen ≠ o'.text.take operationMaxLen) :
    p.Disjoint q := by
  intro t ht
  obtain ⟨o, ho⟩ := Option.isSome_iff_exists.mp ht
  have hmem : o ∈ p.ops := mem_of_find?_eq_some ho
  have hto : strncmpEq operationMaxLen t o.text = true := by
    have := find?_some ho
    exact this
  rw [find, find?_eq_none]
  intro o' ho' heq
  exact h o hmem o' ho' ((strncmpEq_iff.mp hto).symm.trans (strncmpEq_iff.mp heq))

theorem Pass.Disjoint.selects_passed {q : Pass} (h : p.Disjoint q) (acOp : CText) (ds : List Json) :
    q.selects (p.passed acOp ds) = q.selects ds := by
  induction ds generalizing acOp with
  | nil => rfl
  | cons d ds ih =>
    have hsplit (xs : List Json) : q.selects (d :: xs) = q.selects [d] ++ q.selects xs := by
      simp [selects]
    rw [passed]
    split
    · next ht =>
        have hd : q.selects [d] = [] := by
          rcases op_cases d with ⟨t, htext⟩ | hn | hno
          · rw [takes, valueGet_of_opText htext] at ht
            simp [selects, names, htext, h t ht]
          · simp [selects, names, hn.2]
          · simp [selects, names_of_not_hasOp q hno]
        rw [ih, hsplit ds, hd, nil_append]
    · rw [hsplit, ih, hsplit ds]

theorem scenePass_otherPass : scenePass.Disjoint otherPass :=
  Pass.disjoint_of_texts (by decide)

theorem scenePass_execPass : scenePass.Disjoint execPass :=
  Pass.disjoint_of_texts (by decide)

theorem otherPass_execPass : otherPass.Disjoint execPass :=
  Pass.disjoint_of_texts (by decide)

/-! ## The batch -/

/-- The operations of a batch in the order they are due: by phase, and within
one in the order of the array. -/
def due (ds : List Json) : List (Operation × Json) :=
  scenePass.selects ds ++ otherPass.selects ds ++ execPass.selects ds

/-- The elements that stay in the array. -/
def kept (ds : List Json) : List Json := otherPass.others (scenePass.others ds)

/-- A batch was executed in three phases: each operation once, in its order,
with the effects and answers of running them so; what is not of the first two
phases is left in the array; and the result is `NoErr` exactly when every
element has an operation and none of those executed failed. -/
structure ThreePhase {σ : Type} (H : Handlers σ) (s : σ) (ds : List Json) (c : Batch σ) : Prop where
  ran : c.ran = due ds
  state : c.state = (runAll H s (due ds)).1
  out : c.pstDataArryOut = (runAll H s (due ds)).2.1
  left : c.pstDataArryIn = kept ds
  noErr : c.iRet = 0 ↔ (∀ d ∈ ds, HasOp d) ∧ ∀ r ∈ (runAll H s (due ds)).2.2, r = 0

/-- In none of the passes an element with a null operation is read while the
buffer still holds the name of an operation of that pass, from the element read
before it or from the pass before. -/
structure NoStale (ds : List Json) : Prop where
  scene : scenePass.Fresh [] ds
  other : otherPass.Fresh (ds.foldl readOp []) (scenePass.others ds)
  exec : execPass.Fresh ((scenePass.others ds).foldl readOp (ds.foldl readOp [])) (kept ds)

section

variable {σ : Type} {H : Handlers σ}

theorem hySceneDispatch_spec (s : σ) (ds : List Json) :
    ∃ b c : Batch σ,
      scenePass.Spec H [] ds [] ⟨s, ds, [], [], 0, []⟩ b ∧
      otherPass.Spec H [] b.pstDataArryIn [] b c ∧
      execPass.Spec H [] c.pstDataArryIn [] c (hySceneDispatch H s ds) := by
  have h₁ := scenePass.run_spec (H := H) ⟨s, ds, [], [], 0, []⟩ (Int.le_refl 0)
  have h₂ := otherPass.run_spec (H := H) _ h₁.nonpos
  exact ⟨_, _, h₁, h₂, execPass.run_spec _ h₂.nonpos⟩

theorem hySceneDispatch_state (s : σ) (ds : List Json) :
    (hySceneDispatch H s ds).state = (runAll H s (hySceneDispatch H s ds).ran).1 := by
  obtain ⟨b, c, h₁, h₂, h₃⟩ := hySceneDispatch_spec (H := H) s ds
  rw [h₃.ran, h₂.ran, h₁.ran, nil_append, runAll_append, runAll_append, h₃.state, h₂.state,
    h₁.state]

theorem hySceneDispatch_keeps {I : σ → Prop} {s : σ} {ds : List Json}
    (h : ∀ p ∈ (hySceneDispatch H s ds).ran, ∀ s, I s → I (H.run p.1 p.2 s).state) (hi : I s) :
    I (hySceneDispatch H s ds).state := by
  rw [hySceneDispatch_state]
  generalize (hySceneDispatch H s ds).ran = os at h ⊢
  induction os generalizing s with
  | nil => exact hi
  | cons p os ih =>
    obtain ⟨hp, hos⟩ := forall_mem_cons.mp h
    exact ih (hp s hi) hos

/-- A batch is executed in three phases exactly when no element with a null
operation is taken for one of another element. -/
theorem hySceneDispatch_threePhase_iff (s : σ) (ds : List Json) :
    ThreePhase H s ds (hySceneDispatch H s ds) ↔ NoStale ds := by
  obtain ⟨b, c, h₁, h₂, h₃⟩ := hySceneDispatch_spec (H := H) s ds
  have hin₁ : b.pstDataArryIn = scenePass.passed [] ds := by simpa [scenePass] using h₁.left
  have hin₂ : c.pstDataArryIn = otherPass.passed b.acOp b.pstDataArryIn := by
    simpa [otherPass] using h₂.left
  have hop₁ : b.acOp = ds.foldl readOp [] := h₁.acOp
  have hran : (hySceneDispatch H s ds).ran = scenePass.taken [] ds ++
      otherPass.taken b.acOp b.pstDataArryIn ++ execPass.taken c.acOp c.pstDataArryIn := by
    rw [h₃.ran, h₂.ran, h₁.ran, nil_append]
  have hsel₂ : otherPass.selects b.pstDataArryIn = otherPass.selects ds := by
    rw [hin₁, scenePass_otherPass.selects_passed]
  have hsel₃ : execPass.selects c.pstDataArryIn = execPass.selects ds := by
    rw [hin₂, otherPass_execPass.selects_passed, hin₁, scenePass_execPass.selects_passed]
  constructor
  · intro h
    -- every pass executes its own elements; no more of them than there are
    have hlen := congrArg List.length (hran.symm.trans h.ran)
    have hle₁ := scenePass.length_selects_le [] ds
    have hle₂ := otherPass.length_selects_le b.acOp b.pstDataArryIn
    have hle₃ := execPass.length_selects_le c.acOp c.pstDataArryIn
    simp only [due, length_append] at hlen
    rw [hsel₂] at hle₂
    rw [hsel₃] at hle₃
    have hfresh₁ : scenePass.Fresh [] ds := Pass.fresh_of_length (by omega)
    have hfresh₂ : otherPass.Fresh b.acOp b.pstDataArryIn :=
      Pass.fresh_of_length (by rw [hsel₂]; omega)
    have hfresh₃ : execPass.Fresh c.acOp c.pstDataArryIn :=
      Pass.fresh_of_length (by rw [hsel₃]; omega)
    rw [hin₂, hfresh₂.taken_eq.2, h₂.acOp, hin₁, hfresh₁.taken_eq.2, hop₁] at hfresh₃
    rw [hin₁, hfresh₁.taken_eq.2, hop₁] at hfresh₂
    exact ⟨hfresh₁, hfresh₂, hfresh₃⟩
  · intro h
    have heq₁ := h.scene.taken_eq
    rw [heq₁.2] at hin₁
    have hfresh₂ : otherPass.Fresh b.acOp b.pstDataArryIn := by
      rw [hin₁, hop₁]
      exact h.other
    have heq₂ := hfresh₂.taken_eq
    have hkept : c.pstDataArryIn = kept ds := by rw [hin₂, heq₂.2, hin₁, kept]
    have hop₂ : c.acOp = (scenePass.others ds).foldl readOp (ds.foldl readOp []) := by
      rw [h₂.acOp, hin₁, hop₁]
    have hfresh₃ : execPass.Fresh c.acOp c.pstDataArryIn := by
      rw [hkept, hop₂]
      exact h.exec
    have htaken₁ : scenePass.taken [] ds = scenePass.selects ds := heq₁.1
    have htaken₂ := heq₂.1.trans hsel₂
    have htaken₃ := hfresh₃.taken_eq.1.trans hsel₃
    have hs₁ := h₁.state
    have hs₂ := h₂.state
    rw [htaken₁] at hs₁
    rw [htaken₂, hs₁] at hs₂
    refine ⟨?_, ?_, ?_, ?_, ?_⟩
    · rw [hran, htaken₁, htaken₂, htaken₃, due]
    · rw [h₃.state, htaken₃, hs₂, due, runAll_append, runAll_append]
    · rw [h₃.out, htaken₃, hs₂, h₂.out, htaken₂, hs₁, h₁.out, htaken₁, due, runAll_append,
        runAll_append]
      rfl
    · rw [h₃.left, hkept]
      simp [execPass]
    · rw [h₃.noErr, htaken₃, hs₂, h₂.noErr, htaken₂, hs₁, h₁.noErr, htaken₁, due, runAll_append,
        runAll_append]
      simp only [scenePass, otherPass, execPass, forall_mem_append, Bool.false_eq_true,
        false_imp_iff, true_imp_iff, true_and]
      tauto

end

namespace Sample

/-- Handlers that do nothing and succeed. -/
def idle : Handlers Unit where
  run _ _ _ := ⟨(), 0, []⟩
  iRet_nonpos _ _ _ := Int.le_refl 0

/-- A scene is added, and the element behind it names no operation. -/
def addThenNull : List Json :=
  [.object [(jsonKeyOperation, .string Operation.addScene.text)],
    .object [(jsonKeyOperation, .null)]]

end Sample

/-- The element with the null operation is executed as a second `AddScene`: the
buffer `acOp` is not cleared. -/
theorem hySceneDispatch_null_executed :
    ¬ ∀ (σ : Type) (H : Handlers σ) (s : σ) (ds : List Json),
      ThreePhase H s ds (hySceneDispatch H s ds) := by
  intro h
  have hran := congrArg List.length (h Unit Sample.idle () Sample.addThenNull).ran
  revert hran
  decide

end Honyar.LocalScene
