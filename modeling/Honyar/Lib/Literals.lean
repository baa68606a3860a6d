import Honyar.Lib.CText
import Mathlib.Algebra.Order.BigOperators.Group.List
import Mathlib.Algebra.Ring.Nat

/-!
# Quoted literals

A text whose literals stand between quotes, and the characters between them.  A literal goes from
a quote to the next that is not one of a pair; a pair inside of it stands for one quote.

A format is cut where a quoted argument goes in, and filled with texts.  The literals that are
read back are the texts exactly when none of them has a quote: every literal spends two quotes
for each it has, and the filled format has only one.
-/

namespace Honyar.Literals

open Option List

/-- The character that delimits a literal. -/
def quote : Char := Char.ofNat 39

/-- What a text is read as. -/
inductive Token where
  | char (c : Char)
  | lit (t : CText)
deriving DecidableEq

/-- Where the reader stands: outside of literals, in one, or behind a quote in one. -/
inductive Mode where
  | outside
  | inside (acc : CText)
  | closing (acc : CText)

/-- The tokens of a text; `none` is a literal without an end. -/
def lex : Mode → CText → Option (List Token)
  | .outside, [] => some []
  | .inside _, [] => none
  | .closing acc, [] => some [.lit acc]
  | .outside, c :: s =>
    if c = quote then lex (.inside []) s else (lex .outside s).map fun ts => .char c :: ts
  | .inside acc, c :: s =>
    if c = quote then lex (.closing acc) s else lex (.inside (acc ++ [c])) s
  | .closing acc, c :: s =>
    if c = quote then lex (.inside (acc ++ [quote])) s
    else (lex .outside s).map fun ts => .lit acc :: .char c :: ts

example : lex .outside [quote] = none := by
  rw [lex, if_pos rfl, lex]

/-- The literals, in order. -/
def literals : List Token → List CText
  | [] => []
  | .char _ :: ts => literals ts
  | .lit t :: ts => t :: literals ts

/-- One statement: a semicolon ends it, and only blanks follow. -/
def Single (ts : List Token) : Prop :=
  ∃ s b : List Token, ts = s ++ .char ';' :: b ∧ .char ';' ∉ s ∧
    ∀ t ∈ b, ∃ c : Char, t = .char c ∧ c.isWhitespace = true

/-! ## Formats -/

/-- The pieces of a format between its quoted arguments. -/
def pieces : CText → List CText
  | a :: b :: c :: d :: s =>
    if a = quote ∧ b = '%' ∧ c = 's' ∧ d = quote then [] :: pieces s
    else (pieces (b :: c :: d :: s)).modifyHead (a :: ·)
  | s => [s]

/-- The format filled with texts. -/
def fill : List CText → List CText → CText
  | [], _ => []
  | p :: _, [] => p
  | p :: ps, t :: ts => p ++ quote :: t ++ quote :: fill ps ts

/-- What the filled format is to be read as. -/
def fillTokens : List CText → List CText → List Token
  | [], _ => []
  | p :: _, [] => p.map Token.char
  | p :: ps, t :: ts => p.map Token.char ++ .lit t :: fillTokens ps ts

/-- The pieces have no quote, and two arguments do not touch. -/
def Apart : List CText → Prop
  | [] => True
  | p :: ps => quote ∉ p ∧ ∀ q ∈ ps, q ≠ [] ∧ quote ∉ q

instance decidableApart : (ps : List CText) → Decidable (Apart ps)
  | [] => inferInstanceAs (Decidable True)
  | p :: ps => inferInstanceAs (Decidable (quote ∉ p ∧ ∀ q ∈ ps, q ≠ [] ∧ quote ∉ q))

/-- The last piece ends the statement, and no other has a semicolon. -/
def ended : List CText → Bool
  | [] => false
  | [p] => p.contains ';' && (p.dropWhile (· != ';')).tail.all Char.isWhitespace
  | p :: ps => !p.contains ';' && ended ps

section

variable {p acc t : CText} {ps ts : List CText} {s : CText}

/-! ## Texts without a quote -/

theorem lex_outside_append (hp : quote ∉ p) :
    lex .outside (p ++ s) = (lex .outside s).map fun ts => p.map Token.char ++ ts := by
  induction p with
  | nil => simp
  | cons c p ih =>
    obtain ⟨hc, hp⟩ := ne_and_not_mem_of_not_mem_cons hp
    rw [cons_append, lex, if_neg (Ne.symm hc), ih hp, Option.map_map]
    rfl

theorem lex_inside_append (ht : quote ∉ t) : lex (.inside acc)
    (t ++ s) = lex (.inside (acc ++ t)) s := by
  induction t generalizing acc with
  | nil => rw [nil_append, append_nil]
  | cons c t ih =>
    obtain ⟨hc, ht⟩ := ne_and_not_mem_of_not_mem_cons ht
    rw [cons_append, lex, if_neg (Ne.symm hc), ih ht, append_assoc, singleton_append]

/-- A literal is closed by the quote that no quote follows. -/
theorem lex_closing (hs : s ≠ [] → s.head? ≠ some quote) :
    lex (.closing acc) s = (lex .outside s).map fun ts => .lit acc :: ts := by
  cases s with
  | nil => rfl
  | cons c s =>
    have hc : c ≠ quote := fun h => hs (cons_ne_nil _ _) (congrArg some h)
    rw [lex, lex, if_neg hc, if_neg hc, Option.map_map]
    rfl

theorem lex_literal (ht : quote ∉ t) (hs : s ≠ [] → s.head? ≠ some quote) :
    lex .outside (quote :: t ++ quote :: s) = (lex .outside s).map fun ts => .lit t :: ts := by
  rw [cons_append, lex, if_pos rfl, lex_inside_append ht, lex, if_pos rfl, nil_append,
    lex_closing hs]

theorem Apart.tail {p q : CText} {ps : List CText} (h : Apart (p :: q :: ps)) : Apart (q :: ps) :=
  ⟨(h.2 q mem_cons_self).2, fun r hr => h.2 r (mem_cons_of_mem _ hr)⟩

theorem Apart.head?_fill {p q : CText} {ps : List CText} (h : Apart (p :: q :: ps)) :
    (fill (q :: ps) ts).head? ≠ some quote := by
  obtain ⟨hne, hq⟩ := h.2 q mem_cons_self
  obtain ⟨c, q, rfl⟩ := exists_cons_of_ne_nil hne
  have hc : c ≠ quote := fun hc => hq (hc ▸ mem_cons_self)
  cases ts with
  | nil => exact fun h => hc (some.inj h)
  | cons t ts => exact fun h => hc (some.inj h)

/-- Filled with texts that have no quote, a format is read as it was meant. -/
theorem lex_fill (hps : Apart ps) (hlen : ps.length = ts.length + 1) (hts : ∀ t ∈ ts, quote ∉ t) :
    lex .outside (fill ps ts) = some (fillTokens ps ts) := by
  induction ts generalizing ps with
  | nil =>
    obtain ⟨p, rfl⟩ := length_eq_one_iff.mp hlen
    have h := lex_outside_append (s := []) hps.1
    rwa [append_nil, lex, map_some, append_nil] at h
  | cons t ts ih =>
    obtain _ | ⟨p, _ | ⟨q, ps⟩⟩ := ps
    · cases hlen
    · cases hlen
    · obtain ⟨ht, hts⟩ := forall_mem_cons.mp hts
      rw [fill, append_assoc, lex_outside_append hps.1,
        lex_literal ht fun _ => hps.head?_fill, ih hps.tail (Nat.succ.inj hlen) hts]
      rfl

/-! ## What is read back -/

@[simp] theorem literals_append (us vs : List Token) :
    literals (us ++ vs) = literals us ++ literals vs := by
  induction us with
  | nil => rfl
  | cons u us ih =>
    cases u with
    | char c => exact ih
    | lit t => exact congrArg (t :: ·) ih

@[simp] theorem literals_map_char (p : CText) : literals (p.map Token.char) = [] := by
  induction p with
  | nil => rfl
  | cons c p ih => exact ih

theorem literals_fillTokens (hlen : ps.length = ts.length + 1) :
    literals (fillTokens ps ts) = ts := by
  induction ts generalizing ps with
  | nil =>
    obtain ⟨p, rfl⟩ := length_eq_one_iff.mp hlen
    exact literals_map_char p
  | cons t ts ih =>
    obtain _ | ⟨p, ps⟩ := ps
    · cases hlen
    · rw [fillTokens, literals_append, literals_map_char, nil_append, literals,
        ih (Nat.succ.inj hlen)]

theorem char_notMem_map {c : Char} (hp : c ∉ p) : Token.char c ∉ p.map Token.char := fun h => by
  obtain ⟨d, hd, heq⟩ := List.mem_map.mp h
  cases heq
  exact hp hd

theorem single_fillTokens (hps : ended ps = true) (hlen : ps.length = ts.length + 1) :
    Single (fillTokens ps ts) := by
  induction ts generalizing ps with
  | nil =>
    obtain ⟨p, rfl⟩ := length_eq_one_iff.mp hlen
    rw [ended, Bool.and_eq_true, contains_iff_mem] at hps
    obtain ⟨hmem, hblank⟩ := hps
    obtain ⟨a, b, rfl, ha⟩ := eq_append_cons_of_mem hmem
    have hdrop : ∀ c ∈ a, (c != ';') = true := fun c hc => bne_iff_ne.mpr fun h => ha (h ▸ hc)
    rw [dropWhile_append_of_pos hdrop] at hblank
    refine ⟨a.map Token.char, b.map Token.char, ?_, char_notMem_map ha, ?_⟩
    · rw [fillTokens, map_append, map_cons]
    · intro t ht
      obtain ⟨c, hc, rfl⟩ := List.mem_map.mp ht
      exact ⟨c, rfl, List.all_eq_true.mp hblank c hc⟩
  | cons t ts ih =>
    obtain _ | ⟨p, _ | ⟨q, ps⟩⟩ := ps
    · cases hlen
    · cases hlen
    · rw [ended, Bool.and_eq_true, Bool.not_eq_true', ← Bool.not_eq_true, contains_iff_mem]
        at hps
      · obtain ⟨s, b, hs, hnot, hb⟩ := ih hps.2 (Nat.succ.inj hlen)
        refine ⟨p.map Token.char ++ .lit t :: s, b, ?_, ?_, hb⟩
        · rw [fillTokens, hs, append_assoc, cons_append]
        · intro h
          rcases mem_append.mp h with h | h
          · exact char_notMem_map hps.1 h
          · rcases mem_cons.mp h with h | h
            · cases h
            · exact hnot h
      · exact cons_ne_nil _ _

/-! ## Counting quotes -/

/-- The quotes that tokens were read from. -/
def spent : List Token → Nat
  | [] => 0
  | .char _ :: ts => spent ts
  | .lit t :: ts => 2 + 2 * t.count quote + spent ts

/-- The quotes read so far of an unfinished literal. -/
def Mode.spent : Mode → Nat
  | .outside => 0
  | .inside acc => 1 + 2 * acc.count quote
  | .closing acc => 2 + 2 * acc.count quote

/-- No quote is lost between a text and its tokens. -/
theorem count_of_lex {m : Mode} {toks : List Token} (h : lex m s = some toks) :
    s.count quote + m.spent = spent toks := by
  induction s generalizing m toks with
  | nil =>
    cases m with
    | outside =>
      obtain rfl := some.inj h
      rfl
    | inside acc => cases h
    | closing acc =>
      obtain rfl := some.inj h
      rw [count_nil, Mode.spent, spent, spent, Nat.zero_add, Nat.add_zero]
  | cons c s ih =>
    by_cases hc : c = quote
    · rw [hc, count_cons_self]
      cases m with
      | outside =>
        rw [lex, if_pos hc] at h
        rw [← ih h, Mode.spent, Mode.spent, count_nil]
      | inside acc =>
        rw [lex, if_pos hc] at h
        rw [← ih h, Mode.spent, Mode.spent]
        omega
      | closing acc =>
        rw [lex, if_pos hc] at h
        rw [← ih h, Mode.spent, Mode.spent, count_append, count_singleton_self]
        omega
    · rw [count_cons_of_ne hc]
      cases m with
      | outside =>
        rw [lex, if_neg hc] at h
        obtain ⟨toks', h', rfl⟩ := map_eq_some_iff.mp h
        have hrest := ih h'
        rwa [spent]
      | inside acc =>
        rw [lex, if_neg hc] at h
        rw [← ih h, Mode.spent, Mode.spent, count_append, count_singleton,
          beq_eq_false_iff_ne.mpr hc]
        rfl
      | closing acc =>
        rw [lex, if_neg hc] at h
        obtain ⟨toks', h', rfl⟩ := map_eq_some_iff.mp h
        rw [spent, spent, ← ih h', Mode.spent, Mode.spent]
        omega

theorem spent_eq (toks : List Token) :
    spent toks = 2 * (literals toks).length + 2 * ((literals toks).map (List.count quote)).sum := by
  induction toks with
  | nil => rfl
  | cons tok toks ih =>
    cases tok with
    | char c => exact ih
    | lit t =>
      rw [spent, ih, literals, length_cons, map_cons, sum_cons]
      omega

/-- The filled format has two quotes for each argument, and those of the texts. -/
theorem count_fill (hps : Apart ps) (hlen : ps.length = ts.length + 1) :
    (fill ps ts).count quote = 2 * ts.length + (ts.map (List.count quote)).sum := by
  induction ts generalizing ps with
  | nil =>
    obtain ⟨p, rfl⟩ := length_eq_one_iff.mp hlen
    exact count_eq_zero.mpr hps.1
  | cons t ts ih =>
    obtain _ | ⟨p, _ | ⟨q, ps⟩⟩ := ps
    · cases hlen
    · cases hlen
    · rw [fill, append_assoc, count_append, count_eq_zero.mpr hps.1,
        cons_append, count_cons_self, count_append, count_cons_self,
        ih hps.tail (Nat.succ.inj hlen), length_cons, map_cons, sum_cons]
      omega

/-! ## Which texts are read back -/

/-- The filled format is one statement whose literals are the texts exactly when no text has a
quote. -/
theorem lex_fill_iff (hps : Apart ps) (hended : ended ps = true)
    (hlen : ps.length = ts.length + 1) :
    (∃ toks, lex .outside (fill ps ts) = some toks ∧ Single toks ∧ literals toks = ts) ↔
      ∀ t ∈ ts, quote ∉ t := by
  constructor
  · rintro ⟨toks, hlex, -, hlits⟩
    have hcount := count_of_lex hlex
    rw [count_fill hps hlen, spent_eq, hlits, Mode.spent] at hcount
    have hsum : (ts.map (List.count quote)).sum = 0 := by omega
    intro t ht
    exact count_eq_zero.mp (List.sum_eq_zero_iff_forall_eq_nat.mp hsum _ (List.mem_map_of_mem ht))
  · intro hts
    exact ⟨_, lex_fill hps hlen hts, single_fillTokens hended hlen, literals_fillTokens hlen⟩

end

end Honyar.Literals
