import Honyar.LocalScene.Value
import Mathlib.Data.Prod.Lex
import Mathlib.Data.List.Infix

/-!
# The window of a time condition

What `_scene_time_cond_is_true` answers and what it leaves, for any week list
and any clock: the loop over the entries counts those that name today's weekday
while the clock stands between start and end, and it marks a condition without
repetition lost for each other entry once the start is reached.  The second half
follows a condition through checks at different moments and says when it is
lost.
-/

namespace Honyar.LocalScene

open CText List TimeCond

/-! ## The time of the day -/

section Time

variable {hour₁ min₁ hour₂ min₂ : Int}

theorem timeCmp_neg_iff :
    timeCmp hour₁ min₁ hour₂ min₂ < 0 ↔ toLex (hour₁, min₁) < toLex (hour₂, min₂) := by
  rw [Prod.Lex.toLex_lt_toLex, timeCmp]
  split <;> [skip; split <;> [skip; split <;> [skip; split]]]
  all_goals simp only; omega

theorem timeCmp_nonpos_iff :
    timeCmp hour₁ min₁ hour₂ min₂ ≤ 0 ↔ toLex (hour₁, min₁) ≤ toLex (hour₂, min₂) := by
  rw [Prod.Lex.toLex_le_toLex, timeCmp]
  split <;> [skip; split <;> [skip; split <;> [skip; split]]]
  all_goals simp only; omega

end Time

/-- The time of the day. -/
def Tm.time (now : Tm) : ℤ ×ₗ ℤ := toLex (now.hour, now.min)

namespace TimeCond

/-- The condition is marked lost. -/
def lost (c : TimeCond) : Bool := strncmpEq stateMaxLen c.acLose ['1']

/-- The condition, marked lost. -/
def lose (c : TimeCond) : TimeCond := { c with acLose := ['1'] }

/-- The entries of the week list, as far as its field holds it. -/
def entries (c : TimeCond) : List CText := strtok ',' (strncpy weekMaxLen c.acWeek)

def startTime (c : TimeCond) : ℤ ×ₗ ℤ := toLex (atoi c.acStartHour, atoi c.acStartMinu)

def endTime (c : TimeCond) : ℤ ×ₗ ℤ := toLex (atoi c.acEndHour, atoi c.acEndMinu)

/-- The entry has the number of today's weekday, and the clock stands between
start and end. -/
def inWindow (now : Tm) (c : TimeCond) (pWeek : CText) : Bool :=
  decide (now.wday = weekIndex pWeek ∧ c.startTime ≤ now.time ∧ now.time ≤ c.endTime)

/-- The start is reached and the entry is not in its window: the branch that
marks a condition without repetition lost. -/
def expires (now : Tm) (c : TimeCond) (pWeek : CText) : Bool :=
  decide (c.startTime ≤ now.time) && !c.inWindow now pWeek && decide (atoi c.acRepeat = 0)

end TimeCond

/-! ## The loop -/

section Loop

variable {now : Tm} {c : TimeCond}

theorem timeCondWeek_eq (n : Nat) (pWeek : CText) :
    timeCondWeek now (n, c) pWeek =
      (if c.inWindow now pWeek then n + 1 else n, if c.expires now pWeek then c.lose else c) := by
  have hwindow : c.inWindow now pWeek = true ↔
      now.wday = weekIndex pWeek ∧ c.startTime ≤ now.time ∧ now.time ≤ c.endTime := by
    rw [inWindow, decide_eq_true_iff]
  simp only [timeCondWeek]
  split
  next hbefore =>
    have hlt : ¬c.startTime ≤ now.time := not_le_of_gt (timeCmp_neg_iff.mp hbefore)
    rw [if_neg fun h => hlt (hwindow.mp h).2.1, if_neg]
    simp [expires, hlt]
  next hstart =>
    have hle : c.startTime ≤ now.time :=
      not_lt.mp fun h => hstart (timeCmp_neg_iff.mpr h)
    split
    next hin =>
      have hin' : c.inWindow now pWeek = true :=
        hwindow.mpr ⟨hin.1, hle, timeCmp_nonpos_iff.mp hin.2.2⟩
      rw [if_pos hin', if_neg]
      simp [expires, hin']
    next hout =>
      have hout' : ¬c.inWindow now pWeek = true := fun h => hout
        ⟨(hwindow.mp h).1, not_lt.mp hstart, timeCmp_nonpos_iff.mpr (hwindow.mp h).2.2⟩
      rw [if_neg hout']
      split
      next hrepeat => rw [if_pos (by simp [expires, hle, hout', hrepeat]), lose]
      next hrepeat => rw [if_neg (by simp [expires, hrepeat])]

theorem foldl_timeCondWeek (ws : List CText) (n : Nat) :
    ws.foldl (timeCondWeek now) (n, c) =
      (n + ws.countP (c.inWindow now), if ws.any (c.expires now) then c.lose else c) := by
  induction ws generalizing n c with
  | nil => rfl
  | cons w ws ih =>
    rw [foldl_cons, timeCondWeek_eq, countP_cons, any_cons]
    cases hexpires : c.expires now w with
    | false =>
      rw [if_neg Bool.false_ne_true, ih, Bool.false_or]
      congr 1
      split <;> omega
    | true =>
      have hwindow : c.lose.inWindow now = c.inWindow now := rfl
      have hlater : (if ws.any (c.lose.expires now) then c.lose.lose else c.lose) = c.lose :=
        ite_self c.lose
      rw [if_pos rfl, ih, hwindow, hlater, Bool.true_or, if_pos rfl]
      congr 1
      split <;> omega

theorem sceneTimeCondIsTrue_eq (hlost : c.lost = false) :
    sceneTimeCondIsTrue now c =
      (c.entries.any (c.inWindow now), if c.entries.any (c.expires now) then c.lose else c) := by
  have hcond : ¬strncmpEq stateMaxLen c.acLose ['1'] = true := by
    rw [← lost, hlost]
    decide
  have hcount : ∀ ws : List CText,
      (ws.countP (c.inWindow now) != 0) = ws.any (c.inWindow now) := by
    intro ws
    rw [Bool.eq_iff_iff, bne_iff_ne, ← Nat.pos_iff_ne_zero, countP_pos_iff, any_eq_true]
  rw [sceneTimeCondIsTrue, if_neg hcond]
  simp only [foldl_timeCondWeek, Nat.zero_add, hcount]
  rfl

end Loop

/-! ## Names of weekdays -/

theorem nodup_apcWeek : apcWeek.Nodup := by decide

theorem strncmpEq_of_mem_apcWeek {w d : CText} (hd : d ∈ apcWeek) :
    strncmpEq weekMaxLen w d = true ↔ w = d := by
  have hlen : d.length = 3 := by
    have : ∀ d ∈ apcWeek, d.length = 3 := by decide
    exact this d hd
  have htake : d.take weekMaxLen = d := take_of_length_le (by rw [hlen]; decide)
  rw [strncmpEq_iff, htake]
  constructor
  · intro h
    have hmin : min weekMaxLen w.length = 3 := by
      rw [← length_take, h, hlen]
    have hshort : w.length ≤ weekMaxLen := by
      simp only [weekMaxLen] at hmin ⊢
      omega
    rw [← h, take_of_length_le hshort]
  · rintro rfl
    exact htake

theorem weekIndex_eq_iff {w : CText} {wday : Nat} (hday : wday < apcWeek.length) :
    weekIndex w = wday ↔ apcWeek[wday]? = some w := by
  rw [weekIndex, findIdx_eq hday, getElem?_eq_getElem hday, Option.some.injEq,
    strncmpEq_of_mem_apcWeek (getElem_mem hday)]
  constructor
  · exact fun h => h.1.symm
  · intro h
    refine ⟨h.symm, fun j hj => ?_⟩
    rw [Bool.eq_false_iff]
    intro hfound
    have hjday : apcWeek[j] = apcWeek[wday] :=
      ((strncmpEq_of_mem_apcWeek (getElem_mem _)).mp hfound).symm.trans h.symm
    exact absurd ((nodup_apcWeek.getElem_inj_iff).mp hjday) (by omega)

/-! ## The truth of the check -/

/-- A condition for Mondays and a day that is none. -/
def mondays : TimeCond where
  acTimeKey := ['k']
  acTriggerType := []
  acTriggerInterval := []
  iTriggerInterval := 0
  acStartHour := ['8']
  acStartMinu := ['0']
  acEndHour := ['9']
  acEndMinu := ['0']
  acWeek := ['X', ',', 'M', 'o', 'n']
  acRepeat := ['0']
  acLose := ['0']

/-- A moment: days are counted from a Sunday. -/
structure Moment where
  day : Nat
  hour : Int
  min : Int
deriving DecidableEq, Repr

/-- What `localtime` says of a moment. -/
def Moment.tm (t : Moment) : Tm := ⟨t.day % 7, t.hour, t.min⟩

/-- Moments are ordered by the day and then by the time of the day. -/
def Moment.at (t : Moment) : ℕ ×ₗ (ℤ ×ₗ ℤ) := toLex (t.day, t.tm.time)

namespace TimeCond

/-- The condition after checks at some moments, in order. -/
def checked (c : TimeCond) (ts : List Moment) : TimeCond :=
  ts.foldl (fun c t => (sceneTimeCondIsTrue t.tm c).2) c

/-- Each scheduled weekday has come since `made` and gone: the moment lies after
the end on the last of the days that were still ahead. -/
def Over (made : Moment) (c : TimeCond) (t : Moment) : Prop :=
  ∀ pWeek ∈ c.entries, weekIndex pWeek < apcWeek.length →
    ∃ day, day % 7 = weekIndex pWeek ∧ made.at ≤ toLex (day, c.endTime) ∧
      toLex (day, c.endTime) < t.at

/-- A check at this moment leaves the condition as it is: the start is not
reached, or every entry is in its window. -/
def quiet (c : TimeCond) (t : Moment) : Bool :=
  decide (t.tm.time < c.startTime) || c.entries.all (c.inWindow t.tm)

/-- The checks mark the condition lost only when it is over. -/
def LostInTime (made : Moment) (c : TimeCond) (ts : List Moment) : Prop :=
  ∀ us t, us ++ [t] <+: ts → (c.checked us).lost = false → (c.checked (us ++ [t])).lost = true →
    c.Over made t

theorem lost_lose (c : TimeCond) : c.lose.lost = true := rfl

variable {c : TimeCond}

theorem check_eq (hrepeat : atoi c.acRepeat = 0) (t : Moment) :
    (sceneTimeCondIsTrue t.tm c).2 = if c.lost || c.quiet t then c else c.lose := by
  cases hlost : c.lost with
  | true =>
    have hcond : strncmpEq stateMaxLen c.acLose ['1'] = true := hlost
    rw [sceneTimeCondIsTrue, if_pos hcond, Bool.true_or, if_pos rfl]
  | false =>
    have hquiet : c.entries.any (c.expires t.tm) = !c.quiet t := by
      rw [quiet, Bool.not_or, not_all_eq_any_not, ← decide_not]
      simp only [not_lt]
      rw [Bool.eq_iff_iff]
      simp only [expires, hrepeat, decide_true, Bool.and_true, any_eq_true,
        Bool.and_eq_true]
      exact ⟨fun ⟨w, hw, hs, hout⟩ => ⟨hs, w, hw, hout⟩, fun ⟨hs, w, hw, hout⟩ =>
        ⟨w, hw, hs, hout⟩⟩
    rw [sceneTimeCondIsTrue_eq hlost, hquiet, Bool.false_or]
    cases c.quiet t <;> rfl

theorem checked_eq (hrepeat : atoi c.acRepeat = 0) (ts : List Moment) :
    c.checked ts = if c.lost || ts.all c.quiet then c else c.lose := by
  induction ts generalizing c with
  | nil => rw [all_nil, Bool.or_true, if_pos rfl]; rfl
  | cons t ts ih =>
    have hcons : c.checked (t :: ts) = (sceneTimeCondIsTrue t.tm c).2.checked ts := rfl
    rw [hcons, check_eq hrepeat, all_cons]
    cases hlost : c.lost with
    | true =>
      rw [Bool.true_or, if_pos rfl, ih hrepeat, hlost, Bool.true_or, Bool.true_or]
    | false =>
      cases hquiet : c.quiet t with
      | true =>
        rw [Bool.false_or, if_pos rfl, ih hrepeat, hlost, Bool.true_and]
      | false =>
        have hstay := ih (c := c.lose) hrepeat
        rw [lost_lose, Bool.true_or, if_pos rfl] at hstay
        exact hstay

theorem lost_checked (hrepeat : atoi c.acRepeat = 0) (ts : List Moment) :
    (c.checked ts).lost = (c.lost || !ts.all c.quiet) := by
  rw [checked_eq hrepeat]
  cases hlost : c.lost with
  | true => rw [Bool.true_or, if_pos rfl, hlost, Bool.true_or]
  | false =>
    cases ts.all c.quiet with
    | true => exact hlost
    | false => rfl

end TimeCond

end Honyar.LocalScene
