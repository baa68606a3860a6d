import Honyar.LocalScene.Types

/-!
# When a single condition is true

`_scene_time_cond_is_true` and `_scene_event_cond_is_true` of `scene_list.c`,
with `is_int`, `is_float` and `time_cmp` of `tool.c`.  The clock of the time
check is an argument: the weekday and the hour and minute of `localtime`.
-/

namespace Honyar.LocalScene

open CText

/-! ## Lengths of `len.h` -/

def stateMaxLen : Nat := 8
def devIdMaxLen : Nat := 64
def keyMaxLen : Nat := 128
def triggerTypeMaxLen : Nat := 32
def triggerIntervalMaxLen : Nat := 8
def continueTimeMaxLen : Nat := 8
def valueMaxLen : Nat := 128
def hourMaxLen : Nat := 8
def minuMaxLen : Nat := 8
def weekMaxLen : Nat := 64
def activeMaxLen : Nat := 8
def indexMaxLen : Nat := 64
def nameMaxLen : Nat := 128
def delayedMaxLen : Nat := 16
def timeMaxLen : Nat := 64
def noteMaxLen : Nat := 128
def actionIdMaxLen : Nat := 128
def valueCodingMaxLen : Nat := 32

/-! ## Event conditions -/

def activeEqu : CText := ['E', 'q', 'u']
def activeGtr : CText := ['G', 't', 'r']
def activeLss : CText := ['L', 's', 's']
def activeNot : CText := ['N', 'o', 't']

/-- `is_int`: only digits, the empty text included. -/
def isInt (s : CText) : Bool := s.all isDigit

/-- `is_float`: only digits and exactly one point. -/
def isFloat (s : CText) : Bool :=
  s.all (fun c => isDigit c || c == '.') && s.count '.' == 1

/-- `_scene_event_cond_is_true`. -/
def sceneEventCondIsTrue (pstCond : EventCond) (pstEventInfo : Event) : Bool :=
  let active (a : CText) : Bool := strncmpEq activeMaxLen pstCond.acActive a
  if isInt pstCond.acValue then
    let a := atoi pstEventInfo.acValue
    let b := atoi pstCond.acValue
    if active activeEqu then a == b
    else if active activeGtr then a > b
    else if active activeLss then a < b
    else if active activeNot then a != b
    else false
  else if isFloat pstCond.acValue then
    let a := atof pstEventInfo.acValue
    let b := atof pstCond.acValue
    if active activeEqu then |a - b| < 1 / 10000
    else if active activeGtr then a > b
    -- the source compares with `>` here too
    else if active activeLss then a > b
    else if active activeNot then |a - b| > 1 / 10000
    else false
  else
    let iRet := strcmp pstEventInfo.acValue pstCond.acValue
    if active activeEqu then iRet == 0
    else if active activeGtr then iRet > 0
    else if active activeLss then iRet < 0
    else if active activeNot then iRet != 0
    else false

/-! ## Time conditions -/

/-- What `localtime` says: `tm_wday`, `tm_hour`, `tm_min`. -/
structure Tm where
  wday : Nat
  hour : Int
  min : Int
deriving DecidableEq, Repr

/-- `apcWeek`. -/
def apcWeek : List CText :=
  [['S', 'u', 'n'], ['M', 'o', 'n'], ['T', 'u', 'e'], ['W', 'e', 'd'], ['T', 'h', 'u'],
    ['F', 'r', 'i'], ['S', 'a', 't']]

/-- `time_cmp`: negative, zero or positive as the first time is before, at or
after the second. -/
def timeCmp (hour₁ min₁ hour₂ min₂ : Int) : Int :=
  if hour₁ > hour₂ then 1
  else if hour₁ < hour₂ then -1
  else if min₁ > min₂ then 1
  else if min₁ < min₂ then -1
  else 0

/-- The number of a weekday name, `7` when it is none. -/
def weekIndex (pWeek : CText) : Nat := apcWeek.findIdx fun d => strncmpEq weekMaxLen pWeek d

/-- The body of the loop over the weekday names of `_scene_time_cond_is_true`,
on the pair of `iNewTrue` and the condition. -/
def timeCondWeek (now : Tm) (acc : Nat × TimeCond) (pWeek : CText) : Nat × TimeCond :=
  let (iNewTrue, c) := acc
  let start := timeCmp now.hour now.min (atoi c.acStartHour) (atoi c.acStartMinu)
  let stop := timeCmp now.hour now.min (atoi c.acEndHour) (atoi c.acEndMinu)
  if start < 0 then (iNewTrue, c)
  else if now.wday = weekIndex pWeek ∧ start ≥ 0 ∧ stop ≤ 0 then (iNewTrue + 1, c)
  else if atoi c.acRepeat = 0 then (iNewTrue, { c with acLose := ['1'] })
  else (iNewTrue, c)

/-- `_scene_time_cond_is_true`: its answer, and the condition with `acLose` as
the call leaves it. -/
def sceneTimeCondIsTrue (now : Tm) (pstCond : TimeCond) : Bool × TimeCond :=
  if strncmpEq stateMaxLen pstCond.acLose ['1'] then (false, pstCond)
  else
    let r := (strtok ',' (strncpy weekMaxLen pstCond.acWeek)).foldl (timeCondWeek now)
      (0, pstCond)
    (r.1 != 0, r.2)

theorem sceneTimeCondIsTrue_snd (now : Tm) (c : TimeCond) :
    ∃ lose, (sceneTimeCondIsTrue now c).2 = { c with acLose := lose } := by
  have hfold : ∀ (ws : List CText) (n : Nat) (d : TimeCond),
      ∃ lose, (ws.foldl (timeCondWeek now) (n, d)).2 = { d with acLose := lose } := by
    intro ws
    induction ws with
    | nil => exact fun _ d => ⟨d.acLose, rfl⟩
    | cons w ws ih =>
      intro n d
      rw [List.foldl_cons]
      have hstep : ∃ m lose, timeCondWeek now (n, d) w = (m, { d with acLose := lose }) := by
        simp only [timeCondWeek]
        split
        · exact ⟨n, d.acLose, rfl⟩
        · split
          · exact ⟨n + 1, d.acLose, rfl⟩
          · split
            · exact ⟨n, ['1'], rfl⟩
            · exact ⟨n, d.acLose, rfl⟩
      obtain ⟨m, lose, h⟩ := hstep
      rw [h]
      obtain ⟨lose', h'⟩ := ih m { d with acLose := lose }
      exact ⟨lose', h'⟩
  unfold sceneTimeCondIsTrue
  split
  · exact ⟨c.acLose, rfl⟩
  · exact hfold _ 0 c

end Honyar.LocalScene
