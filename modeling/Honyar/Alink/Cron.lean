import Honyar.Lib.Decimal
import Honyar.Alink.Emit
import Honyar.Alink.Operand

/-!
# Schedules of the cloud

A cron text names a minute, an hour, a day, a month and week days, with blanks between them; a
field may be a list, with commas.  `addtriggers` (scene_add.c) cuts at both alike, takes the first
two tokens for the minute and the hour, and whatever stands behind the fourth for week days.
-/

namespace Honyar.Alink

open CText Option List

/-- A decimal number. -/
def Decimal (t : CText) : Prop := t ≠ [] ∧ ∀ c ∈ t, isDigit c = true

/-- A cron text by its fields; without week days it has a `*`. -/
structure Cron where
  minute : CText
  hour : CText
  day : CText
  month : CText
  week : Option (List CText)
  minute_decimal : Decimal minute
  hour_decimal : Decimal hour
  day_plain : ' ' ∉ day
  month_plain : ' ' ∉ month
  week_ne : week ≠ some []
  week_decimal : ∀ ws, week = some ws → ∀ w ∈ ws, Decimal w ∧ digitsVal w ≤ 7

namespace Cron

variable (c : Cron)

/-- The entries of the last field. -/
def weekEntries : List CText := c.week.getD [['*']]

def text : CText :=
  c.minute ++ ' ' :: (c.hour ++ ' ' :: (c.day ++ ' ' :: (c.month ++ ' ' ::
    [','].intercalate c.weekEntries)))

/-- The week days it stands for, counted from Sunday, which is 0 and 7. -/
def On (d : Nat) : Prop :=
  c.week = none ∨ ∃ ws, c.week = some ws ∧ ∃ w ∈ ws, digitsVal w % 7 = d

/-- What is taken for its week days: the entries of day and month but the first two, and those of
the last field. -/
def behind : List CText :=
  (strsep [','] c.day ++ strsep [','] c.month).drop 2 ++ c.weekEntries

/-- What is taken for its week days are at most eight numbers from 0 to 6, which are the week
days it stands for. -/
structure Kept : Prop where
  short : c.behind.length ≤ 8
  inside : ∀ w ∈ c.behind, 0 ≤ atoi w ∧ atoi w ≤ 6
  same : ∀ d : Nat, d < 7 → ((∃ w ∈ c.behind, atoi w = d) ↔ c.On d)

end Cron

/-- A list of names of week days names these days and no others. -/
structure Denotes (week : CText) (on : Nat → Prop) : Prop where
  names : ∀ t ∈ strsep [','] week, t ∈ weekDay
  days : ∀ d name, weekDay[d]? = some name → (name ∈ strsep [','] week ↔ on d)

/-- The condition of a schedule. -/
structure Scheduled (c : Cron) (o : Members) : Prop where
  condType : o.values "CondType" = [.string "Time".toList]
  startMinu : o.values "StartMinu" = [.string c.minute]
  endMinu : o.values "EndMinu" = [.string c.minute]
  startHour : o.values "StartHour" = [.string c.hour]
  endHour : o.values "EndHour" = [.string c.hour]
  week : ∃ t, o.values "Week" = [.string t] ∧ Denotes t c.On

/-! ## Tokens -/

theorem strsep_append {delim : List Char} {d : Char} (hd : d ∈ delim) (s t : CText) :
    strsep delim (s ++ d :: t) = strsep delim s ++ strsep delim t :=
  splitOnP_append_cons s t (by simpa using hd)

theorem strsep_plain {s : CText} (h : ' ' ∉ s) : strsep [' ', ','] s = strsep [','] s := by
  unfold strsep
  induction s with
  | nil => rfl
  | cons a s ih =>
    rw [mem_cons, not_or] at h
    have ha : ¬ a = ' ' := fun heq => h.1 heq.symm
    rw [splitOnP_cons_eq_if_modifyHead, splitOnP_cons_eq_if_modifyHead, ih h.2]
    simp [ha]

theorem Decimal.not_delim {t : CText} (h : Decimal t) : ∀ c ∈ t, c ∉ [' ', ','] := by
  intro c hc hmem
  have hdigit := h.2 c hc
  simp only [mem_cons, not_mem_nil, or_false] at hmem
  rcases hmem with rfl | rfl
  · exact absurd hdigit (by decide)
  · exact absurd hdigit (by decide)

theorem Decimal.atoi_eq {t : CText} (h : Decimal t) : atoi t = digitsVal t := atoi_of_digits h.2

namespace Cron

variable {c : Cron}

theorem weekEntries_ne : c.weekEntries ≠ [] := by
  rw [weekEntries]
  cases hw : c.week with
  | none => simp
  | some ws =>
    rintro rfl
    exact c.week_ne hw

theorem weekEntries_not_delim : ∀ t ∈ c.weekEntries, ∀ a ∈ t, a ∉ [' ', ','] := by
  rw [weekEntries]
  cases hw : c.week with
  | none => simp
  | some ws => exact fun t ht => (c.week_decimal ws hw t ht).1.not_delim

theorem two_le_length : 2 ≤ (strsep [','] c.day ++ strsep [','] c.month).length := by
  have hday := length_pos_of_ne_nil (splitOnP_ne_nil (· ∈ [',']) c.day)
  have hmonth := length_pos_of_ne_nil (splitOnP_ne_nil (· ∈ [',']) c.month)
  rw [length_append]
  unfold strsep
  omega

theorem strsep_text : ∃ x month, strsep [' ', ','] c.text =
    c.minute :: c.hour :: x :: month :: c.behind := by
  have hcut : strsep [' ', ','] c.text = c.minute :: c.hour ::
      (strsep [','] c.day ++ strsep [','] c.month ++ c.weekEntries) := by
    rw [text, strsep_append_cons c.minute_decimal.not_delim (by simp),
      strsep_append_cons c.hour_decimal.not_delim (by simp), strsep_append (by simp),
      strsep_append (by simp), strsep_intercalate (by simp) weekEntries_not_delim weekEntries_ne,
      strsep_plain c.day_plain, strsep_plain c.month_plain, append_assoc]
  rw [hcut, behind]
  obtain ⟨x, rest, hrest⟩ := exists_cons_of_length_pos (Nat.lt_of_lt_of_le Nat.zero_lt_two
    (two_le_length (c := c)))
  have htwo := two_le_length (c := c)
  rw [hrest] at htwo ⊢
  obtain ⟨month, rest', rfl⟩ := exists_cons_of_length_pos (Nat.le_of_succ_le_succ htwo)
  exact ⟨x, month, rfl⟩

end Cron

/-! ## Week days -/

theorem weekDay_nodup : weekDay.Nodup := by decide

theorem weekDay_not_comma : ∀ t ∈ weekDay, ∀ a ∈ t, a ∉ [','] := by simp [weekDay]

/-- The name of a day. -/
def dayName (w : CText) : Option CText := if 0 ≤ atoi w then weekDay[(atoi w).toNat]? else none

theorem weekText_eq_some {days : List CText} {week : CText} (h : weekText days = some week) :
    ∃ names, List.Forall₂ (fun w name => dayName w = some name) days names ∧
      week = [','].intercalate names := by
  rw [weekText, bind_eq_bind, bind_eq_some_iff] at h
  obtain ⟨names, hnames, hweek⟩ := h
  exact ⟨names, mapM_eq_some_iff.mp hnames, (sprintf_singleton_eq_some.mp hweek).2.symm⟩

theorem dayName_eq_some {w name : CText} (h : dayName w = some name) :
    0 ≤ atoi w ∧ weekDay[(atoi w).toNat]? = some name := by
  unfold dayName at h
  split at h
  · rename_i hw
    exact ⟨hw, h⟩
  · cases h

theorem mem_names_iff {days names : List CText}
    (h : List.Forall₂ (fun w name => dayName w = some name) days names) {d : Nat} {name : CText}
    (hd : weekDay[d]? = some name) : name ∈ names ↔ ∃ w ∈ days, atoi w = d := by
  constructor
  · intro hmem
    obtain ⟨w, hw, hname⟩ := Keyed.exists_of_forall₂ h hmem
    obtain ⟨hpos, hget⟩ := dayName_eq_some hname
    have hlt : (atoi w).toNat < weekDay.length := (List.getElem?_eq_some_iff.mp hget).1
    have heq : (atoi w).toNat = d :=
      (getElem?_inj hlt weekDay_nodup).mp (hget.trans hd.symm)
    exact ⟨w, hw, by omega⟩
  · rintro ⟨w, hw, heq⟩
    obtain ⟨name', hmem, hname⟩ := Keyed.exists_of_forall₂ h.flip hw
    obtain ⟨-, hget⟩ := dayName_eq_some hname
    rw [heq, Int.toNat_natCast, hd] at hget
    exact some.inj hget ▸ hmem

theorem denotes_iff {days : List CText} {week : CText} (hne : days ≠ [])
    (h : weekText days = some week) {on : Nat → Prop} :
    Denotes week on ↔ ∀ d : Nat, d < 7 → ((∃ w ∈ days, atoi w = d) ↔ on d) := by
  obtain ⟨names, hnames, rfl⟩ := weekText_eq_some h
  have hweek : ∀ t ∈ names, t ∈ weekDay := by
    intro t ht
    obtain ⟨w, -, hw⟩ := Keyed.exists_of_forall₂ hnames ht
    exact mem_of_getElem? (dayName_eq_some hw).2
  have hnil : names ≠ [] := by
    rintro rfl
    exact hne (forall₂_nil_right_iff.mp hnames)
  have hcut : strsep [','] ([','].intercalate names) = names :=
    strsep_intercalate (by simp) (fun t ht => weekDay_not_comma t (hweek t ht)) hnil
  constructor
  · intro hdenotes d hd
    have hget : weekDay[d]? = some (weekDay.get ⟨d, hd⟩) := getElem?_eq_getElem hd
    rw [← mem_names_iff hnames hget, ← hdenotes.days d _ hget, hcut]
  · intro hsame
    refine ⟨fun t ht => hweek t (hcut ▸ ht), ?_⟩
    intro d name hget
    rw [hcut, mem_names_iff hnames hget]
    exact hsame d (List.getElem?_eq_some_iff.mp hget).1

/-! ## Conditions -/

variable {T : Tables} {id : CText} {c : Cron}

/-- The members of the condition. -/
def Cron.members (c : Cron) (id : CText) (n : Nat) (month week : CText) : Members :=
  condMembers id "Or".toList ++
    [("CondType".toList, .string "Time".toList), ("TimeKey".toList, .string (cronKey n)),
      ("StartMinu".toList, .string c.minute), ("EndMinu".toList, .string c.minute),
      ("StartHour".toList, .string c.hour), ("EndHour".toList, .string c.hour),
      ("Repeat".toList, .string (if month = ['*'] then ['1'] else ['0'])),
      ("Week".toList, .string week)]

theorem Cron.cronMembers_eq (c : Cron) (id : CText) (n : Nat) :
    ∃ month, cronMembers (condMembers id "Or".toList) n (.string c.text) =
      if (cronKey n).length < 8 then (weekText c.behind).map (c.members id n month) else none := by
  obtain ⟨x, month, htokens⟩ := c.strsep_text
  refine ⟨month, ?_⟩
  rw [cronMembers, sprintf_cronKey]
  by_cases hkey : (cronKey n).length < 8
  · simp only [hkey, if_true, bind_eq_bind, bind_some, Json.valuestring?_string,
      htokens]
    cases weekText c.behind <;> rfl
  · simp only [hkey, if_false]
    rfl

theorem Cron.behind_ne : c.behind ≠ [] := by
  rw [Cron.behind]
  exact append_ne_nil_of_right_ne_nil _ c.weekEntries_ne

theorem Cron.scheduled_members {n : Nat} {month week : CText} :
    Scheduled c (c.members id n month week) ↔ Denotes week c.On := by
  constructor
  · intro h
    obtain ⟨t, ht, hdenotes⟩ := h.week
    have hweek : Members.values (c.members id n month week) "Week" = [.string week] := rfl
    rw [hweek] at ht
    cases ht
    exact hdenotes
  · intro h
    exact ⟨rfl, rfl, rfl, rfl, rfl, week, rfl, h⟩

theorem cronMembers_scheduled_iff (c : Cron) (id : CText) (n : Nat) :
    (∃ m, cronMembers (condMembers id "Or".toList) n (.string c.text) = some m ∧ Scheduled c m) ↔
      c.Kept ∧ (cronKey n).length < 8 := by
  obtain ⟨month, heq⟩ := c.cronMembers_eq id n
  rw [heq]
  by_cases hkey : (cronKey n).length < 8
  · simp only [hkey, if_true, and_true]
    constructor
    · rintro ⟨m, hm, hscheduled⟩
      obtain ⟨week, hweek, rfl⟩ := map_eq_some_iff.mp hm
      obtain ⟨hshort, hinside⟩ := weekText_isSome_iff.mp (isSome_iff_exists.mpr ⟨_, hweek⟩)
      refine ⟨hshort, hinside, ?_⟩
      exact (denotes_iff c.behind_ne hweek).mp (c.scheduled_members.mp hscheduled)
    · intro hkept
      obtain ⟨week, hweek⟩ := isSome_iff_exists.mp
        (weekText_isSome_iff.mpr ⟨hkept.short, hkept.inside⟩)
      refine ⟨_, map_eq_some_iff.mpr ⟨week, hweek, rfl⟩, c.scheduled_members.mpr ?_⟩
      exact (denotes_iff c.behind_ne hweek).mpr hkept.same
  · simp [hkey]

theorem length_cronKey_iff {n : Nat} : (cronKey n).length < 8 ↔ n < 10000 := by
  have hdigits : (Nat.toDigits 10 n).length ≤ 4 ↔ n < 10 ^ 4 :=
    Nat.length_toDigits_le_iff (by decide) (by decide)
  have htext : (cronKey n).length = 3 + (Nat.toDigits 10 n).length := by
    rw [cronKey, ofInt, if_neg (by omega), length_append]
    rfl
  omega

theorem addtriggers_cron {item : Json} {items : List Json} {n : Nat} {os : List Json}
    (h : member (itemParams item) "cron" = some (.string c.text)) :
    addtriggers T id n (item :: items) = some os ↔
      ∃ m os', cronMembers (condMembers id "Or".toList) n (.string c.text) = some m ∧
        addtriggers T id (n + 1) items = some os' ∧ os = .object m :: os' := by
  have hof : (Trigger.cron c.text).Of T item := h
  rw [addtriggers, addtrigger_cron hof]
  cases cronMembers (condMembers id "Or".toList) n (.string c.text) with
  | none => simp
  | some m =>
    rw [map_some, bind_eq_bind, bind_some, bind_eq_bind,
      bind_eq_some_iff]
    constructor
    · rintro ⟨os', hos, heq⟩
      exact ⟨m, os', rfl, hos, (some.inj heq).symm⟩
    · rintro ⟨m', os', hm, hos, rfl⟩
      cases hm
      exact ⟨os', hos, rfl⟩

theorem addtriggers_scheduled_from {items : List Json} {cs : List Cron}
    (h : List.Forall₂ (fun item c => member (itemParams item) "cron" = some (.string c.text))
      items cs) (n : Nat) :
    (∃ os, addtriggers T id n items = some os ∧
        List.Forall₂ (fun c o => ∃ m, o = .object m ∧ Scheduled c m) cs os) ↔
      (∀ c ∈ cs, c.Kept) ∧ cs.length ≤ 10000 - n := by
  induction h generalizing n with
  | nil => simp [addtriggers]
  | @cons item c items cs hc _ ih =>
    have hone := cronMembers_scheduled_iff c id n
    have hlen : (c :: cs).length ≤ 10000 - n ↔ n < 10000 ∧ cs.length ≤ 10000 - (n + 1) := by
      rw [length_cons]
      omega
    rw [length_cronKey_iff] at hone
    rw [forall_mem_cons, hlen, and_and_and_comm, ← hone, ← ih]
    simp only [addtriggers_cron hc]
    constructor
    · rintro ⟨_, ⟨m, os, hm, hos, rfl⟩, hall⟩
      obtain ⟨⟨m', heq, hscheduled⟩, hrest⟩ := forall₂_cons.mp hall
      cases heq
      exact ⟨⟨m, hm, hscheduled⟩, os, hos, hrest⟩
    · rintro ⟨⟨m, hm, hscheduled⟩, os, hos, hall⟩
      exact ⟨_, ⟨m, os, hm, hos, rfl⟩, .cons ⟨m, rfl, hscheduled⟩ hall⟩

/-- Triggers at a time are emitted with their schedules exactly when the week days of each are
kept, and they are at most 10000. -/
theorem addtriggers_scheduled_iff {items : List Json} {cs : List Cron}
    (h : List.Forall₂ (fun item c => member (itemParams item) "cron" = some (.string c.text))
      items cs) :
    (∃ os, addtriggers T id 0 items = some os ∧
        List.Forall₂ (fun c o => ∃ m, o = .object m ∧ Scheduled c m) cs os) ↔
      (∀ c ∈ cs, c.Kept) ∧ cs.length ≤ 10000 :=
  addtriggers_scheduled_from h 0

/-- With one day and one month, a schedule is kept exactly when its week days are a list of at most
eight numbers from 0 to 6. -/
theorem Cron.kept_iff_of_single (hday : ',' ∉ c.day) (hmonth : ',' ∉ c.month) :
    c.Kept ↔ ∃ ws, c.week = some ws ∧ ws.length ≤ 8 ∧ ∀ w ∈ ws, digitsVal w ≤ 6 := by
  have hone : ∀ {t : CText}, ',' ∉ t → strsep [','] t = [t] := by
    intro t ht
    exact splitOnP_eq_singleton fun a ha => by
      simpa using fun heq : a = ',' => ht (heq ▸ ha)
  have hbehind : c.behind = c.weekEntries := by
    rw [Cron.behind, hone hday, hone hmonth]
    rfl
  constructor
  · rintro ⟨hshort, hinside, hsame⟩
    rw [hbehind] at hshort hinside hsame
    cases hweek : c.week with
    | none =>
      have hentries : c.weekEntries = [['*']] := by rw [Cron.weekEntries, hweek]; rfl
      obtain ⟨w, hw, hone⟩ := (hsame 1 (by decide)).mpr (.inl hweek)
      rw [hentries, mem_singleton] at hw
      rw [hw] at hone
      exact absurd hone (by decide)
    | some ws =>
      have hentries : c.weekEntries = ws := by rw [Cron.weekEntries, hweek]; rfl
      rw [hentries] at hshort hinside
      refine ⟨ws, rfl, hshort, fun w hw => ?_⟩
      have hle := (hinside w hw).2
      rw [(c.week_decimal ws hweek w hw).1.atoi_eq] at hle
      exact_mod_cast hle
  · rintro ⟨ws, hweek, hshort, hle⟩
    have hentries : c.behind = ws := by rw [hbehind, Cron.weekEntries, hweek]; rfl
    have hatoi : ∀ w ∈ ws, atoi w = digitsVal w :=
      fun w hw => (c.week_decimal ws hweek w hw).1.atoi_eq
    refine ⟨hentries ▸ hshort, ?_, ?_⟩
    · rw [hentries]
      intro w hw
      have hw6 := hle w hw
      rw [hatoi w hw]
      omega
    · intro d hd
      rw [hentries]
      constructor
      · rintro ⟨w, hw, heq⟩
        have hw6 := hle w hw
        rw [hatoi w hw] at heq
        exact .inr ⟨ws, hweek, w, hw, by omega⟩
      · rintro (hnone | ⟨ws', hweek', w, hw, heq⟩)
        · rw [hweek] at hnone
          cases hnone
        · obtain rfl := some.inj (hweek.symm.trans hweek')
          have hw6 := hle w hw
          refine ⟨w, hw, ?_⟩
          rw [hatoi w hw]
          omega

/-! ### Every day -/

namespace Sample

/-- At half past eight, on some days. -/
def cronOf (week : Option (List CText)) (hne : week ≠ some [])
    (hdecimal : ∀ ws, week = some ws → ∀ w ∈ ws, Decimal w ∧ digitsVal w ≤ 7) : Cron where
  minute := "30".toList
  hour := ['8']
  day := ['*']
  month := ['*']
  week := week
  minute_decimal := ⟨by decide, by simp [isDigit]⟩
  hour_decimal := ⟨by decide, by simp [isDigit]⟩
  day_plain := by decide
  month_plain := by decide
  week_ne := hne
  week_decimal := hdecimal

def everyDay : Cron := cronOf none (by simp) (by simp)

def weekend : Cron :=
  cronOf (some [['0'], ['6']]) (by simp) (by
    rintro ws hws w hw
    obtain rfl := some.inj hws
    simp only [mem_cons, not_mem_nil, or_false] at hw
    rcases hw with rfl | rfl
    · exact ⟨⟨by decide, by simp [isDigit]⟩, by decide⟩
    · exact ⟨⟨by decide, by simp [isDigit]⟩, by decide⟩)

def trigger (text : CText) : Json :=
  .object [("params".toList, .object [("cron".toList, .string text)])]

end Sample

theorem addtriggers_scheduled_weekend :
    (∃ os, addtriggers Sample.lampTables ['1'] 0 [Sample.trigger Sample.weekend.text] = some os ∧
        List.Forall₂ (fun c o => ∃ m, o = .object m ∧ Scheduled c m) [Sample.weekend] os) ↔
      (∀ c ∈ [Sample.weekend], c.Kept) ∧ [Sample.weekend].length ≤ 10000 :=
  addtriggers_scheduled_iff (.cons rfl .nil)

/-- Every day becomes Sunday. -/
theorem addtriggers_not_scheduled :
    ¬ ∀ (T : Tables) (id : CText) (c : Cron),
      ∃ os, addtriggers T id 0 [Sample.trigger c.text] = some os ∧
        List.Forall₂ (fun c o => ∃ m, o = .object m ∧ Scheduled c m) [c] os := by
  intro h
  obtain ⟨os, hos, hall⟩ := h Sample.lampTables ['1'] Sample.everyDay
  obtain ⟨m, os', hm, -, rfl⟩ := (addtriggers_cron rfl).mp hos
  obtain ⟨⟨m', heq, hscheduled⟩, -⟩ := forall₂_cons.mp hall
  cases heq
  have hkept := ((cronMembers_scheduled_iff Sample.everyDay ['1'] 0).mp ⟨m, hm, hscheduled⟩).1
  obtain ⟨w, hw, hone⟩ := (hkept.same 1 (by decide)).mpr (.inl rfl)
  have hbehind : Sample.everyDay.behind = [['*']] := by decide
  rw [hbehind, mem_singleton] at hw
  rw [hw] at hone
  exact absurd hone (by decide)

end Honyar.Alink
