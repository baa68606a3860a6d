import Honyar.Hilink.Refresh

/-!
# When part of a refresh is enough

After a report of one attribute the bridge refreshes the services of that attribute only.  If the
device was refreshed wholly before the report, the services that are left out show their fields
still, but for the scene and for names the two refreshes make up differently.
-/

namespace Honyar.Hilink

open Libhylink (charVal)
open Faults Option Private List

variable {charSigned : Bool} {m k : Nat} {DeviceId key : CText} {el : Json} {p p' : Private}
variable {clouds : List DevCloud} {cs : Nat → DevCloud}
variable {dev dev' d : DevHY0134} {c : BitVec 8} {pos view : Nat} {i : Fin 12}

/-! ## What a report changes -/

/-- A report changes one byte, the colour temperature, a name, a photo, or nothing. -/
theorem set_cases (h : p.set k key el = .ok p') :
    p' = p ∨ (∃ c write v, p.out k = some (c, write) ∧ p' = write v) ∨
      (∃ dev v, p = .d09223f dev ∧ k = 0 ∧ p' = .d09223f { dev with ColorTemperature := v }) ∨
      (∃ dev i t, p = .hy0134 dev ∧ k = 13 ∧ p' = .hy0134 (setName dev i t)) ∨
      ∃ dev photos, p = .hy0134 dev ∧ k = 14 ∧ p' = .hy0134 { dev with ScePhoto := photos } := by
  unfold Private.set at h
  split at h
  next dev =>
    obtain ⟨v, -, h⟩ := bind_eq_ok.mp h
    exact .inr (.inr (.inl ⟨dev, v, rfl, rfl, (Except.ok.inj h).symm⟩))
  next dev =>
    obtain ⟨pos, -, h⟩ := bind_eq_ok.mp h
    cases pos with
    | none => exact .inl (Except.ok.inj h).symm
    | some i =>
      obtain ⟨t, -, h⟩ := bind_eq_ok.mp h
      exact .inr (.inr (.inr (.inl ⟨dev, i, t, rfl, rfl, (Except.ok.inj h).symm⟩)))
  next dev =>
    obtain ⟨pos, -, h⟩ := bind_eq_ok.mp h
    cases pos with
    | none => exact .inl (Except.ok.inj h).symm
    | some i =>
      obtain ⟨v, -, h⟩ := bind_eq_ok.mp h
      exact .inr (.inr (.inr (.inr ⟨dev, _, rfl, rfl, (Except.ok.inj h).symm⟩)))
  next =>
    split at h
    · exact .inl (Except.ok.inj h).symm
    next c write hout =>
      obtain ⟨v, -, h⟩ := bind_eq_ok.mp h
      exact .inr (.inl ⟨c, write, v, hout, (Except.ok.inj h).symm⟩)

/-- The switches and the indicator are services, each at the position of its attribute. -/
theorem DevSwitch.vals_out {n : Nat} {dev : DevSwitch n} {write : BitVec 8 → DevSwitch n}
    (h : dev.out k = some (c, write)) (v : BitVec 8) (hpos : pos ≠ k) :
    ((write v).vals charSigned)[pos]? = (dev.vals charSigned)[pos]? := by
  unfold DevSwitch.out at h
  split at h
  next hk =>
    obtain ⟨-, rfl⟩ := Prod.mk.inj (some.inj h)
    unfold DevSwitch.vals
    have hswitch : ((List.finRange n).map fun i =>
          intVal strOn (charVal charSigned (Function.update dev.Switch ⟨k, hk⟩ v i)))[pos]? =
        ((List.finRange n).map fun i =>
          intVal strOn (charVal charSigned (dev.Switch i)))[pos]? := by
      rw [List.getElem?_map, List.getElem?_map]
      refine map_congr fun i hi => ?_
      obtain ⟨hlt, rfl⟩ := List.getElem?_eq_some_iff.mp hi
      rw [List.getElem_finRange, Function.update_of_ne]
      exact fun heq => hpos (congrArg Fin.val heq)
    rw [List.getElem?_append, List.getElem?_append, hswitch, List.length_map, List.length_map]
  next =>
    split at h
    next hk =>
      obtain ⟨-, rfl⟩ := Prod.mk.inj (some.inj h)
      unfold DevSwitch.vals
      rw [List.getElem?_append, List.getElem?_append, List.length_map, List.length_finRange]
      split
      · rfl
      next hge =>
        obtain ⟨i, hi⟩ : ∃ i, pos - n = i + 1 := ⟨pos - n - 1, by omega⟩
        rw [hi]
        rfl
    next =>
      split at h
      · obtain ⟨-, rfl⟩ := Prod.mk.inj (some.inj h)
        rfl
      · cases h

theorem DevModule.vals_out {n : Nat} {dev : DevModule n} {write : BitVec 8 → DevModule n}
    (h : dev.out k = some (c, write)) (v : BitVec 8) (hpos : pos ≠ k) :
    ((write v).toDevSwitch.vals charSigned)[pos]? = (dev.toDevSwitch.vals charSigned)[pos]? := by
  unfold DevModule.out at h
  split at h
  · obtain ⟨-, rfl⟩ := Prod.mk.inj (some.inj h)
    rfl
  · obtain ⟨⟨c', write'⟩, hout, heq⟩ := map_eq_some_iff.mp h
    obtain ⟨-, rfl⟩ := Prod.mk.inj heq
    exact DevSwitch.vals_out hout v hpos

theorem Dev09223f.vals_out {dev : Dev09223f} {write : BitVec 8 → Dev09223f}
    (h : dev.out k = some (c, write)) (v : BitVec 8) (hpos : pos ≠ k) :
    ((write v).vals charSigned)[pos]? = (dev.vals charSigned)[pos]? := by
  unfold Dev09223f.out at h
  split at h
  · obtain ⟨-, rfl⟩ := Prod.mk.inj (some.inj h)
    match pos with
    | 0 | 2 | _ + 3 => rfl
    | 1 => exact absurd rfl hpos
  · obtain ⟨-, rfl⟩ := Prod.mk.inj (some.inj h)
    match pos with
    | 0 | 1 | _ + 3 => rfl
    | 2 => exact absurd rfl hpos
  · cases h

theorem set_isOf (hp : p.IsOf m) (h : p.set k key el = .ok p') : p'.IsOf m := by
  rcases set_cases h with rfl | ⟨c, write, v, hout, rfl⟩ | ⟨dev, v, rfl, rfl, rfl⟩ |
    ⟨dev, i, t, rfl, -, rfl⟩ | ⟨dev, photos, rfl, -, rfl⟩
  · exact hp
  · cases p with
    | hy0095 _ | hy0096 _ | hy0097 _ | d09223f _ | hy0121 _ | hy0122 _ | hy0107 _ | hy0093 _
    | hy0134 _ =>
      obtain ⟨⟨c', write'⟩, -, heq⟩ := map_eq_some_iff.mp hout
      obtain ⟨-, rfl⟩ := Prod.mk.inj heq
      exact hp
  · exact hp
  · exact hp
  · exact hp

/-- A report about a device with one list of services changes the service at its position only. -/
theorem set_vals_plain (hplain : m < 7) (hp : p.IsOf m) (h : p.set k key el = .ok p')
    (hpos : pos ≠ k) : (p'.vals charSigned m)[pos]? = (p.vals charSigned m)[pos]? := by
  rcases set_cases h with rfl | ⟨c, write, v, hout, rfl⟩ | ⟨dev, v, rfl, rfl, rfl⟩ |
    ⟨dev, i, t, rfl, -, -⟩ | ⟨dev, photos, rfl, -, -⟩
  · rfl
  · cases p with
    | hy0095 dev | hy0096 dev | hy0097 dev =>
      obtain ⟨⟨c', write'⟩, hdev, heq⟩ := map_eq_some_iff.mp hout
      obtain ⟨-, rfl⟩ := Prod.mk.inj heq
      exact DevSwitch.vals_out hdev v hpos
    | d09223f dev =>
      obtain ⟨⟨c', write'⟩, hdev, heq⟩ := map_eq_some_iff.mp hout
      obtain ⟨-, rfl⟩ := Prod.mk.inj heq
      exact Dev09223f.vals_out hdev v hpos
    | hy0121 dev | hy0122 dev | hy0107 dev =>
      obtain ⟨⟨c', write'⟩, hdev, heq⟩ := map_eq_some_iff.mp hout
      obtain ⟨-, rfl⟩ := Prod.mk.inj heq
      exact DevModule.vals_out hdev v hpos
    | hy0093 dev =>
      obtain rfl := hp
      cases hplain.false
    | hy0134 dev => exact absurd hp.1 (by omega)
  · match pos with
    | 0 => exact absurd rfl hpos
    | i + 1 =>
      rw [vals, vals, Dev09223f.vals, Dev09223f.vals, getElem?_cons_succ,
        getElem?_cons_succ]
  · exact absurd hp.1 (by omega)
  · exact absurd hp.1 (by omega)

/-! ## The values after a refresh -/

/-- The device with names for the scenes that have none: what a full refresh shows of it. -/
def Private.named : Private → Private
  | .hy0134 dev => .hy0134 (dev.withNames sceNumber)
  | p => p

theorem valIn_writes_none (hm : m < 7 ∨ m = 8) (hp : p.IsOf m) (hview : view ∈ viewsOf m)
    (pos : Nat) :
    valIn (p.writes charSigned none view) pos = (p.named.vals charSigned view)[pos]? := by
  rcases hm with hplain | rfl
  · rw [viewsOf, if_pos (by omega)] at hview
    obtain rfl := mem_singleton.mp hview
    cases p with
    | hy0095 dev | hy0096 dev | hy0097 dev | d09223f dev | hy0121 dev | hy0122 dev | hy0107 dev =>
      exact valIn_places _ pos
    | hy0093 dev =>
      obtain rfl := hp
      cases hplain.false
    | hy0134 dev => exact absurd hp.1 (by omega)
  · obtain ⟨dev, rfl⟩ := eq_hy0134 le_rfl hp
    have hcases : ∀ view ∈ viewsOf 8, view = 8 ∨ view = 9 ∨ view = 10 ∨ view = 11 := by decide
    rcases hcases view hview with rfl | rfl | rfl | rfl
    · exact valIn_places ((dev.withNames sceNumber).vals charSigned 8) pos
    · exact valIn_places (dev.vals charSigned 9) pos
    · exact valIn_places (dev.vals charSigned 10) pos
    · exact valIn_places (dev.vals charSigned 11) pos

/-! ## Reports of the panel -/

theorem viewVals_sound {j : Fin 3} {index_sub : Option Nat} {v : Nat × SvcVal}
    (hv : v ∈ (dev.viewVals charSigned j index_sub).1) :
    (dev.vals charSigned (9 + j.val))[v.1]? = some v.2 := by
  have hmem {vals : List (Nat × SvcVal)} (h : v ∈ vals)
      (hall : ∀ w ∈ vals, (dev.vals charSigned (9 + j.val))[w.1]? = some w.2) :
      (dev.vals charSigned (9 + j.val))[v.1]? = some v.2 := hall v h
  match j with
  | 0 =>
    simp only [DevHY0134.viewVals] at hv
    split at hv <;> exact hmem hv (by simp [DevHY0134.vals])
  | 1 =>
    simp only [DevHY0134.viewVals] at hv
    split at hv <;> exact hmem hv (by simp [DevHY0134.vals])
  | 2 =>
    simp only [DevHY0134.viewVals] at hv
    split at hv <;> exact hmem hv (by simp [DevHY0134.vals])

theorem writes_sound {j : Fin 3} {index_sub : Option Nat} {v : Nat × SvcVal}
    (hv : v ∈ dev.writes charSigned index_sub (9 + j.val)) :
    (dev.vals charSigned (9 + j.val))[v.1]? = some v.2 := by
  by_cases hk : index_sub ≠ some 12 ∧ index_sub ≠ some 13
  · rw [writes_view charSigned dev hk] at hv
    split at hv
    · exact viewVals_sound hv
    · cases hv
  · rw [dev.writes_of_not charSigned hk (by omega)] at hv
    cases hv

theorem view_out {write : BitVec 8 → DevHY0134} (h : dev.out k = some (c, write)) (v : BitVec 8)
    (j : Fin 3) (pos : Nat) :
    (valIn ((write v).writes charSigned (some k) (9 + j.val)) pos).or
        (dev.vals charSigned (9 + j.val))[pos]? =
      ((write v).vals charSigned (9 + j.val))[pos]? := by
  unfold DevHY0134.out at h
  split at h
  case h_14 => cases h
  all_goals
    obtain ⟨-, rfl⟩ := Prod.mk.inj (some.inj h)
    match j, pos with
    | 0, 0 | 0, 1 | 0, _ + 2 => rfl
    | 1, 0 | 1, 1 | 1, 2 | 1, 3 | 1, _ + 4 => rfl
    | 2, 0 | 2, 1 | 2, _ + 2 => rfl

theorem valIn_eq_some {vals : List (Nat × SvcVal)} {json : SvcVal}
    (h : valIn vals pos = some json) :
    (pos, json) ∈ vals := by
  obtain ⟨v, hv, rfl⟩ := map_eq_some_iff.mp h
  obtain rfl : v.1 = pos := by simpa using find?_some hv
  exact mem_of_find?_eq_some hv

theorem view_set (charSigned : Bool) (h : (Private.hy0134 dev).set k key el = .ok (.hy0134 dev'))
    (j : Fin 3) (pos : Nat) :
    (valIn (dev'.writes charSigned (some k) (9 + j.val)) pos).or
        (dev.vals charSigned (9 + j.val))[pos]? =
      (dev'.vals charSigned (9 + j.val))[pos]? := by
  have hkept (hsame : dev.vals charSigned (9 + j.val) = dev'.vals charSigned (9 + j.val)) :
      (valIn (dev'.writes charSigned (some k) (9 + j.val)) pos).or
        (dev.vals charSigned (9 + j.val))[pos]? = (dev'.vals charSigned (9 + j.val))[pos]? := by
    rw [hsame]
    cases hval : valIn (dev'.writes charSigned (some k) (9 + j.val)) pos with
    | none => exact none_or
    | some json =>
      exact (writes_sound (valIn_eq_some hval)).symm
  rcases set_cases h with heq | ⟨c, write, v, hout, heq⟩ | ⟨d, v, heq, -, -⟩ |
    ⟨d, i, t, heq, -, heq'⟩ | ⟨d, photos, heq, -, heq'⟩
  · obtain rfl := hy0134.inj heq
    exact hkept rfl
  · obtain ⟨⟨c', write'⟩, hdev, hpair⟩ := map_eq_some_iff.mp hout
    obtain ⟨-, rfl⟩ := Prod.mk.inj hpair
    obtain rfl := hy0134.inj heq
    exact view_out hdev v j pos
  · cases heq
  · obtain rfl := hy0134.inj heq
    obtain rfl := hy0134.inj heq'
    refine hkept ?_
    match j with
    | 0 | 1 | 2 => rfl
  · obtain rfl := hy0134.inj heq
    obtain rfl := hy0134.inj heq'
    exact hkept rfl

/-- A report of the scene leaves the names, one of a name the scene. -/
theorem set_panel (h : (Private.hy0134 dev).set k key el = .ok (.hy0134 dev')) :
    (k = 12 → dev'.SceName = dev.SceName) ∧ (k = 13 → dev'.KeyFobValue = dev.KeyFobValue) := by
  rcases set_cases h with heq | ⟨c, write, v, hout, heq⟩ | ⟨d, v, heq, -, -⟩ |
    ⟨d, i, t, heq, rfl, heq'⟩ | ⟨d, photos, heq, rfl, heq'⟩
  · obtain rfl := hy0134.inj heq
    exact ⟨fun _ => rfl, fun _ => rfl⟩
  · obtain ⟨⟨c', write'⟩, hdev, hpair⟩ := map_eq_some_iff.mp hout
    obtain ⟨-, rfl⟩ := Prod.mk.inj hpair
    obtain rfl := hy0134.inj heq
    constructor
    · rintro rfl
      obtain ⟨-, rfl⟩ := Prod.mk.inj (some.inj hdev)
      rfl
    · rintro rfl
      cases hdev
  · cases heq
  · obtain rfl := hy0134.inj heq
    obtain rfl := hy0134.inj heq'
    exact ⟨fun h => absurd h (by decide), fun _ => rfl⟩
  · obtain rfl := hy0134.inj heq
    obtain rfl := hy0134.inj heq'
    exact ⟨fun h => absurd h (by decide), fun h => absurd h (by decide)⟩

theorem valIn_nameVals (charSigned : Bool) (dev : DevHY0134) (i : Nat) :
    valIn dev.nameVals (i + 1) = (dev.vals charSigned 8)[i + 1]? :=
  valIn_places (dev.vals charSigned 8) (i + 1)

theorem withNames_agree_iff (dev : DevHY0134) (hi : i.val < 6) :
    (dev.withNames sceName).SceName i = (dev.withNames sceNumber).SceName i ↔
      dev.SceName i ≠ [] := by
  have hdiffer : ∀ i < 6, (sceName[i]?).getD [] ≠ (sceNumber[i]?).getD [] := by decide
  unfold DevHY0134.withNames
  dsimp only
  split
  next h => exact iff_of_false (hdiffer i.val hi) fun hne => hne h
  next h => exact iff_of_true rfl h

/-- A service that was shown before the report, and was refreshed in part, shows what a full refresh
would have it show. -/
def Agrees (charSigned : Bool) (k : Nat) (p p' : Private) (view pos : Nat) : Prop :=
  (valIn (p'.writes charSigned (some k) view) pos).or (p.named.vals charSigned view)[pos]? =
    (p'.named.vals charSigned view)[pos]?

theorem vals_eq_none (charSigned : Bool) (dev : DevHY0134) {i : Nat} (hi : 6 ≤ i) :
    (dev.vals charSigned 8)[i + 1]? = none := by
  rw [getElem?_eq_none_iff, length_vals dev ⟨le_rfl, by decide⟩]
  exact Nat.succ_le_succ hi

theorem withNames_ne_nil {names : List CText} (hlen : names.length = 6) (hnames : [] ∉ names)
    (dev : DevHY0134) (hi : i.val < 6) : (dev.withNames names).SceName i ≠ [] := by
  by_cases h : dev.SceName i = []
  · intro hnil
    exact (withNames_eq_iff hlen hnames dev hi).mp (hnil.trans h.symm) h
  · rwa [(withNames_eq_iff hlen hnames dev hi).mpr h]

theorem withNames_noted (h : dev'.SceName = (noted d).SceName) (hi : i.val < 6) :
    (dev'.withNames sceNumber).SceName i = (d.withNames sceNumber).SceName i := by
  have hname : dev'.SceName i = (d.withNames sceNumber).SceName i := congrFun h i
  rw [← hname, withNames_eq_iff sceNumber_spec.1 sceNumber_spec.2 dev' hi, hname]
  exact withNames_ne_nil sceNumber_spec.1 sceNumber_spec.2 d hi

theorem agrees_scene (h : (Private.hy0134 (noted d)).set 12 key el = .ok (.hy0134 dev'))
    (pos : Nat) :
    Agrees charSigned 12 (.hy0134 d) (.hy0134 dev') 8 pos := by
  have hnames := (set_panel h).1 rfl
  unfold Agrees
  match pos with
  | 0 => rfl
  | i + 1 =>
    show none.or ((d.withNames sceNumber).vals charSigned 8)[i + 1]? =
      ((dev'.withNames sceNumber).vals charSigned 8)[i + 1]?
    rw [none_or]
    by_cases hi : i < 6
    · rw [vals_name charSigned _ hi, vals_name charSigned _ hi, withNames_noted hnames hi]
    · rw [vals_eq_none charSigned _ (by omega), vals_eq_none charSigned _ (by omega)]

theorem agrees_names_iff (h : (Private.hy0134 (noted d)).set 13 key el = .ok (.hy0134 dev')) :
    (∀ pos, Agrees charSigned 13 (.hy0134 d) (.hy0134 dev') 8 pos) ↔
      d.KeyFobValue = 0 ∧ ∀ i : Fin 12, i.val < 6 → dev'.SceName i ≠ [] := by
  have hscene : dev'.KeyFobValue = 0 := (set_panel h).2 rfl
  have hzero : Agrees charSigned 13 (.hy0134 d) (.hy0134 dev') 8 0 ↔ d.KeyFobValue = 0 := by
    show some (intVal strNum (charVal charSigned d.KeyFobValue)) =
      some (intVal strNum (charVal charSigned dev'.KeyFobValue)) ↔ _
    rw [some_inj, intVal_injective, hscene, charVal_eq_zero.mpr rfl, charVal_eq_zero]
  have hname (i : Nat) (hi : i < 6) : Agrees charSigned 13 (.hy0134 d) (.hy0134 dev') 8 (i + 1) ↔
      dev'.SceName ⟨i, by omega⟩ ≠ [] := by
    show (valIn (dev'.withNames sceName).nameVals (i + 1)).or _ =
      ((dev'.withNames sceNumber).vals charSigned 8)[i + 1]? ↔ _
    rw [valIn_nameVals charSigned, vals_name charSigned _ hi,
      vals_name charSigned _ hi, some_or, some_inj, strVal_injective,
      withNames_agree_iff dev' hi]
  constructor
  · intro hall
    exact ⟨hzero.mp (hall 0), fun i hi => (hname i.val hi).mp (hall _)⟩
  · rintro ⟨hd, hnames⟩ pos
    cases pos with
    | zero => exact hzero.mpr hd
    | succ i =>
      by_cases hi : i < 6
      · exact (hname i hi).mpr (hnames _ hi)
      · show (valIn (dev'.withNames sceName).nameVals (i + 1)).or
          ((d.withNames sceNumber).vals charSigned 8)[i + 1]? =
            ((dev'.withNames sceNumber).vals charSigned 8)[i + 1]?
        rw [valIn_nameVals charSigned, vals_eq_none charSigned _ (by omega),
          vals_eq_none charSigned _ (by omega), vals_eq_none charSigned _ (by omega)]
        rfl

theorem agrees_panel (hk : k ≠ 12 ∧ k ≠ 13) (d dev' : DevHY0134) (pos : Nat) :
    Agrees charSigned k (.hy0134 d) (.hy0134 dev') 8 pos := by
  have hsub : some k ≠ some 12 ∧ some k ≠ some 13 := by simpa using hk
  have hwrites : (Private.hy0134 dev').writes charSigned (some k) 8 =
      (Private.hy0134 dev').writes charSigned none 8 :=
    (writes_panel charSigned dev' hsub).trans
      (writes_panel charSigned dev' (show none ≠ some 12 ∧ none ≠ some 13 by simp)).symm
  have hof : (Private.hy0134 dev').IsOf 8 := ⟨le_rfl, by decide⟩
  rw [Agrees, hwrites, valIn_writes_none (.inr rfl) hof (by decide)]
  cases hval : ((Private.hy0134 dev').named.vals charSigned 8)[pos]? with
  | some json => rfl
  | none =>
    rw [none_or]
    rw [List.getElem?_eq_none_iff] at hval ⊢
    exact (length_vals (d.withNames sceNumber) ⟨le_rfl, by decide⟩).trans_le
      ((length_vals (dev'.withNames sceNumber) ⟨le_rfl, by decide⟩).symm.trans_le hval)

/-! ## The partial refresh -/

/-- A report that leaves the partial refresh of a device right: one of a name needs the scene to be
the one of a panel at rest, and names for all scenes that are shown. -/
def Steady (k : Nat) (p p' : Private) : Prop :=
  k = 13 → ∀ d d', p = .hy0134 d → p' = .hy0134 d' →
    d.KeyFobValue = 0 ∧ ∀ i : Fin 12, i.val < 6 → d'.SceName i ≠ []

theorem named_plain (hplain : m < 7) (hp : p.IsOf m) : p.named = p := by
  cases p with
  | hy0134 dev => exact absurd hp.1 (by omega)
  | hy0095 _ | hy0096 _ | hy0097 _ | d09223f _ | hy0121 _ | hy0122 _ | hy0107 _ | hy0093 _ => rfl

theorem agrees_plain (hplain : m < 7) (hp : p.IsOf m) (h : p.set k key el = .ok p') (pos : Nat) :
    Agrees charSigned k p p' m pos := by
  have hp' := set_isOf hp h
  obtain ⟨-, hwrites, -⟩ | ⟨rfl, -⟩ := isOf_cases charSigned (.inl hplain) hp'
  · rw [Agrees, hwrites, named_plain hplain hp, named_plain hplain hp', plainWrites,
      bind_some]
    cases hval : (p'.vals charSigned m)[k]? with
    | some json =>
      by_cases hpos : pos = k
      · rw [hpos, hval]
        simp [valIn]
      · rw [← set_vals_plain hplain hp h hpos]
        simp [valIn, Ne.symm hpos]
    | none =>
      rw [map_none, valIn_places]
      cases hnone : (p'.vals charSigned m)[pos]? with
      | some json => rfl
      | none =>
        rw [none_or]
        rw [getElem?_eq_none_iff] at hnone ⊢
        rwa [length_vals_plain charSigned hplain hp, ← length_vals_plain charSigned hplain hp']
  · omega

theorem agreement_iff (charSigned : Bool) (hm : m < 7 ∨ m = 8) (hp : p.IsOf m)
    (h : (p.after none).set k key el = .ok p') :
    (∀ view ∈ viewsOf m, ∀ pos, Agrees charSigned k p p' view pos) ↔ Steady k p p' := by
  rcases isOf_cases charSigned hm hp with ⟨hplain, -, hafter⟩ | ⟨rfl, d, rfl⟩
  · rw [hafter] at h
    refine iff_of_true (fun view hview pos => ?_) ?_
    · rw [viewsOf, if_pos (by omega)] at hview
      obtain rfl := List.mem_singleton.mp hview
      exact agrees_plain hplain hp h pos
    · rintro - d d' rfl
      exact absurd hp.1 (by omega)
  · have hp₁ : (Private.hy0134 (noted d)).IsOf 8 := ⟨le_rfl, by decide⟩
    obtain ⟨d', rfl⟩ := eq_hy0134 le_rfl (set_isOf hp₁ h)
    have hset : (Private.hy0134 (noted d)).set k key el = .ok (.hy0134 d') := h
    have hviews (j : Fin 3) (pos : Nat) :
        Agrees charSigned k (.hy0134 d) (.hy0134 d') (9 + j.val) pos := by
      have hview := view_set charSigned hset j pos
      rcases j with ⟨_ | _ | _ | j, hj⟩
      · exact hview
      · exact hview
      · exact hview
      · omega
    have hall : (∀ view ∈ viewsOf 8, ∀ pos, Agrees charSigned k (.hy0134 d) (.hy0134 d') view pos) ↔
        ∀ pos, Agrees charSigned k (.hy0134 d) (.hy0134 d') 8 pos := by
      have hcases : ∀ view ∈ viewsOf 8, view = 8 ∨ ∃ j : Fin 3, view = 9 + j.val := by decide
      refine ⟨fun h => h 8 (by decide), fun h view hview => ?_⟩
      rcases hcases view hview with rfl | ⟨j, rfl⟩
      · exact h
      · exact hviews j
    rw [hall]
    by_cases h₁₂ : k = 12
    · subst h₁₂
      exact iff_of_true (agrees_scene hset) fun hk => absurd hk (by decide)
    · by_cases h₁₃ : k = 13
      · subst h₁₃
        rw [agrees_names_iff hset]
        constructor
        · rintro hquiet - _ _ ⟨⟩ ⟨⟩
          exact hquiet
        · intro hsteady
          exact hsteady rfl d d' rfl rfl
      · exact iff_of_true (agrees_panel ⟨h₁₂, h₁₃⟩ d d') fun hk => absurd hk h₁₃

theorem after_isOf (hp : p.IsOf m) (index_sub : Option Nat) : (p.after index_sub).IsOf m := by
  cases p with
  | hy0095 _ | hy0096 _ | hy0097 _ | d09223f _ | hy0121 _ | hy0122 _ | hy0107 _ | hy0093 _
  | hy0134 _ => exact hp

theorem length_named_vals (charSigned : Bool) (hm : m < 7 ∨ m = 8) (hp : p.IsOf m)
    (hview : view ∈ viewsOf m) :
    (p.named.vals charSigned view).length = (cloudAttr view).length := by
  rcases isOf_cases charSigned hm hp with ⟨hplain, -, -⟩ | ⟨rfl, d, rfl⟩
  · rw [viewsOf, if_pos (by omega)] at hview
    obtain rfl := mem_singleton.mp hview
    rw [named_plain hplain hp, length_vals_plain charSigned hplain hp]
  · have hbounds : ∀ view ∈ viewsOf 8, 8 ≤ view ∧ view ≤ 11 := by decide
    exact length_vals (d.withNames sceNumber) (hbounds view hview)

theorem exists_shown (hviews : ∀ view ∈ viewsOf m, ∃ c,
    listGetByIdCloud clouds (snOf view DeviceId) = some c ∧ c.IsOf view) :
    ∃ cs, Shown m DeviceId clouds cs := by
  refine ⟨fun view => (listGetByIdCloud clouds (snOf view DeviceId)).getD ⟨[], [], []⟩,
    fun view hview => ?_⟩
  obtain ⟨c, hc, hof⟩ := hviews view hview
  dsimp only
  rw [hc]
  exact ⟨rfl, hof⟩

theorem Shown.valAt_eq (h : Shown m DeviceId clouds cs) (hview : view ∈ viewsOf m) (pos : Nat) :
    valAt clouds (snOf view DeviceId) pos = (cs view).val pos :=
  valAt_of_eq (h view hview).1 pos

theorem Shown.val_puts (h : Shown m DeviceId clouds cs) (charSigned : Bool) (hm : m < 7 ∨ m = 8)
    (hp : p.IsOf m) (index_sub : Option Nat) (hview : view ∈ viewsOf m) (pos : Nat) :
    ((cs view).puts (p.writes charSigned index_sub view)).val pos =
      (valIn (p.writes charSigned index_sub view) pos).or ((cs view).val pos) := by
  obtain ⟨hnd, hbound⟩ := p.writes_spec charSigned hm hp index_sub hview
  refine DevCloud.val_puts (fun v hv => ?_) hnd pos
  rw [(h view hview).2.length_eq]
  exact hbound v hv

/-- The partial refresh for a report of the attribute at `k` shows what a full one would, after a
full refresh of the fields before the report, exactly for a steady report. -/
theorem partial_refresh_iff {p₁ p₂ : Private} {clouds₁ : List DevCloud} (hm : m < 7 ∨ m = 8)
    (hp : p.IsOf m)
    (hviews : ∀ view ∈ viewsOf m, ∃ c, listGetByIdCloud clouds (snOf view DeviceId) = some c ∧
      c.IsOf view)
    (hfull : cloudGetAttr charSigned p m none DeviceId clouds = .ok (p₁, clouds₁))
    (hreport : p₁.set k key el = .ok p₂) :
    (∃ q q' part full, cloudGetAttr charSigned p₂ m (some k) DeviceId clouds₁ = .ok (q, part) ∧
      cloudGetAttr charSigned p₂ m none DeviceId clouds₁ = .ok (q', full) ∧
      ∀ view ∈ viewsOf m, ∀ pos, valAt part (snOf view DeviceId) pos =
        valAt full (snOf view DeviceId) pos) ↔ Steady k p p₂ := by
  obtain ⟨cs, hshown⟩ := exists_shown hviews
  obtain ⟨_, heq, hshown₁⟩ := hshown.cloudGetAttr charSigned hm hp m none
  obtain ⟨rfl, rfl⟩ := Prod.mk.inj (Except.ok.inj (hfull.symm.trans heq))
  have hp₂ := set_isOf (after_isOf hp none) hreport
  obtain ⟨part, hpart, hshownPart⟩ := hshown₁.cloudGetAttr charSigned hm hp₂ m (some k)
  obtain ⟨full, hfull₂, hshownFull⟩ := hshown₁.cloudGetAttr charSigned hm hp₂ m none
  have hval : ∀ view ∈ viewsOf m, ∀ pos, valAt part (snOf view DeviceId) pos =
      valAt full (snOf view DeviceId) pos ↔ Agrees charSigned k p p₂ view pos := by
    intro view hview pos
    rw [hshownPart.valAt_eq hview, hshownFull.valAt_eq hview,
      hshown₁.val_puts charSigned hm hp₂ (some k) hview,
      hshown₁.val_puts charSigned hm hp₂ none hview, hshown.val_puts charSigned hm hp none hview,
      valIn_writes_none hm hp₂ hview,
      valIn_writes_none hm hp hview, Agrees]
    have hlen := length_named_vals charSigned hm hp hview
    have hlen₂ := length_named_vals charSigned hm hp₂ hview
    by_cases hpos : pos < (cloudAttr view).length
    · rw [List.getElem?_eq_getElem (hlen ▸ hpos), List.getElem?_eq_getElem (hlen₂ ▸ hpos),
        some_or, some_or]
    · rw [List.getElem?_eq_none (hlen ▸ not_lt.mp hpos),
        List.getElem?_eq_none (hlen₂ ▸ not_lt.mp hpos)]
      cases hwritten : valIn (p₂.writes charSigned (some k) view) pos with
      | none => exact iff_of_true rfl rfl
      | some json =>
        obtain ⟨-, hbound⟩ := p₂.writes_spec charSigned hm hp₂ (some k) hview
        exact absurd (hbound _ (valIn_eq_some hwritten)) hpos
  rw [← agreement_iff charSigned hm hp hreport]
  constructor
  · rintro ⟨q, q', part', full', hpart', hfull', hsame⟩ view hview pos
    obtain ⟨-, rfl⟩ := Prod.mk.inj (Except.ok.inj (hpart.symm.trans hpart'))
    obtain ⟨-, rfl⟩ := Prod.mk.inj (Except.ok.inj (hfull₂.symm.trans hfull'))
    exact (hval view hview pos).mp (hsame view hview pos)
  · intro hagrees
    exact ⟨_, _, part, full, hpart, hfull₂,
      fun view hview pos => (hval view hview pos).mpr (hagrees view hview pos)⟩

/-! ## A panel without names -/

/-- The panel and its views in the cloud, before anything is written to them. -/
def freshClouds : List DevCloud :=
  [⟨bridgeSn, "2ANF".toList, (cloudAttr 8).map (⟨·, none⟩)⟩,
    ⟨viewSn bridgeSn 0, "2ANK".toList, (cloudAttr 9).map (⟨·, none⟩)⟩,
    ⟨viewSn bridgeSn 1, "2ANJ".toList, (cloudAttr 10).map (⟨·, none⟩)⟩,
    ⟨viewSn bridgeSn 2, "2ANI".toList, (cloudAttr 11).map (⟨·, none⟩)⟩]

theorem freshClouds_shown : ∀ view ∈ viewsOf 8, ∃ c,
    listGetByIdCloud freshClouds (snOf view bridgeSn) = some c ∧ c.IsOf view := by
  intro view hview
  have hview : view = 8 ∨ view = 9 ∨ view = 10 ∨ view = 11 := by
    simpa using (show view ∈ [8, 9, 10, 11] from hview)
  obtain rfl | rfl | rfl | rfl := hview
  · exact ⟨_, rfl, rfl, by decide⟩
  · exact ⟨_, rfl, rfl, by decide⟩
  · exact ⟨_, rfl, rfl, by decide⟩
  · exact ⟨_, rfl, rfl, by decide⟩

/-- The first name of a panel is set. -/
theorem partial_refresh_named : ∃ p₁ clouds₁ p₂ q q' part full,
    cloudGetAttr true (.hy0134 .zero) 8 none bridgeSn freshClouds = .ok (p₁, clouds₁) ∧
    p₁.set 13 "SceName_1".toList (element "SceName_1".toList ['a']) = .ok p₂ ∧
    cloudGetAttr true p₂ 8 (some 13) bridgeSn clouds₁ = .ok (q, part) ∧
    cloudGetAttr true p₂ 8 none bridgeSn clouds₁ = .ok (q', full) ∧
    ∀ view ∈ viewsOf 8, ∀ pos, valAt part (snOf view bridgeSn) pos =
      valAt full (snOf view bridgeSn) pos := by
  have hof : (Private.hy0134 .zero).IsOf 8 := ⟨le_rfl, by decide⟩
  obtain ⟨cs, hshown⟩ := exists_shown freshClouds_shown
  obtain ⟨clouds₁, hfull, -⟩ := hshown.cloudGetAttr true (.inr rfl) hof 8 none
  have hset : (Private.hy0134 (noted .zero)).set 13 "SceName_1".toList
      (element "SceName_1".toList ['a']) = .ok (.hy0134 (setName (noted .zero) 0 ['a'])) := rfl
  have hsteady : Steady 13 (.hy0134 .zero) (.hy0134 (setName (noted .zero) 0 ['a'])) := by
    rintro - d d' ⟨⟩ ⟨⟩
    exact ⟨rfl, by decide⟩
  obtain ⟨q, q', part, full, hpart, hagain, hsame⟩ :=
    (partial_refresh_iff (.inr rfl) hof freshClouds_shown hfull hset).mpr hsteady
  exact ⟨_, clouds₁, _, q, q', part, full, hfull, hset, hpart, hagain, hsame⟩

/-- The first name of a panel is set to the empty text. -/
theorem partial_refresh_unnamed : (∀ view ∈ viewsOf 8, ∃ c,
      listGetByIdCloud freshClouds (snOf view bridgeSn) = some c ∧ c.IsOf view) ∧
    ∃ p₁ clouds₁ p₂ q q' part full,
    cloudGetAttr true (.hy0134 .zero) 8 none bridgeSn freshClouds = .ok (p₁, clouds₁) ∧
    p₁.set 13 "SceName_1".toList (element "SceName_1".toList []) = .ok p₂ ∧
    cloudGetAttr true p₂ 8 (some 13) bridgeSn clouds₁ = .ok (q, part) ∧
    cloudGetAttr true p₂ 8 none bridgeSn clouds₁ = .ok (q', full) ∧
    valAt part bridgeSn 1 ≠ valAt full bridgeSn 1 :=
  ⟨freshClouds_shown, _, _, _, _, _, _, _, rfl, rfl, rfl, rfl, by decide⟩

end Honyar.Hilink
