import Honyar.Hilink.Panel

/-!
# When the loop closes

A report of the panel writes several services.  Those that are written along keep their values
exactly if they showed their fields before.
-/

namespace Honyar.Hilink

open Libhylink (charVal)
open Faults Option List Nat

variable {charSigned : Bool} {m pos : Nat} {svcId prop DeviceId : CText} {kind : Kind} {v : Value}
variable {dev : DevLocal} {p p' : Private} {clouds clouds' : List DevCloud} {frameNumber : Int}
variable {view i : Nat} {c : DevCloud} {t : CText}

/-! ## Several services at once -/

/-- A report about the service at `pos` makes the fields `p'`, and `writes` says what it writes to
the panel and to the views up to its own. -/
structure Effect (charSigned : Bool) (m pos : Nat) (DeviceId : CText) (p p' : Private)
    (writes : Nat → List (Nat × SvcVal)) (clouds clouds' : List DevCloud) : Prop where
  others : ∀ sn, (∀ view, 8 ≤ view → view ≤ m → sn ≠ snOf view DeviceId) →
    listGetByIdCloud clouds' sn = listGetByIdCloud clouds sn
  views : ∀ view, 8 ≤ view → view ≤ m → ∃ c, listGetByIdCloud clouds' (snOf view DeviceId) =
      some (c.puts (writes view)) ∧ c.IsOf view ∧
    ∀ c₀, listGetByIdCloud clouds (snOf view DeviceId) = some c₀ → c₀ = c
  nodup : ∀ view, 8 ≤ view → view ≤ m → ((writes view).map Prod.fst).Nodup
  positions : ∀ view, 8 ≤ view → view ≤ m → ∀ pos', pos' ∈ (writes view).map Prod.fst ↔
    pos' < (cloudAttr view).length ∧ (view = m ∧ pos' = pos ∨ Alongside m pos view pos')
  written : ∀ view, 8 ≤ view → view ≤ m → ∀ v ∈ writes view,
    (p'.vals charSigned view)[v.1]? = some v.2 ∨ (p.vals charSigned view)[v.1]? = some v.2
  settled : ∀ view pos', pos' < (cloudAttr view).length → Alongside m pos view pos' →
    ((p'.vals charSigned view)[pos']? = (p.vals charSigned view)[pos']? ↔ Settled p view pos')

theorem snOf_injective {view' : Nat} (hview : 8 ≤ view ∧ view ≤ 11)
    (hview' : 8 ≤ view' ∧ view' ≤ 11) (h : snOf view DeviceId = snOf view' DeviceId) :
    view = view' := by
  have hcases {view : Nat} (hview : 8 ≤ view ∧ view ≤ 11) :
      view = 8 ∨ ∃ j : Fin 3, view = 9 + j.val := by
    rcases lt_or_eq_of_le hview.1 with hlt | heq
    · exact .inr ⟨⟨view - 9, by omega⟩, by simp; omega⟩
    · exact .inl heq.symm
  rcases hcases hview with rfl | ⟨i, rfl⟩ <;> rcases hcases hview' with rfl | ⟨j, rfl⟩
  · rfl
  · rw [snOf_panel, snOf_view] at h
    exact absurd h.symm (viewSn_ne j)
  · rw [snOf_panel, snOf_view] at h
    exact absurd h (viewSn_ne i)
  · rw [snOf_view, snOf_view] at h
    rw [viewSn_injective h]

theorem Alongside.bounds {pos' : Nat} (h : Alongside m pos view pos') :
    8 ≤ view ∧ view ≤ m ∧ ¬ (view = m ∧ pos' = pos) := by
  rcases h with ⟨rfl, rfl, -, -, hne⟩ | ⟨-, hlo, hlt⟩
  · exact ⟨le_rfl, le_rfl, fun h => hne h.2⟩
  · exact ⟨hlo, hlt.le, fun h => hlt.ne h.1⟩

namespace Effect

variable {writes : Nat → List (Nat × SvcVal)}

theorem bound (h : Effect charSigned m pos DeviceId p p' writes clouds clouds') (hlo : 8 ≤ view)
    (hhi : view ≤ m) (hc : c.IsOf view) : ∀ v ∈ writes view, v.1 < c.devSvc.length := by
  intro v hv
  rw [hc.length_eq]
  exact ((h.positions view hlo hhi v.1).mp (List.mem_map_of_mem hv)).1

theorem val_eq (h : Effect charSigned m pos DeviceId p p' writes clouds clouds') (hlo : 8 ≤ view)
    (hhi : view ≤ m) {v : Nat × SvcVal} (hv : v ∈ writes view) :
    valAt clouds' (snOf view DeviceId) v.1 = some v.2 := by
  obtain ⟨c, hc, hcof, -⟩ := h.views view hlo hhi
  rw [valAt_of_eq hc]
  exact DevCloud.val_puts_of_mem (h.bound hlo hhi hcof) (h.nodup view hlo hhi) hv

theorem val_alongside (h : Effect charSigned m pos DeviceId p p' writes clouds clouds') {pos' : Nat}
    (hpos' : pos' < (cloudAttr view).length) (halong : Alongside m pos view pos')
    (hsettled : Settled p view pos') :
    valAt clouds' (snOf view DeviceId) pos' = (p.vals charSigned view)[pos']? := by
  obtain ⟨hlo, hhi, -⟩ := halong.bounds
  obtain ⟨v, hv, rfl⟩ :=
    List.mem_map.mp ((h.positions view hlo hhi pos').mpr ⟨hpos', .inr halong⟩)
  rw [h.val_eq hlo hhi hv]
  rcases h.written view hlo hhi v hv with hnew | hold
  · rw [← (h.settled view v.1 hpos' halong).mpr hsettled, hnew]
  · rw [hold]

/-- The other services keep their values exactly if those that are written along showed their
fields. -/
theorem keeps_iff (h : Effect charSigned m pos DeviceId p p' writes clouds clouds')
    (hm : m ∈ models) (hpanel : 8 ≤ m) (hsvc : (cloudAttr m)[pos]? = some svcId)
    (hof : ∀ view ∈ viewsOf m, ∀ c, listGetByIdCloud clouds (snOf view DeviceId) = some c →
      c.IsOf view) :
    Keeps charSigned m DeviceId svcId p p' clouds clouds' ↔
      InSync charSigned m pos DeviceId p clouds := by
  have hle : m ≤ 11 := by
    have hall : ∀ m ∈ models, m ≤ 11 := by decide
    exact hall m hm
  have hviews {view : Nat} : view ∈ viewsOf m ↔ 8 ≤ view ∧ view ≤ 11 := by
    rw [viewsOf, if_neg (by omega)]
    simp only [mem_cons, not_mem_nil, or_false]
    omega
  constructor
  · intro hkeeps view pos' halong hsettled c hc hlt
    obtain ⟨hlo, hhi, hne⟩ := halong.bounds
    have hin := hviews.mpr ⟨hlo, hhi.trans hle⟩
    have hpos' : pos' < (cloudAttr view).length := (hof view hin c hc).length_eq ▸ hlt
    have hsame := hkeeps (snOf view DeviceId) pos' ⟨c, hc, hlt⟩ ?_ ?_
    · rw [← valAt_of_eq hc, ← hsame, h.val_alongside hpos' halong hsettled]
    · rintro ⟨hsn, hsvc'⟩
      exact hne ⟨snOf_injective ⟨hlo, hhi.trans hle⟩ ⟨hpanel, hle⟩ hsn, pos_unique hm hsvc hsvc'⟩
    · intro view' hview' hsn
      obtain rfl := snOf_injective (hviews.mp hview') ⟨hlo, hhi.trans hle⟩ hsn
      exact (h.settled view' pos' hpos' halong).mpr hsettled
  · rintro hsync sn pos' ⟨c, hc, hlt⟩ hother hfields
    by_cases hsn : ∃ view, 8 ≤ view ∧ view ≤ m ∧ sn = snOf view DeviceId
    · obtain ⟨view, hlo, hhi, rfl⟩ := hsn
      have hin := hviews.mpr ⟨hlo, hhi.trans hle⟩
      have hcof := hof view hin c hc
      by_cases hmem : pos' ∈ (writes view).map Prod.fst
      · obtain ⟨hpos', hcase⟩ := (h.positions view hlo hhi pos').mp hmem
        rcases hcase with ⟨rfl, rfl⟩ | halong
        · exact absurd ⟨rfl, hsvc⟩ hother
        · have hsettled := (h.settled view pos' hpos' halong).mp (hfields view hin rfl)
          rw [h.val_alongside hpos' halong hsettled, valAt_of_eq hc,
            hsync view pos' halong hsettled c hc hlt]
      · obtain ⟨c', hc', -, hsame⟩ := h.views view hlo hhi
        obtain rfl := hsame c hc
        rw [valAt_of_eq hc', valAt_of_eq hc]
        exact DevCloud.val_puts_of_notMem (h.bound hlo hhi hcof) hmem
    · rw [valAt, valAt, h.others sn fun view hlo hhi heq => hsn ⟨view, hlo, hhi, heq⟩]

end Effect

/-! ## Names and the scene -/

theorem charVal_eq_zero {c : BitVec 8} : charVal charSigned c = 0 ↔ c = 0 := by
  constructor
  · intro h
    rw [charVal] at h
    split at h
    · exact BitVec.eq_of_toInt_eq h
    · exact BitVec.eq_of_toNat_eq (Int.natCast_eq_zero.mp h)
  · rintro rfl
    cases charSigned <;> rfl

theorem withNames_eq_iff {names : List CText} (hlen : names.length = 6) (hnames : [] ∉ names)
    (dev : DevHY0134) {i : Fin 12} (hi : i.val < 6) :
    (dev.withNames names).SceName i = dev.SceName i ↔ dev.SceName i ≠ [] := by
  have hget : names[i.val]? = some names[i.val] := getElem?_eq_getElem (by omega)
  show (if dev.SceName i = [] then (names[i.val]?).getD [] else dev.SceName i) = _ ↔ _
  rw [hget, getD_some]
  split
  next h =>
    rw [h]
    exact ⟨fun heq => absurd (heq ▸ getElem_mem _) hnames, fun hne => absurd rfl hne⟩
  next h => exact iff_of_true rfl h

theorem vals_name (charSigned : Bool) (dev : DevHY0134) (hi : i < 6) :
    (dev.vals charSigned 8)[i + 1]? = some (strVal strName (dev.SceName ⟨i, by omega⟩)) := by
  show (dev.nameVals.map Prod.snd)[i]? = _
  rw [DevHY0134.nameVals, List.map_map, getElem?_map,
    getElem?_eq_getElem (by rw [length_finRange]; exact hi), getElem_finRange]
  rfl

theorem strVal_injective {name t' : CText} : strVal name t = strVal name t' ↔ t = t' := by
  simp [strVal]

theorem intVal_injective {name : CText} {n n' : Int} : intVal name n = intVal name n' ↔ n = n' := by
  simp [intVal]

theorem vals_withNames_iff {names : List CText} (hlen : names.length = 6) (hnames : [] ∉ names)
    {dev dev' : DevHY0134} (hi : i < 6)
    (hname : dev'.SceName ⟨i, by omega⟩ = dev.SceName ⟨i, by omega⟩) :
    ((dev'.withNames names).vals charSigned 8)[i + 1]? = (dev.vals charSigned 8)[i + 1]? ↔
      Settled (.hy0134 dev) 8 (i + 1) := by
  rw [vals_name charSigned _ hi, vals_name charSigned _ hi, some_inj, strVal_injective, ← hname,
    withNames_eq_iff hlen hnames dev' hi, hname]
  exact ⟨fun h _ => h, fun h => h (by omega)⟩

/-! ## Reports about a view -/

theorem sceNumber_spec : sceNumber.length = 6 ∧ [] ∉ sceNumber := by decide

theorem sceName_spec : sceName.length = 6 ∧ [] ∉ sceName := by decide

theorem noted_vals (dev : DevHY0134) (hview : 9 ≤ view ∧ view ≤ 11) :
    (noted dev).vals charSigned view = dev.vals charSigned view := by
  obtain rfl | rfl | rfl : view = 9 ∨ view = 10 ∨ view = 11 := by omega
  · rfl
  · rfl
  · rfl

theorem map_fst_viewWrites {dev : DevHY0134} (hm : 9 ≤ m ∧ m ≤ 11)
    (hpos : pos < (cloudAttr m).length) (hlo : 8 ≤ view) (hhi : view ≤ m) :
    (viewWrites charSigned dev m pos view).map Prod.fst =
      if view = m then [pos] else List.range (cloudAttr view).length := by
  rw [viewWrites]
  split
  next h =>
    subst h
    rw [if_neg (by omega), map_cons, map_fst_nameVals]
    rfl
  next h =>
    rcases lt_or_eq_of_le hhi with hlt | rfl
    · rw [if_pos hlt, if_neg hlt.ne, map_fst_places, length_vals _ (by omega)]
    · rw [if_neg (lt_irrefl view), if_pos rfl,
        getElem?_eq_getElem (by rw [length_vals _ (by omega)]; exact hpos)]
      rfl

/-- A report about a service of a view that leaves the names, the scene and the views before. -/
theorem effect_view {d d₁ : DevHY0134} (hm : 9 ≤ m ∧ m ≤ 11) (hpos : pos < (cloudAttr m).length)
    (hbefore : ∀ view, 9 ≤ view → view < m → d₁.vals charSigned view = d.vals charSigned view)
    (hname : d₁.SceName = d.SceName) (hscene : d₁.KeyFobValue = d.KeyFobValue)
    (hothers : ∀ sn, (∀ view, 8 ≤ view → view ≤ m → sn ≠ snOf view DeviceId) →
      listGetByIdCloud clouds' sn = listGetByIdCloud clouds sn)
    (hviews : ∀ view, 8 ≤ view → view ≤ m → ∃ c, listGetByIdCloud clouds' (snOf view DeviceId) =
        some (c.puts (viewWrites charSigned d₁ m pos view)) ∧ c.IsOf view ∧
      ∀ c₀, listGetByIdCloud clouds (snOf view DeviceId) = some c₀ → c₀ = c) :
    Effect charSigned m pos DeviceId (.hy0134 d) (.hy0134 (noted d₁))
      (viewWrites charSigned d₁ m pos) clouds clouds' where
  others := hothers
  views := hviews
  nodup view hlo hhi := by
    rw [map_fst_viewWrites hm hpos hlo hhi]
    split
    · exact nodup_singleton pos
    · exact nodup_range
  positions view hlo hhi pos' := by
    rw [map_fst_viewWrites hm hpos hlo hhi]
    split
    next h =>
      subst h
      rw [mem_singleton]
      constructor
      · rintro rfl
        exact ⟨hpos, .inl ⟨rfl, rfl⟩⟩
      · rintro ⟨-, ⟨-, rfl⟩ | halong⟩
        · rfl
        · rcases halong with ⟨h, -⟩ | ⟨-, -, h⟩ <;> omega
    next h =>
      rw [mem_range, and_iff_left]
      exact .inr (.inr ⟨hm.1, hlo, by omega⟩)
  written view hlo hhi v hv := by
    rw [viewWrites] at hv
    split at hv
    next h =>
      subst h
      rcases mem_cons.mp hv with rfl | hv
      · right
        rw [hscene]
        rfl
      · exact .inl (mem_nameVals.mp hv).2
    next h =>
      left
      split at hv
      · exact mem_places.mp hv
      · obtain ⟨json, hjson, rfl⟩ := List.mem_map.mp hv
        obtain rfl : view = m := by omega
        exact mem_toList.mp hjson
  settled view pos' hpos' halong := by
    obtain ⟨hlo, hhi, -⟩ := halong.bounds
    obtain ⟨-, -, hlt⟩ : 9 ≤ m ∧ 8 ≤ view ∧ view < m := by
      rcases halong with ⟨h, -⟩ | h
      · omega
      · exact h
    rcases lt_or_eq_of_le hlo with hview | rfl
    · have hsame : (noted d₁).vals charSigned view = d.vals charSigned view :=
        (noted_vals d₁ (by omega)).trans (hbefore view hview hlt)
      refine iff_of_true ?_ ?_
      · show ((noted d₁).vals charSigned view)[pos']? = (d.vals charSigned view)[pos']?
        rw [hsame]
      · obtain ⟨n, rfl⟩ : ∃ n, view = n + 9 := ⟨view - 9, by omega⟩
        trivial
    · cases pos' with
      | zero =>
        show some (intVal strNum (charVal charSigned 0)) =
          some (intVal strNum (charVal charSigned d.KeyFobValue)) ↔ d.KeyFobValue = 0
        rw [some_inj, intVal_injective, charVal_eq_zero.mpr rfl, eq_comm, charVal_eq_zero]
      | succ i =>
        exact vals_withNames_iff sceNumber_spec.1 sceNumber_spec.2 (lt_of_succ_lt_succ hpos')
          (congrFun hname _)

/-! ## Reports about a name -/

/-- A name is set. -/
def setName (d : DevHY0134) (i : Fin 12) (t : CText) : DevHY0134 :=
  { d with SceName := Function.update d.SceName i t }

theorem posOf_eq {num_pos : Nat} {key : CText} {i : Fin 12} (hlen : num_pos ≤ key.length)
    (hi : CText.atoi (key.drop num_pos) = i.val + 1) : posOf num_pos key = .ok (some i) := by
  have hrange : 0 ≤ CText.atoi (key.drop num_pos) - 1 ∧ CText.atoi (key.drop num_pos) - 1 < 12 := by
    have := i.isLt
    omega
  rw [posOf, if_neg (not_lt.mpr hlen)]
  dsimp only
  rw [dif_pos hrange]
  refine congrArg (Except.ok ∘ some) (Fin.ext ?_)
  show (CText.atoi (key.drop num_pos) - 1).toNat = i.val
  omega

theorem posOf_keyAt (i : Fin 12) :
    posOf "SceName_".toList.length (keyAt 8 (i + 1)) = .ok (some i) := by
  have hkey : keyAt 8 (i + 1) = "SceName_".toList ++ CText.ofInt ((i.val + 1 : Nat) : Int) := rfl
  rw [hkey]
  refine posOf_eq (by rw [length_append]; exact le_add_right _ _) ?_
  rw [drop_left, CText.atoi_ofInt, Int.natCast_succ]

theorem set_name (d : DevHY0134) (i : Fin 12) (ht : t.length < 18) :
    (Private.hy0134 d).set 13 (keyAt 8 (i + 1)) (element (keyAt 8 (i + 1)) t) =
      .ok (.hy0134 (setName d i t)) := by
  have hget : (element (keyAt 8 (i + 1)) t).getObjectItem strValue = some (.string t) := rfl
  have hcopy : strCopyFromJson 18 (element (keyAt 8 (i + 1)) t) strValue (d.SceName i) = .ok t := by
    rw [strCopyFromJson, hget]
    exact if_pos ht
  rw [Private.set, posOf_keyAt, ok_bind]
  dsimp only
  rw [hcopy]
  rfl

theorem localToCloud_name (charSigned : Bool) (d : DevHY0134)
    (hc : listGetByIdCloud clouds DeviceId = some c) (hof : c.IsOf 8) :
    ∃ clouds', localToCloud charSigned (.hy0134 d) 8 (some 13) DeviceId clouds =
        .ok (.hy0134 (d.withNames sceName), clouds') ∧
      listGetByIdCloud clouds' = Function.update (listGetByIdCloud clouds) DeviceId
        (some (c.puts (d.withNames sceName).nameVals)) := by
  have hbound : ∀ v ∈ (d.withNames sceName).nameVals, v.1 < c.devSvc.length := by
    intro v hv
    rw [hof.length_eq]
    exact nameVals_lt hv
  obtain ⟨clouds', heq, hlook⟩ := modSvcs_eq hc hbound
  refine ⟨clouds', ?_, hlook⟩
  rw [localToCloud, hc, isSome_some, if_pos rfl, cloudGetAttr, DevHY0134.getAttr, heq]
  rfl

theorem effect_name (charSigned : Bool) {d : DevHY0134} {i : Fin 12}
    (hc : listGetByIdCloud clouds DeviceId = some c) (hof : c.IsOf 8)
    (hlook : listGetByIdCloud clouds' = Function.update (listGetByIdCloud clouds) DeviceId
      (some (c.puts ((setName d i t).withNames sceName).nameVals))) :
    Effect charSigned 8 (i + 1) DeviceId (.hy0134 d) (.hy0134 ((setName d i t).withNames sceName))
      (fun _ => ((setName d i t).withNames sceName).nameVals) clouds clouds' where
  others sn hsn := by
    have hne : sn ≠ DeviceId := hsn 8 le_rfl le_rfl
    rw [hlook, Function.update_of_ne hne]
  views view hlo hhi := by
    obtain rfl : view = 8 := le_antisymm hhi hlo
    refine ⟨c, ?_, hof, fun c₀ h₀ => some.inj (h₀.symm.trans hc)⟩
    rw [snOf_panel, hlook, Function.update_self]
  nodup view _ _ := by
    rw [map_fst_nameVals]
    exact nodup_range.tail
  positions view hlo hhi pos' := by
    obtain rfl : view = 8 := le_antisymm hhi hlo
    have hrange : pos' ∈ (List.range 7).tail ↔ 0 < pos' ∧ pos' < 7 := by
      rw [show (List.range 7).tail = List.range' 1 6 from rfl, mem_range'_1]
      omega
    rw [map_fst_nameVals, hrange]
    show _ ↔ pos' < 7 ∧ _
    constructor
    · rintro ⟨hpos, hlt⟩
      by_cases heq : pos' = i + 1
      · exact ⟨hlt, .inl ⟨rfl, heq⟩⟩
      · exact ⟨hlt, .inr (.inl ⟨rfl, rfl, hpos, hlt, heq⟩)⟩
    · rintro ⟨hlt, ⟨-, rfl⟩ | ⟨-, -, hpos, -, -⟩ | ⟨h, -⟩⟩
      · exact ⟨succ_pos _, hlt⟩
      · exact ⟨hpos, hlt⟩
      · omega
  written view hlo hhi v hv := by
    obtain rfl : view = 8 := le_antisymm hhi hlo
    exact .inl (mem_nameVals.mp hv).2
  settled view pos' hpos' halong := by
    rcases halong with ⟨-, rfl, hpos, -, hne⟩ | ⟨h, -⟩
    · obtain ⟨n, rfl⟩ := exists_eq_succ_of_ne_zero hpos.ne'
      refine vals_withNames_iff sceName_spec.1 sceName_spec.2 (lt_of_succ_lt_succ hpos') ?_
      exact Function.update_of_ne (fun heq => hne (congrArg (·.val + 1) heq)) _ _
    · omega

/-! ## The panel -/

theorem eq_hy0134 (hpanel : 8 ≤ m) (hp : p.IsOf m) : ∃ d, p = .hy0134 d := by
  cases p with
  | hy0134 d => exact ⟨d, rfl⟩
  | hy0095 _ | hy0096 _ | hy0097 _ | d09223f _ | hy0121 _ | hy0122 _ | hy0107 _ | hy0093 _ =>
    obtain rfl := hp
    omega

theorem reported_view (frameNumber : Int) (hm : m ∈ models) (hview : 9 ≤ m)
    (hd : Attached m dev p clouds) (hsvc : (cloudAttr m)[pos]? = some svcId)
    (hprop : (props m)[pos]? = some (prop, kind)) {n : Int}
    (hv : kind.Fits charSigned (.num n)) :
    ∃ p' clouds' json, Reported charSigned frameNumber m pos dev (.num n) clouds p' clouds' json ∧
      (prop, .num n) ∈ json ∧
      (Keeps charSigned m dev.DeviceId svcId p p' clouds clouds' ↔
        InSync charSigned m pos dev.DeviceId p clouds) := by
  have hrange : 9 ≤ m ∧ m ≤ 11 := by
    have hall : ∀ m ∈ models, m ≤ 11 := by decide
    exact ⟨hview, hall m hm⟩
  have hpos := (List.getElem?_eq_some_iff.mp hsvc).1
  obtain ⟨d, rfl⟩ := eq_hy0134 (by omega) hd.isOf
  obtain ⟨rfl, write, hwrite⟩ := out_view charSigned hrange hprop
  obtain ⟨⟨c₀, hout⟩, hfields⟩ := hwrite d
  obtain ⟨⟨json, hjson, hmem⟩, hbefore, hname, hscene⟩ := hfields (.ofInt 8 n)
  have hset : (Private.hy0134 d).set (subAt m pos) (keyAt m pos)
      (element (keyAt m pos) (CText.ofInt n)) = .ok (.hy0134 (write d (.ofInt 8 n))) := by
    have hpriv : (Private.hy0134 d).out (subAt m pos) = some (c₀, Private.hy0134 ∘ write d) := by
      rw [Private.out, hout]
      rfl
    exact set_of_out hpriv _ n
  have hupdate := localAttributeUpdate_eq charSigned hm hd
    (messageOf frameNumber dev m pos (.num n)) (indexSub_keyAt hm hsvc) hset
  obtain ⟨clouds', hcloud, hothers, hviews⟩ :=
    localToCloud_view charSigned hrange hpos (write d (.ofInt 8 n)) hd.views
  rw [show min m 8 = 8 by omega, hcloud, ok_bind] at hupdate
  have heffect := effect_view hrange hpos hbefore hname hscene hothers hviews
  have hshown : (pos, json) ∈ viewWrites charSigned (write d (.ofInt 8 n)) m pos m := by
    rw [viewWrites, if_neg (by omega), if_neg (lt_irrefl m), noted_vals _ hrange, hjson]
    exact mem_singleton_self _
  refine ⟨_, clouds', json, ⟨hupdate, heffect.val_eq (by omega) le_rfl hshown⟩, ?_,
    heffect.keeps_iff hm (by omega) hsvc hd.views⟩
  rwa [show charVal charSigned (.ofInt 8 n) = n from hv] at hmem

theorem reported_name (frameNumber : Int) (hd : Attached 8 dev p clouds)
    (hsvc : (cloudAttr 8)[i + 1]? = some svcId) (ht : t.length < 18) :
    ∃ p' clouds' json, Reported charSigned frameNumber 8 (i + 1) dev (.text t) clouds p' clouds'
        json ∧ ((strName, .str t) ∈ json ↔ t ≠ []) ∧
      (Keeps charSigned 8 dev.DeviceId svcId p p' clouds clouds' ↔
        InSync charSigned 8 (i + 1) dev.DeviceId p clouds) := by
  have hi : i < 6 := lt_of_succ_lt_succ (List.getElem?_eq_some_iff.mp hsvc).1
  obtain ⟨d, rfl⟩ := eq_hy0134 le_rfl hd.isOf
  obtain ⟨c, hc⟩ := hd.found
  have hof := hd.views 8 (by decide) c hc
  rw [snOf_panel] at hc
  have hset := set_name d ⟨i, by omega⟩ ht
  have hupdate := localAttributeUpdate_eq charSigned (by decide) hd
    (messageOf frameNumber dev 8 (i + 1) (.text t)) (indexSub_keyAt (by decide) hsvc) hset
  obtain ⟨clouds', hcloud, hlook⟩ :=
    localToCloud_name charSigned (setName d ⟨i, by omega⟩ t) hc hof
  have heffect := effect_name charSigned (i := ⟨i, by omega⟩) hc hof hlook
  rw [show min 8 8 = 8 from rfl, show subAt 8 (i + 1) = 13 from rfl, hcloud, ok_bind] at hupdate
  have hshown : (i + 1, strVal strName (((setName d ⟨i, by omega⟩ t).withNames sceName).SceName
      ⟨i, by omega⟩)) ∈ ((setName d ⟨i, by omega⟩ t).withNames sceName).nameVals :=
    mem_nameVals.mpr ⟨succ_pos i, vals_name charSigned _ hi⟩
  refine ⟨_, clouds', _, ⟨hupdate, heffect.val_eq le_rfl le_rfl hshown⟩, ?_,
    heffect.keeps_iff (by decide) le_rfl hsvc hd.views⟩
  have hself : (setName d ⟨i, by omega⟩ t).SceName ⟨i, by omega⟩ = t := Function.update_self ..
  have hiff := withNames_eq_iff sceName_spec.1 sceName_spec.2 (setName d ⟨i, by omega⟩ t)
    (i := ⟨i, by omega⟩) hi
  rw [hself] at hiff
  rw [← hiff, strVal, mem_singleton, Prod.mk.injEq, Item.str.injEq]
  exact ⟨fun h => h.2.symm, fun h => ⟨rfl, h.symm⟩⟩

/-! ## When the loop closes -/

/-- What the report of a value that fits leaves of a service other than the scene. -/
theorem exists_reported (frameNumber : Int) (hm : m ∈ models) (hd : Attached m dev p clouds)
    (hsvc : (cloudAttr m)[pos]? = some svcId) (hprop : (props m)[pos]? = some (prop, kind))
    (hscene : ¬ (m = 8 ∧ pos = 0)) (hv : kind.Fits charSigned v) :
    ∃ p' clouds' json, Reported charSigned frameNumber m pos dev v clouds p' clouds' json ∧
      ((prop, v.item) ∈ json ↔ ∀ t, v = .text t → t ≠ []) ∧
      (Keeps charSigned m dev.DeviceId svcId p p' clouds clouds' ↔
        InSync charSigned m pos dev.DeviceId p clouds) := by
  have hcases : m < 7 ∨ m = 8 ∨ 9 ≤ m := by
    have hall : ∀ m ∈ models, m < 7 ∨ m = 8 ∨ 9 ≤ m := by decide
    exact hall m hm
  have hnum (h : m ≠ 8) : kind ≠ .name := by
    have hall : ∀ m ∈ models, m ≠ 8 → ∀ x ∈ props m, x.2 ≠ .name := by decide
    exact hall m hm h (prop, kind) (mem_of_getElem? hprop)
  have hvalue (h : m ≠ 8) : ∃ n, v = .num n := by
    cases v with
    | num n => exact ⟨n, rfl⟩
    | text t =>
      cases kind with
      | byte | int => cases hv
      | name => exact absurd rfl (hnum h)
  rcases hcases with hplain | rfl | hview
  · obtain ⟨n, rfl⟩ := hvalue (by omega)
    obtain ⟨p', clouds', hreport, hkeeps⟩ :=
      reported_plain frameNumber hm hplain hd hsvc hprop hv
    refine ⟨p', clouds', _, hreport, iff_of_true (mem_singleton_self _) ?_,
      iff_of_true hkeeps ?_⟩
    · rintro t ⟨⟩
    · rintro view pos' (⟨h, -⟩ | ⟨h, -⟩) <;> omega
  · obtain ⟨i, rfl⟩ : ∃ i, pos = i + 1 := exists_eq_succ_of_ne_zero fun h => hscene ⟨rfl, h⟩
    have hname : (List.replicate 6 (strName, Kind.name))[i]? = some (prop, kind) := hprop
    obtain ⟨rfl, rfl⟩ := Prod.mk.inj (eq_of_mem_replicate (mem_of_getElem? hname))
    cases v with
    | num n => cases hv
    | text t =>
      obtain ⟨p', clouds', json, hreport, hmem, hkeeps⟩ := reported_name frameNumber hd hsvc hv
      refine ⟨p', clouds', json, hreport, hmem.trans ?_, hkeeps⟩
      exact ⟨fun h t' ht' => Value.text.inj ht' ▸ h, fun h => h t rfl⟩
  · obtain ⟨n, rfl⟩ := hvalue (by omega)
    obtain ⟨p', clouds', json, hreport, hmem, hkeeps⟩ :=
      reported_view frameNumber hm hview hd hsvc hprop hv
    refine ⟨p', clouds', json, hreport, iff_of_true hmem ?_, hkeeps⟩
    rintro t ⟨⟩

theorem cloudToLocal_scene (hd : Attached 8 dev p clouds) (v : Value) :
    cloudToLocal frameNumber clouds (snOf 8 dev.DeviceId) "scene".toList (payload strNum v) =
      (strcpy 24 (snOf 8 dev.DeviceId) >>= fun _ => .ok none) := by
  obtain ⟨c, hc⟩ := hd.found
  have hindex := strSearch_cloudModel (by decide) (hd.views 8 (by decide) c hc)
  have hcommand (DeviceId Key : CText) :
      commandOf 8 DeviceId Key "scene".toList (payload strNum v) = none := by
    rw [commandOf, getObjectItem_payload]
    rfl
  rw [cloudToLocal, hc]
  dsimp only
  rw [hindex]
  simp only [Fault.ofOption, ok_bind, ← hd.model,
    show keyOf 8 "scene".toList = some "CurrentTemperature_1".toList from rfl, hcommand]
  rfl

theorem pos_ne_scene (hd : Attached m dev p clouds) (hsvc : (cloudAttr m)[pos]? = some svcId)
    (hprop : (props m)[pos]? = some (prop, kind))
    (haccepted : cloudToLocal frameNumber clouds (snOf m dev.DeviceId) svcId (payload prop v) ≠
      .ok none) (hsn : (snOf m dev.DeviceId).length < 24) : ¬ (m = 8 ∧ pos = 0) := by
  rintro ⟨rfl, rfl⟩
  obtain rfl : "scene".toList = svcId := some.inj hsvc
  obtain ⟨rfl, -⟩ := Prod.mk.inj (some.inj hprop)
  apply haccepted
  rw [cloudToLocal_scene hd, strcpy, if_pos hsn]
  rfl

theorem ClosedLoop.length_lt
    (h : ClosedLoop charSigned frameNumber m dev p clouds svcId prop v) :
    (snOf m dev.DeviceId).length < 24 := by
  obtain ⟨out, hsend, -⟩ := h
  rw [cloudToLocal] at hsend
  split at hsend
  · cases hsend
  · exact (strcpy_bind_eq_ok.mp hsend).1

theorem sendable_iff :
    v.Sendable ↔ (∀ t, v = .text t → t.length < 16) ∧ ∀ t, v = .text t → t ≠ [] := by
  cases v with
  | num n => exact iff_of_true trivial ⟨fun t h => (by cases h), fun t h => (by cases h)⟩
  | text t =>
    constructor
    · rintro ⟨hne, hlt⟩
      exact ⟨fun t' h => Value.text.inj h ▸ hlt, fun t' h => Value.text.inj h ▸ hne⟩
    · rintro ⟨hlt, hne⟩
      exact ⟨hne t rfl, hlt t rfl⟩

/-- The loop closes for a command that is accepted exactly when its service is one of the table,
its texts fit, and what is written along shows its fields. -/
theorem closed_loop_iff (hm : m ∈ models) (hd : Attached m dev p clouds)
    (hservice : ServiceOf m svcId prop kind) (hv : kind.Fits charSigned v)
    (haccepted : cloudToLocal frameNumber clouds (snOf m dev.DeviceId) svcId (payload prop v) ≠
      .ok none) :
    ClosedLoop charSigned frameNumber m dev p clouds svcId prop v ↔
      svcId ∈ cloudAttr m ∧ (snOf m dev.DeviceId).length < 24 ∧
        (CText.ofInt frameNumber).length < 3 ∧ v.Sendable ∧
        ∀ pos, (cloudAttr m)[pos]? = some svcId →
          InSync charSigned m pos dev.DeviceId p clouds := by
  rcases hservice with ⟨pos, hsvc, hprop⟩ | ⟨hall, rfl, -, -⟩
  · have hmem : svcId ∈ cloudAttr m := mem_of_getElem? hsvc
    have hsync : (∀ pos', (cloudAttr m)[pos']? = some svcId →
        InSync charSigned m pos' dev.DeviceId p clouds) ↔
        InSync charSigned m pos dev.DeviceId p clouds :=
      ⟨fun h => h pos hsvc, fun h pos' hsvc' => pos_unique hm hsvc hsvc' ▸ h⟩
    have hiff (hsn : (snOf m dev.DeviceId).length < 24) :
        ClosedLoop charSigned frameNumber m dev p clouds svcId prop v ↔
          (snOf m dev.DeviceId).length < 24 ∧ (CText.ofInt frameNumber).length < 3 ∧
            v.Sendable ∧ InSync charSigned m pos dev.DeviceId p clouds := by
      have hscene := pos_ne_scene hd hsvc hprop haccepted hsn
      obtain ⟨p', clouds', json, hreport, hshown, hkeeps⟩ :=
        exists_reported frameNumber hm hd hsvc hprop hscene hv
      rw [closedLoop_iff_of_reported hm hd hsvc hprop hscene hv hreport, hshown, hkeeps,
        sendable_iff, and_assoc]
    rw [hsync]
    constructor
    · intro h
      exact ⟨hmem, (hiff h.length_lt).mp h⟩
    · rintro ⟨-, h⟩
      exact (hiff h.1).mpr h
  · -- The table has no service for all switches.
    have hnone : ∀ m ∈ [5, 6], "switch".toList ∉ cloudAttr m := by decide
    have hnot : "switch".toList ∉ cloudAttr m := hnone m (by simpa using hall)
    refine iff_of_false ?_ fun h => hnot h.1
    rintro ⟨-, -, -, -, -, -, -, -, ⟨pos, json, hsvc, -⟩, -⟩
    exact hnot (mem_of_getElem? hsvc)

/-! ## Two devices -/

def bridgeSn : CText := "0011223344".toList

/-- A panel that has no names yet, with its first view. -/
def panelDev : DevLocal := ⟨bridgeSn, hy0134.toList, some (.hy0134 .zero)⟩

def panelClouds : List DevCloud :=
  [⟨bridgeSn, "2ANF".toList, (cloudAttr 8).map fun svcId =>
      ⟨svcId, if svcId = "scene".toList then some (intVal strNum 0) else none⟩⟩,
    ⟨viewSn bridgeSn 0, "2ANK".toList, (cloudAttr 9).map (⟨·, none⟩)⟩]

theorem panel_attached : Attached 9 panelDev (.hy0134 .zero) panelClouds where
  model := rfl
  priv := rfl
  isOf := ⟨by decide, by decide⟩
  found := ⟨_, rfl⟩
  views view hview c hc := by
    have hview : view = 8 ∨ view = 9 ∨ view = 10 ∨ view = 11 := by
      simpa using (show view ∈ [8, 9, 10, 11] from hview)
    obtain rfl | rfl | rfl | rfl := hview
    · obtain rfl := some.inj (show some _ = some c from hc)
      exact ⟨rfl, by decide⟩
    · obtain rfl := some.inj (show some _ = some c from hc)
      exact ⟨rfl, by decide⟩
    · cases (show none = some c from hc)
    · cases (show none = some c from hc)

/-- The switch of the first view, on a panel whose scene has been taken note of. -/
theorem closed_loop_switch : ClosedLoop true 0 9 panelDev (.hy0134 .zero) panelClouds
    "switch".toList strOn (.num 1) := by
  have haccepted : cloudToLocal 0 panelClouds (snOf 9 panelDev.DeviceId) "switch".toList
      (payload strOn (.num 1)) ≠ .ok none := by decide
  have hfits : Kind.byte.Fits true (.num 1) := show charVal true (.ofInt 8 1) = 1 by decide
  refine (closed_loop_iff (by decide) panel_attached (.inl ⟨0, rfl, rfl⟩) hfits haccepted).mpr
    ⟨by decide, by decide, by decide, trivial, ?_⟩
  rintro pos - view pos' (⟨h, -⟩ | ⟨-, hlo, hlt⟩) hsettled c hc hpos'
  · cases h
  · obtain rfl : view = 8 := by omega
    obtain rfl := some.inj (show some _ = some c from hc)
    match pos', hpos' with
    | 0, _ => rfl
    | i + 1, hpos' =>
      have hi : i < 12 := (Nat.lt_of_succ_lt_succ hpos').trans (by decide)
      exact absurd rfl (hsettled hi)

/-- A module with two switches. -/
def moduleDev : DevLocal := ⟨bridgeSn, "_TZ3210_pcikchu8".toList, some (.hy0122 (.zero 2))⟩

def moduleClouds : List DevCloud := [⟨bridgeSn, "2AOY".toList, (cloudAttr 5).map (⟨·, none⟩)⟩]

/-- All switches are switched on; what the device reports of it is written to another field, and
no service shows it. -/
theorem switch_all_open : Attached 5 moduleDev (.hy0122 (.zero 2)) moduleClouds ∧
    ServiceOf 5 "switch".toList strOn .byte ∧ Kind.byte.Fits true (.num 1) ∧
    cloudToLocal 0 moduleClouds bridgeSn "switch".toList (payload strOn (.num 1)) =
      .ok (some ⟨0, "Ctrl".toList, bridgeSn, moduleDev.ModelId, "Switch_All".toList, ['1']⟩) ∧
    ¬ ClosedLoop true 0 5 moduleDev (.hy0122 (.zero 2)) moduleClouds "switch".toList strOn
      (.num 1) := by
  refine ⟨⟨rfl, rfl, rfl, ⟨_, rfl⟩, fun view hview c hc => ?_⟩,
    .inr ⟨.inl rfl, rfl, rfl, rfl⟩, ?_, by decide, ?_⟩
  · obtain rfl : view = 5 := mem_singleton.mp hview
    obtain rfl := some.inj (show some _ = some c from hc)
    exact ⟨rfl, by decide⟩
  · show charVal true (.ofInt 8 1) = 1
    decide
  · rintro ⟨-, -, -, -, -, -, -, -, ⟨pos, json, hsvc, -⟩, -⟩
    have hnot : "switch".toList ∉ cloudAttr 5 := by decide
    exact hnot (mem_of_getElem? hsvc)

end Honyar.Hilink
