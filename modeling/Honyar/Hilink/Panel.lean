import Honyar.Hilink.Loop

/-!
# The panel and its views

The panel (HY0134) is in the cloud under four serial numbers, and the values of several services
are written at once.  This follows what is written to each of the four.
-/

namespace Honyar.Hilink

open Libhylink (charVal)
open Faults
open Option (map_eq_some_iff some.inj)
open List

variable {charSigned : Bool} {clouds clouds' : List DevCloud} {DeviceId sn : CText}
variable {j : Fin 3} {dev : DevHY0134} {v : Nat × SvcVal} {m pos : Nat}

/-! ## Writing to a device that may have to be added -/

/-- `vals` are written to the device of `view` at `sn`, which is added if it is not there; the
other devices stay as they are. -/
structure Written (sn : CText) (view : Nat) (vals : List (Nat × SvcVal))
    (clouds clouds' : List DevCloud) : Prop where
  others : ∀ sn' ≠ sn, listGetByIdCloud clouds' sn' = listGetByIdCloud clouds sn'
  self : ∃ c, listGetByIdCloud clouds' sn = some (DevCloud.puts c vals) ∧ c.IsOf view ∧
    ∀ c₀, listGetByIdCloud clouds sn = some c₀ → c₀ = c

/-- The device of `view` at `sn`, added if it is not there. -/
def ensure (view : Nat) (sn : CText) (clouds : List DevCloud) : List DevCloud :=
  if (listGetByIdCloud clouds sn).isSome then clouds else cloudAddDevice view sn clouds

theorem written_ensure {view : Nat} (hview : view < 12)
    (hof : ∀ c, listGetByIdCloud clouds sn = some c → c.IsOf view)
    (vals : List (Nat × SvcVal)) (hvals : ∀ v ∈ vals, v.1 < (cloudAttr view).length) :
    ∃ clouds', modSvcs sn vals (ensure view sn clouds) = .ok clouds' ∧
      Written sn view vals clouds clouds' := by
  unfold ensure
  cases hc : listGetByIdCloud clouds sn with
  | some c =>
    have hcof := hof c hc
    obtain ⟨clouds', heq, hlook⟩ := modSvcs_eq hc fun v hv => by
      rw [hcof.length_eq]
      exact hvals v hv
    refine ⟨clouds', heq, fun sn' hsn' => ?_, c, ?_, hcof, fun c₀ h₀ => ?_⟩
    · rw [hlook, Function.update_of_ne hsn']
    · rw [hlook, Function.update_self]
    · exact some.inj (h₀.symm.trans hc)
  | none =>
    obtain ⟨prodId, hprod⟩ : ∃ t, cloudModel[view]? = some t :=
      ⟨_, getElem?_eq_getElem (show view < cloudModel.length from hview)⟩
    have hadded : listGetByIdCloud (cloudAddDevice view sn clouds) sn =
        some ⟨sn, (cloudModel[view]?).getD [], (cloudAttr view).map (⟨·, none⟩)⟩ :=
      find?_cons_of_pos (by simp)
    have hcof : DevCloud.IsOf
        ⟨sn, (cloudModel[view]?).getD [], (cloudAttr view).map (⟨·, none⟩)⟩ view :=
      ⟨by rw [hprod]; rfl, by simp [Function.comp_def]⟩
    obtain ⟨clouds', heq, hlook⟩ := modSvcs_eq hadded fun v hv => by
      rw [hcof.length_eq]
      exact hvals v hv
    refine ⟨clouds', heq, fun sn' hsn' => ?_, _, ?_, hcof, fun c₀ h₀ => ?_⟩
    · rw [hlook, Function.update_of_ne hsn']
      exact find?_cons_of_neg (by simpa using Ne.symm hsn')
    · rw [hlook, Function.update_self]
    · rw [hc] at h₀
      cases h₀

theorem viewSn_injective {i : Fin 3} (h : viewSn DeviceId i = viewSn DeviceId j) : i = j := by
  have hdigits : ∀ i j : Fin 3, CText.ofInt i.val = CText.ofInt j.val → i = j := by decide
  exact hdigits i j (append_cancel_left h)

theorem viewSn_ne (j : Fin 3) : viewSn DeviceId j ≠ DeviceId := by
  have hdigit : ∀ j : Fin 3, CText.ofInt j.val ≠ [] := by decide
  intro h
  exact hdigit j (append_right_eq_self.mp h)

/-- The views are written one after another, up to the one that ends it. -/
theorem getViews_eq {index_sub : Option Nat} {k : Fin 3} {js : List (Fin 3)} (ys : List (Fin 3))
    (hnd : (js ++ [k]).Nodup) (hjs : ∀ j ∈ js, (dev.viewVals charSigned j index_sub).2 = false)
    (hk : (dev.viewVals charSigned k index_sub).2 = true)
    (hvals : ∀ j ∈ js ++ [k], ∀ v ∈ (dev.viewVals charSigned j index_sub).1,
      v.1 < (cloudAttr (9 + j)).length)
    (hof : ∀ j ∈ js ++ [k], ∀ c, listGetByIdCloud clouds (viewSn DeviceId j) = some c →
      c.IsOf (9 + j)) :
    ∃ clouds', dev.getViews charSigned 8 index_sub DeviceId (js ++ k :: ys) clouds =
        .ok clouds' ∧
      (∀ sn, (∀ j ∈ js ++ [k], sn ≠ viewSn DeviceId j) →
        listGetByIdCloud clouds' sn = listGetByIdCloud clouds sn) ∧
      ∀ j ∈ js ++ [k], ∃ c, listGetByIdCloud clouds' (viewSn DeviceId j) =
          some (c.puts (dev.viewVals charSigned j index_sub).1) ∧ c.IsOf (9 + j) ∧
        ∀ c₀, listGetByIdCloud clouds (viewSn DeviceId j) = some c₀ → c₀ = c := by
  induction js generalizing clouds with
  | nil =>
    obtain ⟨clouds', heq, hothers, c, hc, hcof, hsame⟩ :=
      written_ensure (show 9 + k.val < 12 by omega) (hof k (by simp)) _ (hvals k (by simp))
    refine ⟨clouds', ?_, ?_, ?_⟩
    · simp only [nil_append, DevHY0134.getViews, hk, if_true]
      rw [show (8 + k.val + 1) = 9 + k.val by omega]
      exact bind_eq_ok.mpr ⟨clouds', heq, rfl⟩
    · intro sn hsn
      exact hothers sn (hsn k (by simp))
    · intro j hj
      obtain rfl : j = k := by simpa using hj
      exact ⟨c, hc, hcof, hsame⟩
  | cons i js ih =>
    rw [cons_append] at hnd hvals hof
    obtain ⟨hi, hnd⟩ := nodup_cons.mp hnd
    obtain ⟨hdone, hjs⟩ := forall_mem_cons.mp hjs
    obtain ⟨hval, hvals⟩ := forall_mem_cons.mp hvals
    obtain ⟨hofi, hof⟩ := forall_mem_cons.mp hof
    obtain ⟨clouds₁, heq₁, hothers₁, c, hc, hcof, hsame⟩ :=
      written_ensure (show 9 + i.val < 12 by omega) hofi _ hval
    have hne (j : Fin 3) (hj : j ∈ js ++ [k]) : viewSn DeviceId j ≠ viewSn DeviceId i := by
      intro h
      exact hi (viewSn_injective h ▸ hj)
    obtain ⟨clouds', heq, hothers, hviews⟩ := ih hnd hjs hvals fun j hj c hc => by
      rw [hothers₁ _ (hne j hj)] at hc
      exact hof j hj c hc
    refine ⟨clouds', ?_, ?_, ?_⟩
    · simp only [cons_append, DevHY0134.getViews, hdone]
      rw [show (8 + i.val + 1) = 9 + i.val by omega]
      exact bind_eq_ok.mpr ⟨clouds₁, heq₁, heq⟩
    · intro sn hsn
      obtain ⟨hsni, hsn⟩ := forall_mem_cons.mp hsn
      rw [hothers sn hsn, hothers₁ sn hsni]
    · intro j hj
      rcases mem_cons.mp hj with rfl | hj
      · refine ⟨c, ?_, hcof, hsame⟩
        rw [hothers _ fun j' hj' => (hne j' hj').symm, hc]
      · obtain ⟨c', hc', hcof', hsame'⟩ := hviews j hj
        refine ⟨c', hc', hcof', fun c₀ h₀ => hsame' c₀ ?_⟩
        rw [hothers₁ _ (hne j hj), h₀]

/-! ## Fields and services -/

/-- Where the values of a view are written. -/
def places (vals : List SvcVal) : List (Nat × SvcVal) := vals.zipIdx.map Prod.swap

theorem mem_places {vals : List SvcVal} : v ∈ places vals ↔ vals[v.1]? = some v.2 := by
  rw [places, mem_map]
  constructor
  · rintro ⟨⟨val, i⟩, h, rfl⟩
    exact mem_zipIdx_iff_getElem?.mp h
  · intro h
    exact ⟨(v.2, v.1), mem_zipIdx_iff_getElem?.mpr h, rfl⟩

theorem map_fst_places (vals : List SvcVal) :
    (places vals).map Prod.fst = List.range vals.length := by
  rw [places, map_map, range_eq_range']
  exact zipIdx_map_snd 0 vals

/-- A service of a view has a field of one byte; writing it changes no view before its own, no
name and no scene, and the view is where the writing ends. -/
theorem out_view (charSigned : Bool) {prop : CText} {kind : Kind} (hm : 9 ≤ m ∧ m ≤ 11)
    (hprop : (props m)[pos]? = some (prop, kind)) :
    kind = .byte ∧ ∃ write : DevHY0134 → BitVec 8 → DevHY0134, ∀ dev : DevHY0134,
      (∃ c₀, dev.out (subAt m pos) = some (c₀, write dev)) ∧ ∀ c,
        (∃ json, ((write dev c).vals charSigned m)[pos]? = some json ∧
          (prop, .num (charVal charSigned c)) ∈ json) ∧
        (∀ view, 9 ≤ view → view < m →
          (write dev c).vals charSigned view = dev.vals charSigned view) ∧
        (write dev c).SceName = dev.SceName ∧ (write dev c).KeyFobValue = dev.KeyFobValue := by
  obtain ⟨hlo, hhi⟩ := hm
  obtain rfl | rfl | rfl : m = 9 ∨ m = 10 ∨ m = 11 := by omega
  · match pos, hprop with
    | 0, hprop | 1, hprop =>
      obtain ⟨rfl, rfl⟩ := Prod.mk.inj (some.inj hprop)
      refine ⟨rfl, _, fun dev => ⟨⟨_, rfl⟩, fun c => ⟨⟨_, rfl, ?_⟩, ?_, rfl, rfl⟩⟩⟩
      · first
        | exact mem_singleton_self _
        | exact mem_cons_of_mem _ (mem_singleton_self _)
      · intro view h h'
        omega
  · match pos, hprop with
    | 0, hprop | 1, hprop | 2, hprop | 3, hprop =>
      obtain ⟨rfl, rfl⟩ := Prod.mk.inj (some.inj hprop)
      refine ⟨rfl, _, fun dev => ⟨⟨_, rfl⟩, fun c => ⟨⟨_, rfl, ?_⟩, ?_, rfl, rfl⟩⟩⟩
      · first
        | exact mem_singleton_self _
        | exact mem_cons_of_mem _ (mem_singleton_self _)
      · intro view h h'
        obtain rfl : view = 9 := by omega
        rfl
  · match pos, hprop with
    | 0, hprop | 1, hprop =>
      obtain ⟨rfl, rfl⟩ := Prod.mk.inj (some.inj hprop)
      refine ⟨rfl, _, fun dev => ⟨⟨_, rfl⟩, fun c => ⟨⟨_, rfl, ?_⟩, ?_, rfl, rfl⟩⟩⟩
      · exact mem_singleton_self _
      · intro view h h'
        obtain rfl | rfl : view = 9 ∨ view = 10 := by omega
        · rfl
        · rfl

theorem viewVals_before (hm : m ≤ 11) (hpos : pos < (cloudAttr m).length) (dev : DevHY0134)
    (hj : 9 + j.val < m) :
    dev.viewVals charSigned j (some (subAt m pos)) =
      (places (dev.vals charSigned (9 + j)), false) := by
  obtain rfl | rfl : m = 10 ∨ m = 11 := by omega
  · obtain rfl : j = 0 := by omega
    match pos, hpos with
    | 0, _ | 1, _ | 2, _ | 3, _ => rfl
  · obtain rfl | rfl : j = 0 ∨ j = 1 := by omega
    · match pos, hpos with
      | 0, _ | 1, _ => rfl
    · match pos, hpos with
      | 0, _ | 1, _ => rfl

theorem viewVals_at (charSigned : Bool) (hpos : pos < (cloudAttr m).length) (dev : DevHY0134)
    (hj : 9 + j.val = m) :
    ∃ json, (dev.vals charSigned m)[pos]? = some json ∧
      dev.viewVals charSigned j (some (subAt m pos)) = ([(pos, json)], true) := by
  subst hj
  match j, pos, hpos with
  | 0, 0, _ | 0, 1, _ | 1, 0, _ | 1, 1, _ | 1, 2, _ | 1, 3, _ | 2, 0, _ | 2, 1, _ =>
    exact ⟨_, rfl, rfl⟩

theorem mem_nameVals : v ∈ dev.nameVals ↔ 0 < v.1 ∧ (dev.vals charSigned 8)[v.1]? = some v.2 := by
  have hget (n : Nat) : (dev.vals charSigned 8)[n + 1]? = (dev.nameVals[n]?).map Prod.snd :=
    getElem?_map ..
  have hplace {n : Nat} {w : Nat × SvcVal} (h : dev.nameVals[n]? = some w) : w.1 = n + 1 := by
    obtain ⟨hn, rfl⟩ := List.getElem?_eq_some_iff.mp h
    simp [DevHY0134.nameVals]
  constructor
  · intro h
    obtain ⟨n, hn⟩ := getElem?_of_mem h
    rw [hplace hn, hget, hn]
    exact ⟨Nat.succ_pos n, rfl⟩
  · rintro ⟨hpos, h⟩
    obtain ⟨n, hn⟩ := Nat.exists_eq_succ_of_ne_zero hpos.ne'
    rw [hn, hget] at h
    obtain ⟨w, hw, heq⟩ := map_eq_some_iff.mp h
    have hwv : w = v := Prod.ext ((hplace hw).trans hn.symm) heq
    exact hwv ▸ mem_of_getElem? hw

theorem map_fst_nameVals (dev : DevHY0134) :
    dev.nameVals.map Prod.fst = (List.range 7).tail := rfl

theorem nameVals_lt (hv : v ∈ dev.nameVals) : v.1 < (cloudAttr 8).length := by
  have hmem : v.1 ∈ dev.nameVals.map Prod.fst := mem_map_of_mem hv
  rw [map_fst_nameVals] at hmem
  exact mem_range.mp (mem_of_mem_tail hmem)

theorem length_vals (dev : DevHY0134) {view : Nat} (hview : 8 ≤ view ∧ view ≤ 11) :
    (dev.vals charSigned view).length = (cloudAttr view).length := by
  obtain rfl | rfl | rfl | rfl : view = 8 ∨ view = 9 ∨ view = 10 ∨ view = 11 := by omega
  · rfl
  · rfl
  · rfl
  · rfl

theorem snOf_view (j : Fin 3) : snOf (9 + j) DeviceId = viewSn DeviceId j := by
  rw [snOf, if_neg (by omega), Nat.add_sub_cancel_left]

theorem snOf_panel : snOf 8 DeviceId = DeviceId := rfl

/-! ## The panel as a whole -/

/-- The fields after a report about a view: the scene is taken note of, and the names are there. -/
def noted (dev : DevHY0134) : DevHY0134 := { dev with KeyFobValue := 0 }.withNames sceNumber

/-- What a report about a service of a view writes to the panel and to the views. -/
def viewWrites (charSigned : Bool) (dev : DevHY0134) (m pos view : Nat) : List (Nat × SvcVal) :=
  if view = 8 then
    (0, intVal strNum (charVal charSigned dev.KeyFobValue)) :: (noted dev).nameVals
  else if view < m then places ((noted dev).vals charSigned view)
  else (((noted dev).vals charSigned m)[pos]?).toList.map (pos, ·)

theorem getAttr_view (charSigned : Bool) (dev : DevHY0134) (index : Nat) {s : Nat}
    (hs : s ≠ 12 ∧ s ≠ 13) (out : CText)
    (clouds : List DevCloud) :
    dev.getAttr charSigned index (some s) out clouds = (do
      let clouds ← modSvcs out (viewWrites charSigned dev 9 0 8) clouds
      let clouds ← (noted dev).getViews charSigned index (some s) out (List.finRange 3) clouds
      return (noted dev, clouds)) := by
  rw [viewWrites, if_pos rfl, modSvcs, foldlM_cons, bind_assoc]
  unfold DevHY0134.getAttr
  split
  next h => exact absurd (some.inj h) hs.1
  next h => exact absurd (some.inj h) hs.2
  next => rfl

theorem localToCloud_view (charSigned : Bool) (hm : 9 ≤ m ∧ m ≤ 11)
    (hpos : pos < (cloudAttr m).length) (dev : DevHY0134)
    (hof : ∀ view ∈ viewsOf m, ∀ c, listGetByIdCloud clouds (snOf view DeviceId) = some c →
      c.IsOf view) :
    ∃ clouds', localToCloud charSigned (.hy0134 dev) 8 (some (subAt m pos)) DeviceId clouds =
        .ok (.hy0134 (noted dev), clouds') ∧
      (∀ sn, (∀ view, 8 ≤ view → view ≤ m → sn ≠ snOf view DeviceId) →
        listGetByIdCloud clouds' sn = listGetByIdCloud clouds sn) ∧
      ∀ view, 8 ≤ view → view ≤ m → ∃ c, listGetByIdCloud clouds' (snOf view DeviceId) =
          some (c.puts (viewWrites charSigned dev m pos view)) ∧ c.IsOf view ∧
        ∀ c₀, listGetByIdCloud clouds (snOf view DeviceId) = some c₀ → c₀ = c := by
  obtain ⟨k, rfl⟩ : ∃ k : Fin 3, m = 9 + k.val := ⟨⟨m - 9, by omega⟩, by simp; omega⟩
  have hviews : ∀ j k : Fin 3, 9 + j.val ∈ viewsOf (9 + k.val) := by decide
  have hpanelView : ∀ k : Fin 3, 8 ∈ viewsOf (9 + k.val) := by decide
  have hsub : subAt (9 + k.val) pos ≠ 12 ∧ subAt (9 + k.val) pos ≠ 13 := by
    have hall : ∀ k : Fin 3, ∀ pos < (cloudAttr (9 + k.val)).length,
        subAt (9 + k.val) pos ≠ 12 ∧ subAt (9 + k.val) pos ≠ 13 := by decide
    exact hall k pos hpos
  have hlength (dev : DevHY0134) {view : Nat} (hview : 8 ≤ view ∧ view ≤ 11) {i : Nat}
      {json : SvcVal} (h : (dev.vals charSigned view)[i]? = some json) :
      i < (cloudAttr view).length := by
    rw [← length_vals dev hview]
    exact (List.getElem?_eq_some_iff.mp h).1
  have hpanel : ∀ v ∈ viewWrites charSigned dev 9 0 8, v.1 < (cloudAttr 8).length := by
    intro v hv
    rcases mem_cons.mp hv with rfl | hv
    · exact Nat.succ_pos 6
    · exact nameVals_lt hv
  obtain ⟨clouds₁, heq₁, hothers₁, c₁, hc₁, hcof₁, hsame₁⟩ :=
    written_ensure (show 8 < 12 by decide) (hof 8 (hpanelView k)) _ hpanel
  rw [snOf_panel] at heq₁ hothers₁ hc₁ hsame₁
  -- The views, up to that of the service.
  have hsplit : ∀ k : Fin 3, List.finRange 3 =
      (List.finRange 3).take k ++ k :: (List.finRange 3).drop (k + 1) := by decide
  have hbefore : ∀ k, ∀ j ∈ (List.finRange 3).take k.val, j < k := by decide
  have hupTo : ∀ k, ∀ j : Fin 3, j ≤ k → j ∈ (List.finRange 3).take k.val ++ [k] := by decide
  have hle : ∀ k, ∀ j ∈ (List.finRange 3).take k.val ++ [k], j ≤ k := by decide
  have hnd : ∀ k : Fin 3, ((List.finRange 3).take k.val ++ [k]).Nodup := by decide
  obtain ⟨json, hjson, hat⟩ :=
    viewVals_at charSigned hpos (noted dev) (show 9 + k.val = 9 + k.val from rfl)
  have hearlier {j : Fin 3} (hj : j < k) :
      (noted dev).viewVals charSigned j (some (subAt (9 + k.val) pos)) =
        (places ((noted dev).vals charSigned (9 + j)), false) :=
    viewVals_before hm.2 hpos (noted dev) (by omega)
  have hwrites : ∀ j ≤ k,
      ((noted dev).viewVals charSigned j (some (subAt (9 + k.val) pos))).1 =
        viewWrites charSigned dev (9 + k.val) pos (9 + j.val) := by
    intro j hj
    rw [viewWrites, if_neg (by omega)]
    rcases Nat.lt_or_eq_of_le (show j.val ≤ k.val from hj) with hlt | heq
    · rw [if_pos (by omega), hearlier hlt]
    · rw [if_neg (by omega), Fin.ext heq, hat, hjson]
      rfl
  have hvals : ∀ j ∈ (List.finRange 3).take k.val ++ [k],
      ∀ v ∈ ((noted dev).viewVals charSigned j (some (subAt (9 + k.val) pos))).1,
        v.1 < (cloudAttr (9 + j)).length := by
    intro j hj v hv
    have hjk := hle k j hj
    rcases Nat.lt_or_eq_of_le (show j.val ≤ k.val from hjk) with hlt | heq
    · rw [hearlier hlt] at hv
      exact hlength (noted dev) (by omega) (mem_places.mp hv)
    · obtain rfl := Fin.ext heq
      rw [hat] at hv
      obtain rfl := mem_singleton.mp hv
      exact hpos
  have hof₁ : ∀ j ∈ (List.finRange 3).take k.val ++ [k], ∀ c,
      listGetByIdCloud clouds₁ (viewSn DeviceId j) = some c → c.IsOf (9 + j) := by
    intro j _ c hc
    rw [hothers₁ _ (viewSn_ne j), ← snOf_view] at hc
    exact hof _ (hviews j k) c hc
  obtain ⟨clouds', heq, hothers, hwritten⟩ := getViews_eq ((List.finRange 3).drop (k + 1))
    (hnd k) (fun j hj => by rw [hearlier (hbefore k j hj)]) (by rw [hat]) hvals hof₁
  refine ⟨clouds', ?_, ?_, ?_⟩
  · rw [localToCloud, cloudGetAttr, getAttr_view charSigned dev 8 hsub]
    rw [ensure] at heq₁
    rw [heq₁, ok_bind, hsplit k, heq]
    rfl
  · intro sn hsn
    rw [hothers sn fun j hj => ?_, hothers₁ sn (hsn 8 le_rfl (by omega))]
    have hjk := hle k j hj
    exact snOf_view j ▸ hsn (9 + j) (by omega) (by omega)
  · intro view hlo hhi
    rcases Nat.lt_or_eq_of_le hlo with hlt | rfl
    · obtain ⟨j, rfl⟩ : ∃ j : Fin 3, view = 9 + j.val :=
        ⟨⟨view - 9, by omega⟩, by simp; omega⟩
      have hj : j ≤ k := by omega
      rw [snOf_view]
      obtain ⟨c, hc, hcof, hsame⟩ := hwritten j (hupTo k j hj)
      refine ⟨c, by rw [hc, hwrites j hj], hcof, fun c₀ h₀ => hsame c₀ ?_⟩
      rw [hothers₁ _ (viewSn_ne j), h₀]
    · refine ⟨c₁, ?_, hcof₁, hsame₁⟩
      rw [snOf_panel, hothers _ fun j _ => (viewSn_ne j).symm, hc₁]
      rfl

end Honyar.Hilink
