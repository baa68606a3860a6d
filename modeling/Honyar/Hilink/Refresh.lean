import Mathlib
import Honyar.Hilink.ClosedLoop

/-!
# What a refresh writes

`cloud_get_attr` writes the services of a device, all of them or those of one attribute.  Where the
device has all its views in the cloud, what it writes to each of them is a list of positions and
values, and nothing of it stands behind the services of a view.
-/

namespace Honyar.Hilink

open Libhylink (charVal)
open Faults Function DevHY0134
open Option (bind_eq_some_iff bind_some eq_none_iff_forall_not_mem map_eq_some_iff)
open List

variable (charSigned : Bool)
variable {view : Nat} {p : Private}

/-! ## Writes -/

/-- The value that is written to a position, if one is. -/
def valIn (vals : List (Nat × SvcVal)) (pos : Nat) : Option SvcVal :=
  (vals.find? (·.1 = pos)).map Prod.snd

/-- What `updateVals` writes. -/
def plainWrites (vals : List SvcVal) (index_sub : Option Nat) : List (Nat × SvcVal) :=
  match index_sub.bind fun i => (vals[i]?).map (i, ·) with
  | some v => [v]
  | none => places vals

/-- The views that are written, up to the one that ends it. -/
def DevHY0134.reached (dev : DevHY0134) (index_sub : Option Nat) : List (Fin 3) → List (Fin 3)
  | [] => []
  | j :: js =>
    j :: if (dev.viewVals charSigned j index_sub).2 then [] else dev.reached index_sub js

/-- What is written to a view of the panel. -/
def DevHY0134.writes (dev : DevHY0134) (index_sub : Option Nat) (view : Nat) :
    List (Nat × SvcVal) :=
  let num := intVal strNum (charVal charSigned dev.KeyFobValue)
  if view = 8 then
    match index_sub with
    | some 12 => [(0, num)]
    | some 13 => (dev.withNames sceName).nameVals
    | _ => (0, num) :: (noted dev).nameVals
  else
    match index_sub with
    | some 12 | some 13 => []
    | _ =>
      ((dev.reached charSigned index_sub (List.finRange 3)).filter (9 + ·.val = view)).flatMap
        fun j => (dev.viewVals charSigned j index_sub).1

/-- What the panel keeps. -/
def DevHY0134.after (dev : DevHY0134) : Option Nat → DevHY0134
  | some 12 => { dev with KeyFobValue := 0 }
  | some 13 => dev.withNames sceName
  | _ => noted dev

/-- What is written to a view of a device. -/
def Private.writes (p : Private) (index_sub : Option Nat) (view : Nat) : List (Nat × SvcVal) :=
  match p with
  | .hy0134 dev => dev.writes charSigned index_sub view
  | p => plainWrites (p.vals charSigned view) index_sub

/-- What a device keeps. -/
def Private.after (p : Private) (index_sub : Option Nat) : Private :=
  match p with
  | .hy0134 dev => .hy0134 (dev.after index_sub)
  | p => p

/-- The devices that a device has in the cloud, by their views. -/
def Shown (m : Nat) (DeviceId : CText) (clouds : List DevCloud) (cs : Nat → DevCloud) : Prop :=
  ∀ view ∈ viewsOf m, listGetByIdCloud clouds (snOf view DeviceId) = some (cs view) ∧
    (cs view).IsOf view

variable {charSigned} {m : Nat} {DeviceId : CText} {clouds : List DevCloud} {cs : Nat → DevCloud}

theorem valIn_places (vals : List SvcVal) (pos : Nat) : valIn (places vals) pos = vals[pos]? := by
  unfold valIn
  cases h : (places vals).find? (·.1 = pos) with
  | none =>
    have hnone : ∀ json, vals[pos]? ≠ some json := fun json hjson =>
      find?_eq_none.mp h (pos, json) (mem_places.mpr hjson) (decide_eq_true rfl)
    exact (eq_none_iff_forall_not_mem.mpr fun json hjson => hnone json hjson).symm
  | some v =>
    have hpos : v.1 = pos := by simpa using find?_some h
    rw [← hpos, mem_places.mp (mem_of_find?_eq_some h)]
    rfl

theorem DevCloud.val_puts {c : DevCloud} {vals : List (Nat × SvcVal)}
    (hvals : ∀ v ∈ vals, v.1 < c.devSvc.length) (hnd : (vals.map Prod.fst).Nodup) (pos : Nat) :
    (c.puts vals).val pos = (valIn vals pos).or (c.val pos) := by
  unfold valIn
  cases h : vals.find? (·.1 = pos) with
  | none =>
    refine val_puts_of_notMem hvals fun hmem => ?_
    obtain ⟨v, hv, rfl⟩ := mem_map.mp hmem
    exact find?_eq_none.mp h v hv (decide_eq_true rfl)
  | some v =>
    have hpos : v.1 = pos := by simpa using find?_some h
    rw [← hpos, val_puts_of_mem hvals hnd (mem_of_find?_eq_some h)]
    rfl

theorem snOf_inj {view' : Nat} (hview : view ∈ viewsOf m) (hview' : view' ∈ viewsOf m)
    (h : snOf view DeviceId = snOf view' DeviceId) : view = view' := by
  unfold viewsOf at hview hview'
  split at hview
  next hlt =>
    rw [if_pos hlt] at hview'
    exact (mem_singleton.mp hview).trans (mem_singleton.mp hview').symm
  next hge =>
    rw [if_neg hge] at hview'
    have hbounds : ∀ view ∈ [8, 9, 10, 11], 8 ≤ view ∧ view ≤ 11 := by decide
    exact snOf_injective (hbounds view hview) (hbounds view' hview') h

theorem Shown.modSvcs_eq (h : Shown m DeviceId clouds cs) (hview : view ∈ viewsOf m)
    {vals : List (Nat × SvcVal)} (hvals : ∀ v ∈ vals, v.1 < (cloudAttr view).length) :
    ∃ clouds', modSvcs (snOf view DeviceId) vals clouds = .ok clouds' ∧
      Shown m DeviceId clouds' (Function.update cs view ((cs view).puts vals)) := by
  obtain ⟨hget, hof⟩ := h view hview
  obtain ⟨clouds', heq, hlook⟩ := Hilink.modSvcs_eq hget fun v hv => by
    rw [hof.length_eq]
    exact hvals v hv
  refine ⟨clouds', heq, fun view' hview' => ?_⟩
  rw [hlook]
  by_cases hsame : view' = view
  · subst hsame
    rw [update_self, update_self]
    exact ⟨rfl, hof.puts vals⟩
  · rw [update_of_ne hsame,
      update_of_ne fun heq => hsame (snOf_inj hview' hview heq)]
    exact h view' hview'

/-! ## The panel -/

section

variable (charSigned)
variable {index_sub : Option Nat}

theorem viewVals_fst (dev : DevHY0134) (j : Fin 3) (index_sub : Option Nat) :
    ((dev.viewVals charSigned j index_sub).1.map Prod.fst).Nodup ∧
      ∀ v ∈ (dev.viewVals charSigned j index_sub).1, v.1 < (cloudAttr (9 + j)).length := by
  match j with
  | 0 =>
    simp only [viewVals]
    split <;> simp [cloudAttr]
  | 1 =>
    simp only [viewVals]
    split <;> simp [cloudAttr]
  | 2 =>
    simp only [viewVals]
    split <;> simp [cloudAttr]

theorem DevCloud.puts_append (c : DevCloud) (a b : List (Nat × SvcVal)) :
    c.puts (a ++ b) = (c.puts a).puts b :=
  foldl_append

/-- The views are there, and are written up to the one that ends it. -/
theorem Shown.getViews (h : Shown 8 DeviceId clouds cs) (dev : DevHY0134) (index : Nat)
    (index_sub : Option Nat) (js : List (Fin 3)) :
    ∃ clouds', dev.getViews charSigned index index_sub DeviceId js clouds = .ok clouds' ∧
      Shown 8 DeviceId clouds' fun view => (cs view).puts
        (((dev.reached charSigned index_sub js).filter (9 + ·.val = view)).flatMap
          fun j => (dev.viewVals charSigned j index_sub).1) := by
  induction js generalizing clouds cs with
  | nil => exact ⟨clouds, rfl, h⟩
  | cons j js ih =>
    have hmem : ∀ j : Fin 3, 9 + j.val ∈ viewsOf 8 := by decide
    obtain ⟨clouds₁, heq₁, h₁⟩ :=
      h.modSvcs_eq (hmem j) (viewVals_fst charSigned dev j index_sub).2
    rw [snOf_view] at heq₁
    have hsome : (listGetByIdCloud clouds (viewSn DeviceId j)).isSome := by
      rw [← snOf_view, (h _ (hmem j)).1]
      rfl
    have hcons (rest : List (Fin 3)) : (fun view => (cs view).puts
        (((j :: rest).filter (9 + ·.val = view)).flatMap
          fun j => (dev.viewVals charSigned j index_sub).1)) =
        fun view => (update cs (9 + j.val)
          ((cs (9 + j.val)).puts (dev.viewVals charSigned j index_sub).1) view).puts
          ((rest.filter (9 + ·.val = view)).flatMap
            fun j => (dev.viewVals charSigned j index_sub).1) := by
      funext view
      by_cases hview : 9 + j.val = view
      · subst hview
        rw [filter_cons_of_pos (by simp), flatMap_cons, DevCloud.puts_append,
          update_self]
      · rw [filter_cons_of_neg (by simpa using hview), update_of_ne (Ne.symm hview)]
    unfold getViews reached
    dsimp only
    rw [if_pos hsome, heq₁, ok_bind, hcons]
    split
    · exact ⟨clouds₁, rfl, h₁⟩
    · exact ih h₁

theorem reached_sublist (dev : DevHY0134) (index_sub : Option Nat) (js : List (Fin 3)) :
    (dev.reached charSigned index_sub js).Sublist js := by
  induction js with
  | nil => exact .slnil
  | cons j js ih =>
    rw [reached]
    refine .cons_cons j ?_
    split
    · exact nil_sublist js
    · exact ih

theorem writes_view (dev : DevHY0134) (hk : index_sub ≠ some 12 ∧ index_sub ≠ some 13) (j : Fin 3) :
    dev.writes charSigned index_sub (9 + j.val) =
      if j ∈ dev.reached charSigned index_sub (List.finRange 3) then
        (dev.viewVals charSigned j index_sub).1 else [] := by
  have hnd := (reached_sublist charSigned dev index_sub (List.finRange 3)).nodup
    (nodup_finRange 3)
  have hfilter : (dev.reached charSigned index_sub (List.finRange 3)).filter
      (9 + ·.val = 9 + j.val) = List.replicate
        (if j ∈ dev.reached charSigned index_sub (List.finRange 3) then 1 else 0) j := by
    rw [← List.Nodup.count hnd, ← filter_eq]
    exact filter_congr fun i _ => by simp [Fin.ext_iff]
  unfold writes
  rw [if_neg (by omega)]
  split
  next => exact absurd rfl hk.1
  next => exact absurd rfl hk.2
  next =>
    rw [hfilter]
    split
    · exact append_nil _
    · rfl

theorem DevHY0134.writes_of_not (dev : DevHY0134)
    (hk : ¬ (index_sub ≠ some 12 ∧ index_sub ≠ some 13)) (hview : view ≠ 8) :
    dev.writes charSigned index_sub view = [] := by
  unfold writes
  rw [if_neg hview]
  split
  · rfl
  · rfl
  next h₁ h₂ => exact absurd ⟨h₁, h₂⟩ hk

/-- What is written to a view stands within its services, at different positions. -/
theorem DevHY0134.writes_spec (dev : DevHY0134) (index_sub : Option Nat)
    (hview : view ∈ viewsOf 8) :
    ((dev.writes charSigned index_sub view).map Prod.fst).Nodup ∧
      ∀ v ∈ dev.writes charSigned index_sub view, v.1 < (cloudAttr view).length := by
  have hcases : ∀ view ∈ viewsOf 8, view = 8 ∨ ∃ j : Fin 3, view = 9 + j.val := by decide
  rcases hcases view hview with rfl | ⟨j, rfl⟩
  · unfold writes
    rw [if_pos rfl]
    split
    next => simp [cloudAttr]
    next =>
      rw [map_fst_nameVals]
      exact ⟨by decide, fun v hv => nameVals_lt hv⟩
    next =>
      rw [map_cons, map_fst_nameVals]
      refine ⟨show (List.range 7).Nodup from nodup_range, fun v hv => ?_⟩
      rcases mem_cons.mp hv with rfl | hv
      · exact Nat.succ_pos 6
      · exact nameVals_lt hv
  · by_cases hk : index_sub ≠ some 12 ∧ index_sub ≠ some 13
    · rw [writes_view charSigned dev hk]
      split
      · exact viewVals_fst charSigned dev j index_sub
      · exact ⟨nodup_nil, fun v hv => absurd hv not_mem_nil⟩
    · rw [dev.writes_of_not charSigned hk (by omega)]
      exact ⟨nodup_nil, fun v hv => absurd hv not_mem_nil⟩

theorem viewVals_noted (dev : DevHY0134) (j : Fin 3) (index_sub : Option Nat) :
    (noted dev).viewVals charSigned j index_sub = dev.viewVals charSigned j index_sub := rfl

theorem reached_noted (dev : DevHY0134) (index_sub : Option Nat) (js : List (Fin 3)) :
    (noted dev).reached charSigned index_sub js = dev.reached charSigned index_sub js := by
  induction js with
  | nil => rfl
  | cons j js ih => rw [reached, reached, ih, viewVals_noted]

theorem DevHY0134.after_of_ne (dev : DevHY0134) (hk : index_sub ≠ some 12 ∧ index_sub ≠ some 13) :
    dev.after index_sub = noted dev := by
  unfold after
  split
  next => exact absurd rfl hk.1
  next => exact absurd rfl hk.2
  next => rfl

theorem writes_panel (dev : DevHY0134) (hk : index_sub ≠ some 12 ∧ index_sub ≠ some 13) :
    dev.writes charSigned index_sub 8 =
      (0, intVal strNum (charVal charSigned dev.KeyFobValue)) :: (noted dev).nameVals := by
  unfold writes
  rw [if_pos rfl]
  split
  next => exact absurd rfl hk.1
  next => exact absurd rfl hk.2
  next => rfl

theorem getAttr_views (dev : DevHY0134) (index : Nat)
    (hk : index_sub ≠ some 12 ∧ index_sub ≠ some 13) (out : CText) (clouds : List DevCloud) :
    dev.getAttr charSigned index index_sub out clouds = (do
      let clouds ← modSvcs out (dev.writes charSigned index_sub 8) clouds
      let clouds ← (noted dev).getViews charSigned index index_sub out (List.finRange 3) clouds
      return (dev.after index_sub, clouds)) := by
  rw [writes_panel charSigned dev hk, modSvcs, foldlM_cons, bind_assoc]
  unfold getAttr
  split
  next => exact absurd rfl hk.1
  next => exact absurd rfl hk.2
  next =>
    rw [dev.after_of_ne hk]
    rfl

theorem Shown.getAttr (h : Shown 8 DeviceId clouds cs) (dev : DevHY0134) (index : Nat)
    (index_sub : Option Nat) :
    ∃ clouds', dev.getAttr charSigned index index_sub DeviceId clouds =
        .ok (dev.after index_sub, clouds') ∧
      Shown 8 DeviceId clouds' fun view =>
        (cs view).puts (dev.writes charSigned index_sub view) := by
  have hpanel : 8 ∈ viewsOf 8 := by decide
  obtain ⟨clouds₁, heq₁, h₁⟩ :=
    h.modSvcs_eq hpanel (dev.writes_spec charSigned index_sub hpanel).2
  rw [snOf_panel] at heq₁
  by_cases hk : index_sub ≠ some 12 ∧ index_sub ≠ some 13
  · obtain ⟨clouds', heq, h'⟩ :=
      h₁.getViews charSigned (noted dev) index index_sub (List.finRange 3)
    refine ⟨clouds', ?_, ?_⟩
    · rw [getAttr_views charSigned dev index hk, heq₁, ok_bind, heq]
      rfl
    · convert h' using 2 with view
      by_cases hview : view = 8
      · subst hview
        rw [update_self, filter_eq_nil_iff.mpr fun j _ => by simp; omega]
        rfl
      · rw [update_of_ne hview, reached_noted]
        unfold DevHY0134.writes
        rw [if_neg hview]
        split
        next => exact absurd rfl hk.1
        next => exact absurd rfl hk.2
        next => rfl
  · have hviews : (fun view => (cs view).puts (dev.writes charSigned index_sub view)) =
        update cs 8 ((cs 8).puts (dev.writes charSigned index_sub 8)) := by
      funext view
      by_cases hview : view = 8
      · rw [hview, update_self]
      · rw [update_of_ne hview, dev.writes_of_not charSigned hk hview]
        rfl
    rw [hviews]
    refine ⟨clouds₁, ?_, h₁⟩
    obtain rfl | rfl : index_sub = some 12 ∨ index_sub = some 13 := by
      by_contra hnot
      exact hk (not_or.mp hnot)
    · have hmod : modSvc DeviceId 0 (intVal strNum (charVal charSigned dev.KeyFobValue)) clouds =
          .ok clouds₁ := (bind_pure _).symm.trans heq₁
      rw [DevHY0134.getAttr, hmod]
      rfl
    · have hmod : modSvcs DeviceId (dev.withNames sceName).nameVals clouds = .ok clouds₁ := heq₁
      rw [DevHY0134.getAttr, hmod]
      rfl

end

/-! ## All devices -/

theorem length_vals_plain (charSigned : Bool) (hplain : m < 7) (hp : p.IsOf m) :
    (p.vals charSigned m).length = (cloudAttr m).length := by
  cases p with
  | hy0095 dev | hy0096 dev | hy0097 dev | d09223f dev | hy0121 dev | hy0122 dev | hy0107 dev =>
    obtain rfl := hp
    rfl
  | hy0093 dev =>
    obtain rfl := hp
    cases hplain.false
  | hy0134 dev => exact absurd hp.1 (by omega)

theorem updateVals_eq (vals : List SvcVal) (index_sub : Option Nat) (out : CText)
    (clouds : List DevCloud) :
    updateVals vals index_sub out clouds = modSvcs out (plainWrites vals index_sub) clouds := by
  cases index_sub with
  | none => rfl
  | some i =>
    rw [updateVals, plainWrites, bind_some]
    cases vals[i]? with
    | none => rfl
    | some v => exact (bind_pure _).symm

theorem plainWrites_spec (vals : List SvcVal) (index_sub : Option Nat) :
    ((plainWrites vals index_sub).map Prod.fst).Nodup ∧
      ∀ v ∈ plainWrites vals index_sub, vals[v.1]? = some v.2 := by
  unfold plainWrites
  split
  next v hv =>
    obtain ⟨i, rfl, hi⟩ := bind_eq_some_iff.mp hv
    obtain ⟨json, hjson, rfl⟩ := map_eq_some_iff.mp hi
    refine ⟨nodup_singleton i, fun w hw => ?_⟩
    obtain rfl := mem_singleton.mp hw
    exact hjson
  next =>
    rw [map_fst_places]
    exact ⟨nodup_range, fun v hv => mem_places.mp hv⟩

theorem isOf_cases (charSigned : Bool) (hm : m < 7 ∨ m = 8) (hp : p.IsOf m) :
    (m < 7 ∧ (∀ index_sub view, p.writes charSigned index_sub view =
      plainWrites (p.vals charSigned m) index_sub) ∧ ∀ index_sub, p.after index_sub = p) ∨
    m = 8 ∧ ∃ dev, p = .hy0134 dev := by
  rcases hm with hplain | rfl
  · left
    cases p with
    | hy0095 dev | hy0096 dev | hy0097 dev | d09223f dev | hy0121 dev | hy0122 dev | hy0107 dev =>
      exact ⟨hplain, fun _ _ => rfl, fun _ => rfl⟩
    | hy0093 dev =>
      obtain rfl := hp
      cases hplain.false
    | hy0134 dev => exact absurd hp.1 (by omega)
  · exact .inr ⟨rfl, eq_hy0134 le_rfl hp⟩

theorem Private.writes_spec (charSigned : Bool) (hm : m < 7 ∨ m = 8) (hp : p.IsOf m)
    (index_sub : Option Nat) (hview : view ∈ viewsOf m) :
    ((p.writes charSigned index_sub view).map Prod.fst).Nodup ∧
      ∀ v ∈ p.writes charSigned index_sub view, v.1 < (cloudAttr view).length := by
  rcases isOf_cases charSigned hm hp with ⟨hplain, hwrites, -⟩ | ⟨rfl, dev, rfl⟩
  · rw [viewsOf, if_pos (by omega)] at hview
    obtain rfl := mem_singleton.mp hview
    rw [hwrites]
    obtain ⟨hnd, hvals⟩ := plainWrites_spec (p.vals charSigned view) index_sub
    refine ⟨hnd, fun v hv => ?_⟩
    rw [← length_vals_plain charSigned hplain hp]
    exact (List.getElem?_eq_some_iff.mp (hvals v hv)).1
  · exact dev.writes_spec charSigned index_sub hview

theorem Shown.cloudGetAttr (charSigned : Bool) (hm : m < 7 ∨ m = 8) (hp : p.IsOf m)
    (h : Shown m DeviceId clouds cs) (index : Nat) (index_sub : Option Nat) :
    ∃ clouds', Hilink.cloudGetAttr charSigned p index index_sub DeviceId clouds =
        .ok (p.after index_sub, clouds') ∧
      Shown m DeviceId clouds' fun view => (cs view).puts (p.writes charSigned index_sub view) := by
  rcases isOf_cases charSigned hm hp with ⟨hplain, hwrites, hafter⟩ | ⟨rfl, dev, rfl⟩
  · have hviews : viewsOf m = [m] := by rw [viewsOf, if_pos (by omega)]
    have hview : m ∈ viewsOf m := hviews ▸ mem_singleton_self m
    obtain ⟨clouds', heq, h'⟩ :=
      h.modSvcs_eq hview (p.writes_spec charSigned (.inl hplain) hp index_sub hview).2
    refine ⟨clouds', ?_, fun view hview => ?_⟩
    · have hsn : snOf m DeviceId = DeviceId := by rw [snOf, if_pos (by omega)]
      rw [hsn, hwrites] at heq
      rw [cloudGetAttr_plain hplain hp, updateVals_eq, heq, hafter]
      rfl
    · rw [hviews] at hview
      obtain rfl := mem_singleton.mp hview
      have hself := h' view (hviews ▸ mem_singleton_self view)
      rwa [update_self] at hself
  · obtain ⟨clouds', heq, h'⟩ := h.getAttr charSigned dev index index_sub
    refine ⟨clouds', ?_, h'⟩
    rw [Hilink.cloudGetAttr, heq]
    rfl

end Honyar.Hilink
