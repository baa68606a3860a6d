import Honyar.LocalScene.Filing
import Honyar.LocalScene.Request

/-!
# What a gateway accepts

The requests that add conditions to a scene, seen from the texts the scene is
filed under: the gateway is simulated by a machine on these texts alone.
-/

namespace Honyar.LocalScene

open CText Shelf
open Option (bind_eq_bind bind_eq_some_iff bind_fun_none bind_none bind_some isSome_iff_exists
  isSome_some map_eq_some_iff map_none ne_none_iff_exists' some.inj some.injEq)
open List

variable {l : Logic} {k : Kind}

/-! ## The machine on texts -/

/-- The other type. -/
def Kind.other : Kind → Kind
  | .time => .event
  | .event => .time

/-- A request to add a condition that is filed under `key`. -/
structure CondReq where
  logic : Logic
  kind : Kind
  key : CText
  manual : Bool

/-- The text is filed for a condition of the type. -/
def Shelf.Has (K : Shelf) (k : Kind) (key : CText) : Prop := key ∈ K .or k ∨ key ∈ K .and k

instance (K : Shelf) (k : Kind) (key : CText) : Decidable (K.Has k key) :=
  inferInstanceAs (Decidable (_ ∨ _))

theorem Shelf.has_iff {K : Shelf} {key : CText} : K.Has k key ↔ ∃ l, key ∈ K l k := by
  constructor
  · rintro (h | h)
    · exact ⟨.or, h⟩
    · exact ⟨.and, h⟩
  · rintro ⟨l, h⟩
    cases l with
    | or => exact .inl h
    | and => exact .inr h

/-- A request is accepted: it changes the condition of its text, it sets the
manual trigger, or it finds room. -/
def Shelf.add (K : Shelf) (r : CondReq) : Option Shelf :=
  if K.Has r.kind.other r.key then none
  else if K.Has r.kind r.key then some K
  else if r.manual then some K
  else if (K r.logic r.kind).length < 1024 then some (K.put r.logic r.kind r.key)
  else none

theorem Shelf.add_other {K : Shelf} {r : CondReq} (h : K.Has r.kind.other r.key) :
    K.add r = none := if_pos h

theorem Shelf.add_has {K : Shelf} {r : CondReq} (hother : ¬ K.Has r.kind.other r.key)
    (h : K.Has r.kind r.key) : K.add r = some K := by
  rw [add, if_neg hother, if_pos h]

theorem Shelf.add_manual {K : Shelf} {r : CondReq} (hother : ¬ K.Has r.kind.other r.key)
    (h : r.manual = true) : K.add r = some K := by
  rw [add, if_neg hother, if_pos h]
  exact ite_self _

/-- Requests one after another. -/
def Shelf.addAll (K : Shelf) (rs : List CondReq) : Option Shelf := rs.foldlM Shelf.add K

/-- The texts of the requests that are filed for conditions of a type. -/
def reqKeys (k : Kind) (rs : List CondReq) : List CText :=
  (rs.filter fun r => r.kind = k ∧ r.manual = false).map CondReq.key

/-- Those of them that are new. -/
def Shelf.newKeys (K : Shelf) (k : Kind) (rs : List CondReq) : Finset CText :=
  (reqKeys k rs).toFinset.filter fun key => ¬ K.Has k key

/-- No request is filed under a text of the other type, be it there already or
asked for. -/
structure Shelf.Apart (K : Shelf) (rs : List CondReq) : Prop where
  filed : ∀ r ∈ rs, ¬ K.Has r.kind.other r.key
  asked : ∀ r ∈ rs, r.key ∉ reqKeys r.kind.other rs

section Shelf

variable {K K' : Shelf} {r : CondReq} {rs : List CondReq}

theorem mem_reqKeys {key : CText} :
    key ∈ reqKeys k rs ↔ ∃ r ∈ rs, r.kind = k ∧ r.manual = false ∧ r.key = key := by
  simp only [reqKeys, mem_map, mem_filter, decide_eq_true_eq, and_assoc]

theorem Kind.other_ne (k : Kind) : k.other ≠ k := by
  cases k <;> decide

theorem Kind.other_other (k : Kind) : k.other.other = k := by
  cases k <;> rfl

theorem Shelf.has_put {key key' : CText} {k' : Kind} :
    (K.put l k key).Has k' key' ↔ K.Has k' key' ∨ k' = k ∧ key' = key := by
  rw [has_iff, has_iff]
  constructor
  · rintro ⟨l', h⟩
    rw [put] at h
    split at h
    · rename_i heq
      rcases mem_cons.mp h with rfl | h
      · exact .inr ⟨heq.2, rfl⟩
      · exact .inl ⟨l', h⟩
    · exact .inl ⟨l', h⟩
  · rintro (⟨l', h⟩ | ⟨rfl, rfl⟩)
    · refine ⟨l', ?_⟩
      rw [put]
      split
      · exact mem_cons_of_mem _ h
      · exact h
    · refine ⟨l, ?_⟩
      rw [put, if_pos ⟨rfl, rfl⟩]
      exact mem_cons_self

theorem reqKeys_cons (k : Kind) (r : CondReq) (rs : List CondReq) :
    reqKeys k (r :: rs) =
      if r.kind = k ∧ r.manual = false then r.key :: reqKeys k rs else reqKeys k rs := by
  rw [reqKeys, filter_cons]
  by_cases h : r.kind = k ∧ r.manual = false
  · rw [if_pos (by simpa using h), if_pos h]
    rfl
  · rw [if_neg (by simpa using h), if_neg h]
    rfl

theorem Shelf.newKeys_cons_of_old (h : r.manual = true ∨ K.Has r.kind r.key) (k : Kind) :
    K.newKeys k (r :: rs) = K.newKeys k rs := by
  rw [newKeys, reqKeys_cons]
  split
  · rename_i hr
    obtain ⟨rfl, hm⟩ := hr
    have hold : K.Has r.kind r.key := by
      rcases h with hm' | h
      · rw [hm] at hm'
        cases hm'
      · exact h
    rw [toFinset_cons, Finset.filter_insert, if_neg (not_not.mpr hold)]
    rfl
  · rfl

theorem Shelf.card_newKeys_cons (hm : r.manual = false) (h : ¬ K.Has r.kind r.key) (l : Logic)
    (k : Kind) : (K.newKeys k (r :: rs)).card =
      ((K.put l r.kind r.key).newKeys k rs).card + if r.kind = k then 1 else 0 := by
  by_cases hk : r.kind = k
  · subst hk
    have hsplit : K.newKeys r.kind (r :: rs) =
        insert r.key ((K.put l r.kind r.key).newKeys r.kind rs) := by
      ext key
      simp only [newKeys, reqKeys_cons, hm, and_true, if_true, toFinset_cons,
        Finset.mem_filter, Finset.mem_insert, mem_toFinset, has_put, true_and, not_or]
      constructor
      · rintro ⟨rfl | hkey, hnot⟩
        · exact .inl rfl
        · by_cases heq : key = r.key
          · exact .inl heq
          · exact .inr ⟨hkey, hnot, heq⟩
      · rintro (rfl | ⟨hkey, hnot, -⟩)
        · exact ⟨.inl rfl, h⟩
        · exact ⟨.inr hkey, hnot⟩
    have hnot : r.key ∉ (K.put l r.kind r.key).newKeys r.kind rs := by
      simp [newKeys, has_put]
    rw [hsplit, Finset.card_insert_of_notMem hnot, if_pos rfl]
  · have hsame : K.newKeys k (r :: rs) = (K.put l r.kind r.key).newKeys k rs := by
      rw [newKeys, newKeys, reqKeys_cons, if_neg fun hr => hk hr.1]
      refine Finset.filter_congr fun key _ => ?_
      rw [has_put]
      have : ¬ (k = r.kind ∧ key = r.key) := fun hr => hk hr.1.symm
      simp [this]
    rw [hsame, if_neg hk]
    rfl

theorem Shelf.add_cases (h : K.add r = some K') : ¬ K.Has r.kind.other r.key ∧
    (K' = K ∧ (r.manual = true ∨ K.Has r.kind r.key) ∨
      K' = K.put r.logic r.kind r.key ∧ r.manual = false ∧ ¬ K.Has r.kind r.key ∧
        (K r.logic r.kind).length < 1024) := by
  rw [add] at h
  split at h
  · cases h
  rename_i hother
  refine ⟨hother, ?_⟩
  split at h
  · rename_i hself
    exact .inl ⟨(some.inj h).symm, .inr hself⟩
  rename_i hself
  split at h
  · rename_i hm
    exact .inl ⟨(some.inj h).symm, .inl hm⟩
  rename_i hm
  split at h
  · rename_i hlt
    exact .inr ⟨(some.inj h).symm, Bool.eq_false_iff.mpr hm, hself, hlt⟩
  · cases h

theorem Shelf.has_of_add (h : K.add r = some K') (k : Kind) (key : CText) :
    K'.Has k key ↔ K.Has k key ∨ k = r.kind ∧ key = r.key ∧ r.manual = false := by
  obtain ⟨-, ⟨rfl, hold⟩ | ⟨rfl, hm, -, -⟩⟩ := add_cases h
  · refine ⟨.inl, ?_⟩
    rintro (h | ⟨rfl, rfl, hm⟩)
    · exact h
    · rcases hold with hm' | h
      · rw [hm] at hm'
        cases hm'
      · exact h
  · rw [has_put]
    simp only [hm, and_true]

theorem Shelf.room_of_add (h : K.add r = some K') (k : Kind) (rs : List CondReq) :
    (K' r.logic k).length + (K'.newKeys k rs).card =
      (K r.logic k).length + (K.newKeys k (r :: rs)).card := by
  obtain ⟨-, ⟨rfl, hold⟩ | ⟨rfl, hm, hself, -⟩⟩ := add_cases h
  · rw [newKeys_cons_of_old hold]
  · rw [card_newKeys_cons hm hself r.logic, put]
    by_cases hk : k = r.kind
    · rw [if_pos ⟨rfl, hk⟩, if_pos hk.symm, length_cons]
      omega
    · rw [if_neg fun h => hk h.2, if_neg fun h => hk h.symm, Nat.add_zero]

theorem Shelf.length_of_add (h : K.add r = some K') (hroom : ∀ k, (K r.logic k).length ≤ 1024)
    (k : Kind) : (K' r.logic k).length ≤ 1024 := by
  obtain ⟨-, ⟨rfl, -⟩ | ⟨rfl, -, -, hlt⟩⟩ := add_cases h
  · exact hroom k
  · rw [put]
    split
    · rename_i hk
      rw [hk.2, length_cons]
      exact hlt
    · exact hroom k

theorem Shelf.other_of_add (h : K.add r = some K') (hl : l ≠ r.logic) (k : Kind) :
    K' l k = K l k := by
  obtain ⟨-, ⟨rfl, -⟩ | ⟨rfl, -⟩⟩ := add_cases h
  · rfl
  · rw [put, if_neg fun h => hl h.1]

theorem Shelf.add_eq_none (h : K.add r = none) (rs : List CondReq) : K.Has r.kind.other r.key ∨
    r.key ∈ K.newKeys r.kind (r :: rs) ∧ 1024 ≤ (K r.logic r.kind).length := by
  rw [add] at h
  split at h
  · rename_i hother
    exact .inl hother
  split at h
  · cases h
  rename_i hself
  split at h
  · cases h
  rename_i hm
  split at h
  · cases h
  · rename_i hlt
    refine .inr ⟨?_, Nat.le_of_not_lt hlt⟩
    simp [newKeys, reqKeys_cons, hself, hm]

/-- The manual triggers among the requests keep away from the texts of the other
type. -/
def Shelf.ManualApart (K : Shelf) (rs : List CondReq) : Prop :=
  ∀ r ∈ rs, r.manual = true → ¬ K.Has r.kind.other r.key ∧ r.key ∉ reqKeys r.kind.other rs

theorem Shelf.ManualApart.of_add (hman : K.ManualApart (r :: rs)) (h : K.add r = some K') :
    K'.ManualApart rs := by
  intro r' hr' hm'
  obtain ⟨hfiled, hasked⟩ := hman r' (mem_cons_of_mem _ hr') hm'
  rw [reqKeys_cons] at hasked
  rw [has_of_add h]
  split at hasked
  · rename_i hr
    rw [mem_cons, not_or] at hasked
    refine ⟨?_, hasked.2⟩
    rintro (h | ⟨-, hkey, -⟩)
    · exact hfiled h
    · exact hasked.1 hkey
  · rename_i hr
    refine ⟨?_, hasked⟩
    rintro (h | ⟨hk, -, hm⟩)
    · exact hfiled h
    · exact hr ⟨hk.symm, hm⟩

theorem Shelf.apart_cons_iff (h : K.add r = some K') (hman : K.ManualApart (r :: rs)) :
    K.Apart (r :: rs) ↔ K'.Apart rs := by
  have hother := (add_cases h).1
  have hmanual := hman r mem_cons_self
  have hhas := has_of_add h
  constructor
  · rintro ⟨hfiled, hasked⟩
    refine ⟨fun r' hr' => ?_, fun r' hr' hmem => ?_⟩
    · have hr := hasked r' (mem_cons_of_mem _ hr')
      rw [hhas]
      rintro (h | ⟨hk, hkey, hm⟩)
      · exact hfiled r' (mem_cons_of_mem _ hr') h
      · rw [reqKeys_cons, if_pos ⟨hk.symm, hm⟩] at hr
        exact hr (hkey ▸ mem_cons_self)
    · obtain ⟨r'', hr'', hrest⟩ := mem_reqKeys.mp hmem
      exact hasked r' (mem_cons_of_mem _ hr')
        (mem_reqKeys.mpr ⟨r'', mem_cons_of_mem _ hr'', hrest⟩)
  · rintro ⟨hfiled, hasked⟩
    refine ⟨fun r' hr' => ?_, fun r' hr' hmem => ?_⟩
    · rcases mem_cons.mp hr' with rfl | hr'
      · exact hother
      · exact fun h => hfiled r' hr' ((hhas _ _).mpr (.inl h))
    · obtain ⟨r'', hr'', hk, hm, hkey⟩ := mem_reqKeys.mp hmem
      rcases mem_cons.mp hr' with rfl | hin
      · rcases mem_cons.mp hr'' with rfl | hin'
        · exact Kind.other_ne _ hk.symm
        by_cases hm' : r'.manual = true
        · exact (hmanual hm').2 hmem
        · refine hfiled r'' hin' ((hhas _ _).mpr (.inr ⟨?_, hkey, Bool.eq_false_iff.mpr hm'⟩))
          rw [hk, Kind.other_other]
      · rcases mem_cons.mp hr'' with rfl | hin'
        · exact hfiled r' hin ((hhas _ _).mpr (.inr ⟨hk.symm, hkey.symm, hm⟩))
        · exact hasked r' hin (mem_reqKeys.mpr ⟨r'', hin', hk, hm, hkey⟩)

theorem Shelf.addAll_cons : K.addAll (r :: rs) = (K.add r).bind fun K => K.addAll rs :=
  foldlM_cons

/-- Requests for the lists of one logic are accepted exactly when their texts keep
apart and there is room for the new ones. -/
theorem Shelf.addAll_isSome_iff (hlogic : ∀ r ∈ rs, r.logic = l) (hman : K.ManualApart rs)
    (hroom : ∀ k, (K l k).length ≤ 1024) : (K.addAll rs).isSome ↔
      K.Apart rs ∧ ∀ k, (K l k).length + (K.newKeys k rs).card ≤ 1024 := by
  induction rs generalizing K with
  | nil =>
    refine iff_of_true rfl ⟨⟨by simp, by simp⟩, fun k => ?_⟩
    simpa [newKeys, reqKeys] using hroom k
  | cons r rs ih =>
    obtain rfl := hlogic r mem_cons_self
    rw [addAll_cons]
    cases hadd : K.add r with
    | none =>
      refine iff_of_false (by simp) ?_
      rintro ⟨hapart, hle⟩
      rcases add_eq_none hadd rs with hother | ⟨hnew, hfull⟩
      · exact hapart.filed r mem_cons_self hother
      · have hpos := Finset.card_pos.mpr ⟨_, hnew⟩
        have := hle r.kind
        omega
    | some K' =>
      rw [bind_some, apart_cons_iff hadd hman,
        ih (fun r' hr' => hlogic r' (mem_cons_of_mem _ hr')) (hman.of_add hadd)
          (length_of_add hadd hroom)]
      simp only [room_of_add hadd]

theorem Shelf.has_of_addAll (h : K.addAll rs = some K') (k : Kind) (key : CText) :
    K'.Has k key ↔ K.Has k key ∨ key ∈ reqKeys k rs := by
  induction rs generalizing K with
  | nil =>
    obtain rfl := some.inj h
    simp [reqKeys]
  | cons r rs ih =>
    rw [addAll_cons, bind_eq_some_iff] at h
    obtain ⟨K₁, hadd, h⟩ := h
    rw [ih h, has_of_add hadd, reqKeys_cons, or_assoc]
    refine or_congr_right ?_
    split
    · rename_i hr
      rw [mem_cons]
      simp [hr.1, hr.2]
    · rename_i hr
      refine ⟨?_, .inr⟩
      rintro (⟨hk, -, hm⟩ | h)
      · exact absurd ⟨hk.symm, hm⟩ hr
      · exact h

theorem Shelf.other_of_addAll {l' : Logic} (hlogic : ∀ r ∈ rs, r.logic = l) (hne : l' ≠ l)
    (h : K.addAll rs = some K') (k : Kind) : K' l' k = K l' k := by
  induction rs generalizing K with
  | nil =>
    obtain rfl := some.inj h
    rfl
  | cons r rs ih =>
    obtain rfl := hlogic r mem_cons_self
    rw [addAll_cons, bind_eq_some_iff] at h
    obtain ⟨K₁, hadd, h⟩ := h
    rw [ih (fun r' hr' => hlogic r' (mem_cons_of_mem _ hr')) h, other_of_add hadd hne]

/-- A shelf with nothing on it. -/
def Shelf.empty : Shelf := fun _ _ => []

theorem Shelf.not_has_empty {key : CText} : ¬ Shelf.empty.Has k key := by
  rintro (h | h) <;> cases h

theorem Shelf.newKeys_empty : Shelf.empty.newKeys k rs = (reqKeys k rs).toFinset := by
  rw [newKeys, Finset.filter_true_of_mem]
  exact fun _ _ => not_has_empty

/-- Requests for the Or lists and then for the And lists, on an empty shelf. -/
theorem Shelf.addAll_empty_isSome_iff {rs rs' : List CondReq} (hor : ∀ r ∈ rs, r.logic = .or)
    (hand : ∀ r ∈ rs', r.logic = .and)
    (hman : ∀ r ∈ rs, r.manual = true → r.key ∉ reqKeys r.kind.other rs)
    (hman' : ∀ r ∈ rs', r.manual = false) : (Shelf.empty.addAll (rs ++ rs')).isSome ↔
      (∀ r ∈ rs, r.key ∉ reqKeys r.kind.other rs) ∧
        (∀ k, (reqKeys k rs).toFinset.card ≤ 1024) ∧
        (∀ r ∈ rs', r.key ∉ reqKeys r.kind.other rs ∧ r.key ∉ reqKeys r.kind.other rs') ∧
        ∀ k, ((reqKeys k rs').toFinset \ (reqKeys k rs).toFinset).card ≤ 1024 := by
  have hlen : ∀ l k, (empty l k).length = 0 := fun _ _ => rfl
  have hfirst := addAll_isSome_iff (K := .empty) hor
    (fun r hr hm => ⟨not_has_empty, hman r hr hm⟩) (fun k => Nat.zero_le 1024)
  have hapart : empty.Apart rs ↔ ∀ r ∈ rs, r.key ∉ reqKeys r.kind.other rs :=
    ⟨fun h => h.asked, fun h => ⟨fun _ _ => not_has_empty, h⟩⟩
  simp only [hlen, newKeys_empty, Nat.zero_add, hapart] at hfirst
  rw [addAll, foldlM_append]
  show ((empty.addAll rs).bind fun K => K.addAll rs').isSome ↔ _
  rw [← and_assoc, ← hfirst]
  cases hK : empty.addAll rs with
  | none => simp
  | some K =>
    have hhas := has_of_addAll hK
    have hand' : ∀ k, (K .and k).length = 0 := by
      intro k
      rw [other_of_addAll hor (by simp) hK]
      rfl
    have hhas' : ∀ k key, K.Has k key ↔ key ∈ reqKeys k rs := by
      intro k key
      rw [hhas, or_iff_right not_has_empty]
    have hnew : ∀ k, K.newKeys k rs' = (reqKeys k rs').toFinset \ (reqKeys k rs).toFinset := by
      intro k
      ext key
      simp [newKeys, hhas']
    have hsecond := addAll_isSome_iff (K := K) hand
      (fun r hr hm => by rw [hman' r hr] at hm; cases hm)
      (fun k => by rw [hand']; exact Nat.zero_le 1024)
    have hapart' : K.Apart rs' ↔
        ∀ r ∈ rs', r.key ∉ reqKeys r.kind.other rs ∧ r.key ∉ reqKeys r.kind.other rs' := by
      constructor
      · rintro ⟨hfiled, hasked⟩ r hr
        exact ⟨fun h => hfiled r hr ((hhas' _ _).mpr h), hasked r hr⟩
      · intro h
        exact ⟨fun r hr hmem => (h r hr).1 ((hhas' _ _).mp hmem), fun r hr => (h r hr).2⟩
    rw [bind_some, hsecond, hapart']
    simp only [hand', hnew, Nat.zero_add, isSome_some, true_and]

end Shelf

/-! ## Objects that are requests -/

/-- The fields of a time condition are there, and fit. -/
def AsksTime (pstData : Json) (key : CText) : Prop :=
  ∃ c, readTimeCond pstData = some c ∧ c.acTriggerType.length ≤ triggerTypeMaxLen ∧
    c.acTriggerInterval.length ≤ triggerIntervalMaxLen ∧ timeHashKey c.acTimeKey = key

/-- The fields of an event condition are there. -/
def AsksEvent (pstData : Json) (l : Logic) (key : CText) (manual : Bool) : Prop :=
  ∃ c, readEventId pstData = some c ∧ (∀ d, (readEventCond d pstData).isSome) ∧
    eventHashKey c.acDevId c.acKey = key ∧ Cond.isManual (k := .event) l c = manual

/-- The object asks the scene `acSceneId` for an addition, and carries every field
this needs. -/
structure Asks (pstData : Json) (acSceneId : CText) (r : CondReq) : Prop where
  op : readField "Op" operationMaxLen pstData = some Operation.addCond.text
  id : readField "Id" indexMaxLen pstData = some acSceneId
  logic : ∃ t, readField "Logic" logicMaxLen pstData = some t ∧ logicOf t = some r.logic
  fields : match r.kind with
    | .time => readField "CondType" typeMaxLen pstData = some "Time".toList ∧
        AsksTime pstData r.key ∧ r.manual = false
    | .event => readField "CondType" typeMaxLen pstData = some "Event".toList ∧
        AsksEvent pstData r.logic r.key r.manual

theorem addLogic_eq {x : SceneList} {a : Nat} {t : CText} (ht : logicOf t = some l) (c : Cond k) :
    addLogic x a t c = (sceneCondAdd x a l c).map fun r => (r.1, .engine r.2) := by
  rw [addLogic, ht]

theorem readEventCond_identity {c d : EventCond} {pstData : Json}
    (h : readEventCond c pstData = some d) : d.acDevId = c.acDevId ∧ d.acKey = c.acKey := by
  simp only [readEventCond, bind_eq_bind, bind_eq_some_iff, Option.pure_def,
    some.injEq] at h
  obtain ⟨v, -, w, -, rfl⟩ := h
  exact ⟨rfl, rfl⟩

/-! ## The gateway on texts -/

theorem Indexed.sceneListGet_eq {x : SceneList} {a : Nat} {s : SceneInfo} (hx : Indexed x)
    (hs : x.scene? a = some s) {pcSceneId : CText}
    (hid : s.acSceneId.take indexMaxLen = pcSceneId.take indexMaxLen) :
    sceneListGet x pcSceneId = some a := by
  have hmem := SceneList.mem_of_scene? hs
  have hsame : ∀ m : SceneNode, strncmpEq indexMaxLen m.stSceneInfo.acSceneId
      (strncpy indexMaxLen pcSceneId) = true ↔
        m.stSceneInfo.acSceneId.take indexMaxLen = pcSceneId.take indexMaxLen := by
    intro m
    rw [strncmpEq_iff, strncpy, take_take, min_self]
  rw [sceneListGet, map_eq_some_iff]
  cases hfind : x.stList.find? fun m => strncmpEq indexMaxLen m.stSceneInfo.acSceneId
      (strncpy indexMaxLen pcSceneId) with
  | none => exact absurd ((hsame _).mpr hid) (find?_eq_none.mp hfind _ hmem)
  | some m =>
    have hm := mem_of_find?_eq_some hfind
    have hmid := (hsame m).mp (by simpa using find?_some hfind)
    rw [Keyed.eq_of_key_eq hx.ids hm hmem (hmid.trans hid.symm)]
    exact ⟨_, rfl, rfl⟩

namespace Shelved

variable {U : CText → Prop} {a : Nat} {K : Shelf} {x : SceneList} {s : SceneInfo}

/-- What `addLogic` answers, and what it leaves of the texts. -/
def Simulates (U : CText → Prop) (a : Nat) (s : SceneInfo) (K? : Option Shelf)
    (r : Option (SceneList × Answer)) : Prop :=
  (K? = none ∧ ∀ x', r ≠ some (x', .engine .noErr)) ∨
    ∃ x' s' K', K? = some K' ∧ r = some (x', .engine .noErr) ∧ s'.acSceneId = s.acSceneId ∧
      Shelved U a K' x' s'

theorem simulates_add (h : Shelved U a K x s) {c : Cond k} (hm : c.isManual l = false)
    (hU : U c.hashKey) {t : CText} (ht : logicOf t = some l) :
    Simulates U a s (K.add ⟨l, k, c.hashKey, false⟩) (addLogic x a t c) := by
  rw [add, addLogic_eq ht]
  by_cases hother : K.Has k.other c.hashKey
  · obtain ⟨l', hl'⟩ := has_iff.mp hother
    have hk : k.other ≠ k := by cases k <;> decide
    rw [if_pos hother, h.add_other hm hk hl']
    exact .inl ⟨rfl, fun x' h => by cases h⟩
  rw [if_neg hother]
  by_cases hself : K.Has k c.hashKey
  · obtain ⟨l', hl'⟩ := has_iff.mp hself
    obtain ⟨x', s', hadd, hid, hx'⟩ := h.add_found hm hl'
    rw [if_pos hself, hadd]
    exact .inr ⟨x', s', K, rfl, rfl, hid, hx'⟩
  rw [if_neg hself, if_neg (by simp)]
  have hnew : ∀ l' k', c.hashKey ∉ K l' k' := by
    intro l' k' hmem
    by_cases hk : k' = k
    · subst hk
      exact hself (has_iff.mpr ⟨l', hmem⟩)
    · have hk' : k' = k.other := by cases k <;> cases k' <;> simp_all [Kind.other]
      subst hk'
      exact hother (has_iff.mpr ⟨l', hmem⟩)
  by_cases hroom : (K l k).length < 1024
  · obtain ⟨x', s', hadd, hid, hx'⟩ := h.add_new hm hU hnew hroom
    rw [if_pos hroom, hadd]
    exact .inr ⟨x', s', _, rfl, rfl, hid, hx'⟩
  · obtain ⟨x', hadd⟩ := h.add_full hm hU hnew hroom
    rw [if_neg hroom, hadd]
    refine .inl ⟨rfl, fun x'' h => ?_⟩
    simp at h

theorem simulates_manual (h : Shelved U a K x s) {c : Cond k} (hm : c.isManual l = true)
    {t : CText} (ht : logicOf t = some l) : Simulates U a s (some K) (addLogic x a t c) := by
  obtain ⟨x', s', hadd, hid, hx'⟩ := h.add_manual hm
  rw [addLogic_eq ht, hadd]
  exact .inr ⟨x', s', K, rfl, rfl, hid, hx'⟩

theorem eventCondGet_cases (h : Shelved U a K x s) {c : EventCond}
    (hU : U (eventHashKey c.acDevId c.acKey)) :
    (K.Has .time (eventHashKey c.acDevId c.acKey) ∧ eventCondGet x s c = none) ∨
      (¬ K.Has .time (eventHashKey c.acDevId c.acKey) ∧
        K.Has .event (eventHashKey c.acDevId c.acKey) ∧ ∃ d, eventCondGet x s c = some d ∧
          eventHashKey d.acDevId d.acKey = eventHashKey c.acDevId c.acKey) ∨
      (¬ K.Has .time (eventHashKey c.acDevId c.acKey) ∧
        ¬ K.Has .event (eventHashKey c.acDevId c.acKey) ∧ eventCondGet x s c = some c) := by
  by_cases htime : K.Has .time (eventHashKey c.acDevId c.acKey)
  · obtain ⟨l', hl'⟩ := has_iff.mp htime
    obtain ⟨e, p, d, hfind, -, het, -⟩ := h.find hl'
    refine .inl ⟨htime, ?_⟩
    rw [eventCondGet, hfind]
    simp [PtrNode.condPtr?, het]
  by_cases hevent : K.Has .event (eventHashKey c.acDevId c.acKey)
  · obtain ⟨l', hl'⟩ := has_iff.mp hevent
    obtain ⟨e, p, d, hfind, hea, het, hd, hkey⟩ := h.find hl'
    refine .inr (.inl ⟨htime, hevent, d.stCond, ?_, hkey⟩)
    simp only [eventCondGet, hfind, condPtr?_of_target het, hea, h.scene, hd,
      bind_eq_bind, bind_some, Option.pure_def]
  · have hnew : ∀ l' k', eventHashKey c.acDevId c.acKey ∉ K l' k' := by
      intro l' k' hmem
      cases k' with
      | time => exact htime (has_iff.mpr ⟨l', hmem⟩)
      | event => exact hevent (has_iff.mpr ⟨l', hmem⟩)
    refine .inr (.inr ⟨htime, hevent, ?_⟩)
    rw [eventCondGet, h.free _ hU hnew]

end Shelved

namespace Asks

open Shelved

variable {U : CText → Prop} {a : Nat} {K : Shelf} {x : SceneList} {s : SceneInfo} {pstData : Json}
  {acSceneId key : CText} {manual : Bool} {r : CondReq}

theorem time_eq (hasks : Asks pstData acSceneId ⟨l, .time, key, manual⟩)
    (hget : sceneListGet x acSceneId = some a) :
    ∃ (t : CText) (c : TimeCond), logicOf t = some l ∧ timeHashKey c.acTimeKey = key ∧
      manual = false ∧ hySceneAddCond x pstData = addLogic (k := .time) x a t c := by
  obtain ⟨-, hidField, ⟨t, htField, ht⟩, htype, ⟨c, hc, htrig, hint, hkey⟩, hm⟩ := hasks
  refine ⟨t, c, ht, hkey, hm, ?_⟩
  simp only [hySceneAddCond, hidField, hget, htField, htype, hc]
  rw [if_pos (by decide), if_pos ⟨htrig, hint⟩]

theorem event_eq (hasks : Asks pstData acSceneId ⟨l, .event, key, manual⟩)
    (hget : sceneListGet x acSceneId = some a) (hs : x.scene? a = some s) :
    ∃ (t : CText) (c : EventCond), logicOf t = some l ∧ eventHashKey c.acDevId c.acKey = key ∧
      Cond.isManual (k := .event) l c = manual ∧ (∀ d, (readEventCond d pstData).isSome) ∧
        hySceneAddCond x pstData = (eventCondGet x s c).bind fun d =>
          match readEventCond d pstData with
          | none => some (x, .jsonFormatErr)
          | some d => addLogic (k := .event) x a t d := by
  obtain ⟨-, hidField, ⟨t, htField, ht⟩, htype, c, hc, hread, hkey, hm⟩ := hasks
  refine ⟨t, c, ht, hkey, hm, hread, ?_⟩
  simp only [hySceneAddCond, hidField, hget, htField, htype, hc, hs, bind_eq_bind,
    bind_some, Option.pure_def]
  rw [if_neg (by decide)]
  exact (if_pos (by decide)).trans rfl

theorem simulates (hasks : Asks pstData acSceneId r) (h : Shelved U a K x s)
    (hid : s.acSceneId.take indexMaxLen = acSceneId.take indexMaxLen) (hU : U r.key) :
    Simulates U a s (K.add r) (hySceneAddCond x pstData) := by
  have hget := h.indexed.sceneListGet_eq h.scene hid
  obtain ⟨l, k, key, manual⟩ := r
  cases k with
  | time =>
    obtain ⟨t, c, ht, rfl, rfl, heq⟩ := hasks.time_eq hget
    rw [heq]
    exact h.simulates_add (k := .time) (c := c) rfl hU ht
  | event =>
    obtain ⟨t, c, ht, rfl, hm, hread, heq⟩ := hasks.event_eq hget h.scene
    rw [heq]
    rcases h.eventCondGet_cases hU with ⟨htime, hnone⟩ | ⟨htime, hevent, d, hd, hdkey⟩ |
      ⟨htime, hevent, hsome⟩
    · rw [hnone, add_other htime]
      exact .inl ⟨rfl, fun x' h => by cases h⟩
    · obtain ⟨d', hd'⟩ := isSome_iff_exists.mp (hread d)
      obtain ⟨hdev, hk⟩ := readEventCond_identity hd'
      have hkey' : Cond.hashKey (k := .event) d' = eventHashKey c.acDevId c.acKey := by
        rw [← hdkey, ← hdev, ← hk]
        rfl
      rw [hd, bind_some, hd', add_has htime hevent]
      cases hman : Cond.isManual (k := .event) l d' with
      | true => exact h.simulates_manual hman ht
      | false =>
        have := h.simulates_add (k := .event) hman (by rw [hkey']; exact hU) ht
        rwa [hkey', add_has htime hevent] at this
    · obtain ⟨c', hc'⟩ := isSome_iff_exists.mp (hread c)
      obtain ⟨hdev, hk⟩ := readEventCond_identity hc'
      have hkey' : Cond.hashKey (k := .event) c' = eventHashKey c.acDevId c.acKey := by
        rw [← hdev, ← hk]
        rfl
      have hsame : Cond.identity (k := .event) c' = Cond.identity (k := .event) c :=
        Prod.ext hdev hk
      have hman' : Cond.isManual (k := .event) l c' = manual :=
        (Cond.isManual_of_identity_eq hsame).trans hm
      rw [hsome, bind_some, hc']
      cases manual with
      | true =>
        rw [add_manual htime rfl]
        exact h.simulates_manual hman' ht
      | false =>
        have := h.simulates_add (k := .event) hman' (by rw [hkey']; exact hU) ht
        rwa [hkey'] at this

theorem stale_eq_none (hasks : Asks pstData acSceneId r) (h : Shelved U a K x s)
    (hid : s.acSceneId.take indexMaxLen = acSceneId.take indexMaxLen) (hU : ¬ U r.key) :
    hySceneAddCond x pstData = none := by
  have hget := h.indexed.sceneListGet_eq h.scene hid
  obtain ⟨l, k, key, manual⟩ := r
  cases k with
  | time =>
    obtain ⟨t, c, ht, rfl, rfl, heq⟩ := hasks.time_eq hget
    rw [heq, addLogic_eq ht, h.add_stale (k := .time) (c := c) rfl hU, map_none]
  | event =>
    obtain ⟨t, c, ht, rfl, hm, hread, heq⟩ := hasks.event_eq hget h.scene
    obtain ⟨e, hfind, hgone⟩ := h.scene?_of_stale hU
    -- the gateway looks the condition up before it knows that it is the manual trigger
    have hnone : eventCondGet x s c = none := by
      rw [eventCondGet, hfind]
      simp [hgone]
    rw [heq, hnone, bind_none]

end Asks

/-! ## Runs of the gateway -/

section Runs

variable {U : CText → Prop} {a : Nat} {K : Shelf} {g : Gateway} {s : SceneInfo} {pstData : Json}
  {acSceneId : CText} {r : CondReq}

theorem Gateway.acceptAll_cons (g : Gateway) (o : Json) (os : List Json) :
    g.acceptAll (o :: os) = (g.accept o).bind fun g => g.acceptAll os := foldlM_cons

theorem Gateway.acceptAll_append (g : Gateway) (os os' : List Json) :
    g.acceptAll (os ++ os') = (g.acceptAll os).bind fun g => g.acceptAll os' := foldlM_append

theorem Gateway.accept_of_mem {g g' : Gateway} {os : List Json} (h : g.acceptAll os = some g')
    {o : Json} (ho : o ∈ os) : ∃ g₁ g₂ : Gateway, g₁.accept o = some g₂ := by
  induction os generalizing g with
  | nil => cases ho
  | cons o' os ih =>
    rw [acceptAll_cons, bind_eq_some_iff] at h
    obtain ⟨g₁, h₁, h⟩ := h
    rcases mem_cons.mp ho with rfl | ho
    · exact ⟨g, g₁, h₁⟩
    · exact ih h ho

theorem Gateway.accept_addCond (hop : readField "Op" operationMaxLen pstData =
    some Operation.addCond.text) (g : Gateway) : g.accept pstData =
      (hySceneAddCond g.list pstData).bind fun r =>
        if r.2 = .engine .noErr then some { g with list := r.1 } else none := by
  have hhandle : g.handle pstData =
      (hySceneAddCond g.list pstData).map fun r => ({ g with list := r.1 }, r.2) := by
    rw [handle, hop]
    simp only [bind_eq_bind, bind_some]
    rw [if_neg (by decide), if_neg (by decide), if_pos (by decide)]
  rw [accept, hhandle]
  cases hySceneAddCond g.list pstData <;> rfl

theorem Gateway.accept_noWeek (hop : readField "Op" operationMaxLen pstData =
      some Operation.addCond.text)
    (htype : readField "CondType" typeMaxLen pstData = some "Time".toList)
    (hweek : readField "Week" weekMaxLen pstData = none) (g : Gateway) :
    g.accept pstData = none := by
  have htime : readTimeCond pstData = none := by
    simp only [readTimeCond, hweek, bind_eq_bind, bind_none, bind_fun_none]
  have hrefused : ∀ r, hySceneAddCond g.list pstData = some r → r.2 ≠ .engine .noErr := by
    intro r h
    have hsame : strncmpEq typeMaxLen "Time".toList "Time".toList = true := by decide
    simp only [hySceneAddCond, htype, htime] at h
    split at h
    · obtain rfl := some.inj h
      exact nofun
    split at h
    · obtain rfl := some.inj h
      exact fun h => by cases h
    split at h
    · rename_i acCondType _ hread
      obtain rfl := some.inj hread
      rw [if_pos hsame] at h
      obtain rfl := some.inj h
      exact nofun
    · obtain rfl := some.inj h
      exact nofun
  rw [g.accept_addCond hop]
  cases hadd : hySceneAddCond g.list pstData with
  | none => rfl
  | some r => rw [bind_some, if_neg (hrefused r hadd)]

/-- A request is accepted exactly when its text is free of what is gone, and the
texts accept it. -/
theorem Asks.accept (hasks : Asks pstData acSceneId r) (h : Shelved U a K g.list s)
    (hid : s.acSceneId.take indexMaxLen = acSceneId.take indexMaxLen) :
    (g.accept pstData = none ∧ (¬ U r.key ∨ K.add r = none)) ∨
      ∃ x' s' K', g.accept pstData = some { g with list := x' } ∧ U r.key ∧ K.add r = some K' ∧
        s'.acSceneId = s.acSceneId ∧ Shelved U a K' x' s' := by
  rw [g.accept_addCond hasks.op]
  by_cases hU : U r.key
  · rcases hasks.simulates h hid hU with ⟨hnone, hrefused⟩ | ⟨x', s', K', hK', heq, hid', hx'⟩
    · refine .inl ⟨?_, .inr hnone⟩
      cases hadd : hySceneAddCond g.list pstData with
      | none => rfl
      | some q =>
        obtain ⟨x', e⟩ := q
        have hbad : ¬ e = .engine .noErr := by
          rintro rfl
          exact hrefused x' hadd
        rw [bind_some, if_neg hbad]
    · refine .inr ⟨x', s', K', ?_, hU, hK', hid', hx'⟩
      rw [heq, bind_some, if_pos rfl]
  · refine .inl ⟨?_, .inl hU⟩
    rw [hasks.stale_eq_none h hid hU, bind_none]

theorem acceptAll_asks {os : List Json} {rs : List CondReq}
    (hasks : List.Forall₂ (fun o r => Asks o acSceneId r) os rs) (h : Shelved U a K g.list s)
    (hid : s.acSceneId.take indexMaxLen = acSceneId.take indexMaxLen) :
    (g.acceptAll os = none ∧ ((∃ r ∈ rs, ¬ U r.key) ∨ K.addAll rs = none)) ∨
      ∃ x' s' K', g.acceptAll os = some { g with list := x' } ∧ (∀ r ∈ rs, U r.key) ∧
        K.addAll rs = some K' ∧ s'.acSceneId = s.acSceneId ∧ Shelved U a K' x' s' := by
  induction hasks generalizing g K s with
  | nil => exact .inr ⟨g.list, s, K, rfl, by simp, rfl, rfl, h⟩
  | @cons o r os rs hr hrs ih =>
    rw [g.acceptAll_cons, addAll_cons]
    rcases hr.accept h hid with ⟨hnone, hwhy⟩ | ⟨x', s', K', haccept, hU, hadd, hid', hx'⟩
    · refine .inl ⟨by rw [hnone, bind_none], ?_⟩
      rcases hwhy with hU | hadd
      · exact .inl ⟨r, mem_cons_self, hU⟩
      · exact .inr (by rw [hadd, bind_none])
    · rw [haccept, hadd, bind_some, bind_some]
      rcases ih (g := { g with list := x' }) hx' (by rw [hid', hid]) with ⟨hnone, hwhy⟩ |
        ⟨x'', s'', K'', haccept', hU', hadd', hid'', hx''⟩
      · refine .inl ⟨hnone, hwhy.imp_left ?_⟩
        rintro ⟨r', hr', hU'⟩
        exact ⟨r', mem_cons_of_mem _ hr', hU'⟩
      · refine .inr ⟨x'', s'', K'', haccept', ?_, hadd', hid''.trans hid', hx''⟩
        intro r' hr'
        rcases mem_cons.mp hr' with rfl | hr'
        · exact hU
        · exact hU' r' hr'

/-- The object asks for a scene. -/
structure AsksScene (pstData : Json) (acSceneId : CText) : Prop where
  op : readField "Op" operationMaxLen pstData = some Operation.addScene.text
  id : readField "Id" indexMaxLen pstData = some acSceneId

/-- The object asks the scene for an action, and carries every field this needs. -/
structure AsksAction (pstData : Json) (acSceneId : CText) : Prop where
  op : readField "Op" operationMaxLen pstData = some Operation.addAction.text
  id : readField "Id" indexMaxLen pstData = some acSceneId
  fields : (readAction pstData).isSome

theorem shelved_sceneListAdd {x : SceneList} (hx : Indexed x) (i : SceneText)
    (hget : sceneListGet x i.acSceneId = none) :
    Shelved (fun key => ptrHashFind x.pHashTable key (i.acSceneId.take indexMaxLen) = none) x.heap
      (fun _ _ => []) (sceneListAdd x i) (.new i) where
  indexed := by
    have h := hySceneAdd_indexed (i := i) hx
    rwa [hySceneAdd, hget] at h
  scene := by simp [SceneList.scene?, sceneListAdd]
  keys l k := by cases l <;> cases k <;> exact List.Perm.refl []
  counts l k := by cases l <;> cases k <;> exact ⟨rfl, Nat.zero_le 32, by intro n hn; cases hn⟩
  free _ hU _ := hU
  stale key hU := by
    obtain ⟨e, he⟩ := ne_none_iff_exists'.mp hU
    exact ⟨e, he, (hx.owner _ (mem_of_ptrHashFind he).1).1.ne⟩

theorem AsksScene.accept (hasks : AsksScene pstData acSceneId) (hx : Indexed g.list)
    (hget : sceneListGet g.list acSceneId = none) :
    ∃ x' s' pstAction, g.accept pstData = some ⟨x', pstAction⟩ ∧
      s'.acSceneId = acSceneId.take indexMaxLen ∧
      Shelved (fun key => ptrHashFind g.list.pHashTable key (acSceneId.take indexMaxLen) = none)
        g.list.heap (fun _ _ => []) x' s' := by
  refine ⟨_, _, Function.update g.pstAction g.list.heap .new, ?_, ?_,
    shelved_sceneListAdd hx (readSceneText (newSceneText acSceneId) pstData) hget⟩
  · rw [Gateway.accept, Gateway.handle, hasks.op]
    simp only [bind_eq_bind, bind_some]
    rw [if_pos (by decide), Gateway.hySceneAdd, hasks.id]
    simp only [hget, bind_none, Option.pure_def, bind_some]
    rw [if_pos trivial, LocalScene.hySceneAdd]
    have hid : (readSceneText (newSceneText acSceneId) pstData).acSceneId = acSceneId := rfl
    rw [hid, hget]
  · rfl

theorem AsksAction.accept (hasks : AsksAction pstData acSceneId)
    (hget : sceneListGet g.list acSceneId = some a) :
    ∃ g', g.accept pstData = some g' ∧ g'.list = g.list := by
  obtain ⟨i, hi⟩ := isSome_iff_exists.mp hasks.fields
  refine ⟨{ g with pstAction :=
    Function.update g.pstAction a (actionListAdd (g.pstAction a) i) }, ?_, rfl⟩
  rw [Gateway.accept, Gateway.handle, hasks.op]
  simp only [bind_eq_bind, bind_some]
  rw [if_neg (by decide), if_pos (by decide), Gateway.hySceneAddAction, hasks.id]
  simp only [hget, hi, Option.pure_def, bind_some]
  rw [if_pos trivial]

theorem acceptAll_actions {os : List Json} (hasks : ∀ o ∈ os, AsksAction o acSceneId)
    (hget : sceneListGet g.list acSceneId = some a) : (g.acceptAll os).isSome := by
  induction os generalizing g with
  | nil => rfl
  | cons o os ih =>
    obtain ⟨g', hg', hlist⟩ := (hasks o mem_cons_self).accept hget
    rw [g.acceptAll_cons, hg', bind_some]
    exact ih (fun o' ho' => hasks o' (mem_cons_of_mem _ ho')) (by rw [hlist]; exact hget)

/-- A scene that does not exist yet, conditions and actions are all accepted exactly
when nothing is filed for the scene under their texts, and the texts accept them. -/
theorem acceptAll_isSome_iff {o : Json} {os os' : List Json} {rs : List CondReq}
    (hscene : AsksScene o acSceneId)
    (hasks : List.Forall₂ (fun o r => Asks o acSceneId r) os rs)
    (hactions : ∀ o ∈ os', AsksAction o acSceneId) (hx : Indexed g.list)
    (hget : sceneListGet g.list acSceneId = none) :
    (g.acceptAll (o :: (os ++ os'))).isSome ↔
      (∀ r ∈ rs, ptrHashFind g.list.pHashTable r.key (acSceneId.take indexMaxLen) = none) ∧
        (Shelf.empty.addAll rs).isSome := by
  obtain ⟨x', s', pstAction, haccept, hid, hshelved⟩ := hscene.accept hx hget
  have hid' : s'.acSceneId.take indexMaxLen = acSceneId.take indexMaxLen := by
    rw [hid, take_take, min_self]
  rw [g.acceptAll_cons, haccept, bind_some, Gateway.acceptAll_append]
  rcases acceptAll_asks (g := ⟨x', pstAction⟩) hasks hshelved hid' with ⟨hnone, hwhy⟩ |
    ⟨x'', s'', K, haccept', hU, hadd, hid'', hshelved'⟩
  · rw [hnone, bind_none]
    refine iff_of_false (by simp) ?_
    rintro ⟨hU, hadd⟩
    rcases hwhy with ⟨r, hr, hr'⟩ | hadd'
    · exact hr' (hU r hr)
    · have hempty : empty.addAll rs = none := hadd'
      rw [hempty] at hadd
      cases hadd
  · rw [haccept', bind_some]
    have hempty : empty.addAll rs = some K := hadd
    refine iff_of_true ?_ ⟨hU, by rw [hempty]; rfl⟩
    exact acceptAll_actions hactions
      (hshelved'.indexed.sceneListGet_eq hshelved'.scene (by rw [hid'', hid']))

end Runs

end Honyar.LocalScene
