import Honyar.LocalScene.Reach

/-!
# Where an addition puts its condition

Whether `cond_add` adds or changes is decided by the hash table, which files the
conditions of all four lists of a scene under their texts alone: the condition
it finds is changed where it stands.
-/

namespace Honyar.LocalScene

open CText Option List SceneInfo SceneList TimeCond

variable {l : Logic} {k : Kind}
variable {s' : SceneInfo} {p : CondPtr k}

/-! ## What an addition is to leave -/

/-- The fields a time condition is added with: not the running counter and the
mark of a condition that is over. -/
def TimeCond.passed (c : TimeCond) : TimeCond := { c with iTriggerInterval := 0, acLose := [] }

/-- The fields a condition is added with. -/
def Cond.passed : {k : Kind} → Cond k → Cond k
  | .time => TimeCond.passed
  | .event => fun c : EventCond => c

/-- The texts fit the arrays of `time_cond_t`. -/
structure TimeCond.Fits (c : TimeCond) : Prop where
  acTriggerType : c.acTriggerType.length ≤ triggerTypeMaxLen
  acTriggerInterval : c.acTriggerInterval.length ≤ triggerIntervalMaxLen
  acStartHour : c.acStartHour.length ≤ hourMaxLen
  acStartMinu : c.acStartMinu.length ≤ minuMaxLen
  acEndHour : c.acEndHour.length ≤ hourMaxLen
  acEndMinu : c.acEndMinu.length ≤ minuMaxLen
  acWeek : c.acWeek.length ≤ weekMaxLen
  acRepeat : c.acRepeat.length ≤ stateMaxLen

/-- The texts fit the arrays of `event_cond_t`. -/
structure EventCond.Fits (c : EventCond) : Prop where
  acTriggerType : c.acTriggerType.length ≤ triggerTypeMaxLen
  acContinueTime : c.acContinueTime.length ≤ continueTimeMaxLen
  acValue : c.acValue.length ≤ valueMaxLen
  acActive : c.acActive.length ≤ activeMaxLen
  acLastValue : c.acLastValue.length ≤ valueMaxLen

/-- The texts a change copies fit their arrays. -/
def Cond.Fits : {k : Kind} → Cond k → Prop
  | .time => TimeCond.Fits
  | .event => EventCond.Fits

/-- The two conditions have one identity: the time key, or the device and its
attribute. -/
def Cond.SameId : {k : Kind} → Cond k → Cond k → Prop
  | .time => fun c d : TimeCond => c.acTimeKey = d.acTimeKey
  | .event => fun c d : EventCond => c.acDevId = d.acDevId ∧ c.acKey = d.acKey

instance Cond.instDecidableSameId : {k : Kind} → (c d : Cond k) → Decidable (c.SameId d)
  | .time, c, d => inferInstanceAs (Decidable (TimeCond.acTimeKey c = TimeCond.acTimeKey d))
  | .event, c, d => inferInstanceAs (Decidable (EventCond.acDevId c = EventCond.acDevId d ∧
      EventCond.acKey c = EventCond.acKey d))

/-- The list holds a condition with the identity and the fields of `c`. -/
def CondList.Holds (x : CondList l k) (c : Cond k) : Prop :=
  ∃ n ∈ x.stList, ∃ d ∈ n.pstCond, d.stCond.passed = c.passed

/-- The condition is in the list it was addressed to, and the other three are
what they were. -/
structure AddStores (s s' : SceneInfo) (l : Logic) (c : Cond k) : Prop where
  holds : (s'.list l k).Holds c
  others : ∀ l' k', ¬ (l' = l ∧ k' = k) → s'.list l' k' = s.list l' k'

/-- Whatever is filed for the scene under the text of the condition is a
condition of the addressed list with the same identity. -/
def AddAimed (x : SceneList) (s : SceneInfo) (l : Logic) (c : Cond k) : Prop :=
  ∀ e, ptrHashFind x.pHashTable c.hashKey s.acSceneId = some e →
    ∃ p d, e.condPtr? k = some p ∧ p.acLogic = l ∧ s.node? p = some d ∧ d.stCond.SameId c

theorem Cond.passed_set_iff {c d : Cond k} (h : c.Fits) :
    (d.set c).passed = c.passed ↔ d.SameId c := by
  cases k with
  | time =>
    have h : TimeCond.Fits c := h
    show TimeCond.passed (TimeCond.set d c) = TimeCond.passed c ↔ _
    simp only [TimeCond.passed, TimeCond.set, strncpy, take_of_length_le h.acTriggerType,
      take_of_length_le h.acTriggerInterval, take_of_length_le h.acStartHour,
      take_of_length_le h.acStartMinu, take_of_length_le h.acEndHour,
      take_of_length_le h.acEndMinu, take_of_length_le h.acWeek,
      take_of_length_le h.acRepeat, TimeCond.mk.injEq, and_true, SameId]
  | event =>
    obtain ⟨acDevId, acKey, acTriggerType, acContinueTime, acValue, acActive, acLastValue⟩ := c
    have h : EventCond.Fits ⟨acDevId, acKey, acTriggerType, acContinueTime, acValue, acActive,
      acLastValue⟩ := h
    show EventCond.set d _ = _ ↔ _
    simp only [EventCond.set, strncpy, take_of_length_le h.acTriggerType,
      take_of_length_le h.acContinueTime, take_of_length_le h.acValue,
      take_of_length_le h.acActive, take_of_length_le h.acLastValue,
      passed, EventCond.mk.injEq, and_true, SameId]

theorem Cond.hashKey_of_passed_eq {c d : Cond k} (h : d.passed = c.passed) :
    d.hashKey = c.hashKey := by
  cases k with
  | time =>
    have h : passed d = passed c := h
    exact congrArg (fun c => timeHashKey c.acTimeKey) h
  | event =>
    have h : d = c := h
    rw [h]

/-! ## What an addition leaves -/

theorem list_condTrueInit_of_ne {s : SceneInfo} {b : Bool} (h : condTrueInit s p b = some s')
    {l' : Logic} {k' : Kind} (hne : ¬ (l' = p.acLogic ∧ k' = k)) :
    s'.list l' k' = s.list l' k' := by
  simp only [condTrueInit, bind_eq_bind, bind_eq_some_iff, Option.pure_def,
    some.injEq] at h
  obtain ⟨n, -, c, -, rfl⟩ := h
  rw [list_condSetTrueInit_of_ne _ _ _ hne, list_modifySet_of_ne _ _ _ hne]

theorem CondList.Holds.of_eraseTruth_eq {s : SceneInfo} {c : Cond k}
    (h : s'.eraseTruth = s.eraseTruth) (hs : (s.list l k).Holds c) : (s'.list l k).Holds c := by
  obtain ⟨n, hn, hd⟩ := hs
  have hlist := congrArg (fun r => (r.list l k).stList) h
  simp only [list_eraseTruth, CondList.eraseTruth] at hlist
  obtain ⟨m, hm, hmn⟩ := List.mem_map.mp (hlist.symm ▸ List.mem_map_of_mem hn)
  have hconds : m.eraseTruth.pstCond = n.eraseTruth.pstCond := congrArg CondSetNode.pstCond hmn
  exact ⟨m, hm, (show m.pstCond = n.pstCond from hconds) ▸ hd⟩

section

variable {x x' : SceneList} {a : Nat} {s : SceneInfo} {c : Cond k}
variable {e : PtrNode}

theorem Indexed.pstScene_eq (hx : Indexed x) (hs : x.scene? a = some s) {key : CText}
    (hfind : ptrHashFind x.pHashTable key s.acSceneId = some e) {t : SceneInfo}
    (ht : x.scene? e.pstScene = some t) : e.pstScene = a := by
  obtain ⟨he, hid⟩ := mem_of_ptrHashFind hfind
  have htm := mem_of_scene? ht
  have howner := (hx.owner _ he).2 _ htm rfl
  exact congrArg SceneNode.addr
    (Keyed.eq_of_key_eq hx.ids htm (mem_of_scene? hs) (howner.symm.trans hid))

/-- What working out the truth of the condition at `p` leaves of a scene. -/
structure TruthOnly (p : CondPtr k) (s s' : SceneInfo) : Prop where
  eraseTruth : s'.eraseTruth = s.eraseTruth
  others : ∀ l' k', ¬ (l' = p.acLogic ∧ k' = k) → s'.list l' k' = s.list l' k'

theorem truthOnly_of_sceneCondAdd {x₁ : SceneList} {s₁ : SceneInfo} (hs₁ : x₁.scene? a = some s₁)
    (hp : e.condPtr? k = some p) (ha : e.pstScene = a) (h : (∃ b, x₁.condTrueInit k e b = some x') ∨
      ∃ s₁, x₁.scene? a = some s₁ ∧ x' = x₁.setScene a (s₁.setListTrue l k false)) :
    ∃ s', x'.scene? a = some s' ∧ TruthOnly p s₁ s' := by
  rcases h with ⟨b, h⟩ | ⟨t, ht, rfl⟩
  · obtain ⟨s', hs', rfl⟩ := SceneList.condTrueInit_some hp (ha ▸ hs₁) h
    refine ⟨s', ?_, condTrueInit_eraseTruth hs', fun l' k' => list_condTrueInit_of_ne hs'⟩
    rw [ha]
    exact SceneList.scene?_setScene_self hs₁ _
  · obtain rfl := some.inj (hs₁.symm.trans ht)
    exact ⟨_, SceneList.scene?_setScene_self hs₁ _, eraseTruth_setListTrue ..,
      fun l' k' _ => list_setListTrue ..⟩

/-- A condition that was changed is in the addressed list, with the other lists
as they were, when it was there before under the same identity. -/
theorem addStores_changed_iff (hx : Indexed x) (hs : x.scene? a = some s) (hfits : c.Fits)
    {d : CondNode k} (hfind : ptrHashFind x.pHashTable c.hashKey s.acSceneId = some e)
    (hp : e.condPtr? k = some p) (hd : s.node? p = some d)
    (h : TruthOnly p (s.modifyCond p fun d => d.set c) s') :
    AddStores s s' l c ↔ p.acLogic = l ∧ d.stCond.SameId c := by
  have hmem := mem_of_scene? hs
  have hplaced := hx.placed _ hmem
  obtain ⟨he, hid⟩ := mem_of_ptrHashFind hfind
  have htarget := e.target_of_condPtr? hp
  constructor
  · intro hstores
    obtain ⟨n, hn, b, hb, hpassed⟩ :=
      CondList.Holds.of_eraseTruth_eq h.eraseTruth.symm hstores.holds
    -- the condition that is held has the text of `c`, and so has only the node found
    have hhas' : (s.modifyCond p fun d => d.set c).Has ⟨k, l, n.addr, b.addr⟩ c.hashKey :=
      ⟨n, hn, rfl, b, hb, rfl, Cond.hashKey_of_passed_eq hpassed⟩
    have hshrinks : s.Shrinks (s.modifyCond p fun d => d.set c) :=
      .modifyCond fun d _ => d.stCond.hashKey_set c
    obtain ⟨f, hf, hfa, hfp⟩ := hx.filed _ hmem _ _ (hshrinks.has hplaced hhas')
    have hsame := Keyed.eq_of_key_eq hx.unique hf he (by
      rw [filedAs, filedAs, hid, (hx.owner _ hf).2 _ hmem hfa.symm])
    rw [congrArg (fun g => g.2.target) hsame, htarget] at hfp
    cases hfp
    refine ⟨rfl, (Cond.passed_set_iff hfits).mp ?_⟩
    have hnode : (s.modifyCond ⟨l, n.addr, b.addr⟩ fun d => d.set c).node?
        ⟨l, n.addr, b.addr⟩ = some b := by
      have hchain := hshrinks.placed hplaced l k
      have hset : (s.modifyCond ⟨l, n.addr, b.addr⟩ fun d => d.set c).set? ⟨l, n.addr, b.addr⟩ =
          some n := (Keyed.find?_eq_some_iff hchain.addr).mpr ⟨hn, rfl⟩
      rw [node?, hset]
      exact (hchain.sets n hn).node?_eq_some.mpr ⟨hb, rfl⟩
    rw [node?_modifyCond_self, hd, map_some, some.injEq] at hnode
    rw [← hpassed, ← hnode]
  · rintro ⟨rfl, hsameId⟩
    refine ⟨CondList.Holds.of_eraseTruth_eq h.eraseTruth ?_, fun l' k' hne => ?_⟩
    · obtain ⟨n, hn, hna, hdn⟩ : ∃ n ∈ (s.list p.acLogic k).stList, n.addr = p.pCondSetNode ∧
          n.node? p.pCondNode = some d := by
        simp only [node?, bind_eq_bind, bind_eq_some_iff] at hd
        obtain ⟨n, hn, hd⟩ := hd
        obtain ⟨hn, hna⟩ := Keyed.mem_and_key_of_find? hn
        exact ⟨n, hn, hna, hd⟩
      obtain ⟨hdm, hda⟩ := Keyed.mem_and_key_of_find? hdn
      refine ⟨n.modifyNode p.pCondNode fun d => d.set c, ?_, { d with stCond := d.stCond.set c },
        ?_, (Cond.passed_set_iff hfits).mpr hsameId⟩
      · rw [modifyCond, list_modifySet_self]
        exact CondList.mem_modifySet.mpr (.inl ⟨n, hn, hna, rfl⟩)
      · exact CondSetNode.mem_modifyNode.mpr (.inl ⟨d, hdm, hda, rfl⟩)
    · rw [h.others l' k' hne, modifyCond, list_modifySet_of_ne _ _ _ hne]

theorem addStores_added (hx : Indexed x) (hs : x.scene? a = some s) {y : CondList l k}
    (hadd : (s.list l k).condAdd x.heap c = some (y, p)) (h : TruthOnly p (s.setList l k y) s') :
    AddStores s s' l c := by
  have hplaced := hx.placed _ (mem_of_scene? hs)
  obtain ⟨hl, ⟨n, hn, -, d, hd, -, hdc⟩, -⟩ := CondList.condAdd_has (hplaced l k) hadd
  refine ⟨CondList.Holds.of_eraseTruth_eq h.eraseTruth ?_, fun l' k' hne => ?_⟩
  · rw [list_setList_self]
    exact ⟨n, hn, d, hd, by rw [hdc]⟩
  · rw [h.others l' k' (by rw [hl]; exact hne), list_setList_of_ne _ _ hne]

/-- An addition that answers `NoErr` stores its condition exactly if it is aimed. -/
theorem addStores_iff (hx : Indexed x) (hs : x.scene? a = some s) (hfits : c.Fits)
    (hm : c.isManual l = false) (h : sceneCondAdd x a l c = some (x', .noErr)) :
    (∃ s', x'.scene? a = some s' ∧ AddStores s s' l c) ↔ AddAimed x s l c := by
  rcases sceneCondAdd_cases h with ⟨hm', -⟩ | ⟨-, x₁, e, hfile, ⟨hne, -⟩ | ⟨-, hrest⟩⟩
  · rw [hm] at hm'
    cases hm'
  · exact absurd rfl hne
  rcases fileCond_cases hs hfile with ⟨p, t, d, hfind, hp, ht, hd, -, rfl⟩ |
    ⟨z, p, hfind, hadd, -, rfl, rfl⟩ | ⟨-, -, herr, -, -⟩
  · have ha := hx.pstScene_eq hs hfind ht
    rw [ha] at ht
    obtain rfl := some.inj (hs.symm.trans ht)
    rw [ha] at hrest
    obtain ⟨s', hs', htruth⟩ :=
      truthOnly_of_sceneCondAdd (scene?_setScene_self hs _) hp ha hrest
    have hiff := addStores_changed_iff (l := l) hx hs hfits hfind hp hd htruth
    constructor
    · rintro ⟨s'', hs'', hstores⟩
      obtain rfl := some.inj (hs'.symm.trans hs'')
      intro e' he'
      obtain rfl := some.inj (hfind.symm.trans he')
      obtain ⟨hl, hid⟩ := hiff.mp hstores
      exact ⟨p, d, hp, hl, hd, hid⟩
    · intro haimed
      obtain ⟨p', d', hp', hl, hd', hid⟩ := haimed e hfind
      obtain rfl := some.inj (hp.symm.trans hp')
      obtain rfl := some.inj (hd.symm.trans hd')
      exact ⟨s', hs', hiff.mpr ⟨hl, hid⟩⟩
  · have hs₁ : (x.setScene a (s.setList l k z)).scene? a = some (s.setList l k z) :=
      scene?_setScene_self hs _
    obtain ⟨s', hs', htruth⟩ := truthOnly_of_sceneCondAdd (e := newPtrNode x a s _)
      (by exact hs₁) (PtrNode.condPtr?_cond x a s p) rfl hrest
    refine iff_of_true ⟨s', hs', addStores_added hx hs hadd htruth⟩ fun e' he' => ?_
    rw [hfind] at he'
    cases he'
  · cases herr

end

namespace Sample

/-- "The attribute `k` of the device `d` equals `1`". -/
def lamp : EventCond := eventCond ['k'] []

/-- The scene is added. -/
def emptyRun : List Act := [.sceneAdd text]

/-- The scene is added, and `lamp` to its `Or` list. -/
def orRun : List Act := [.sceneAdd text, .condAdd ['1'] .or .event lamp]

/-- The engine a run leaves; the engine as it is started where the run fails. -/
def engineAfter (as : List Act) : Engine :=
  ((Run.run Engine.step .init as).map Prod.fst).getD .init

/-- What a run puts out. -/
def effectsOf (as : List Act) : List Effect :=
  ((Run.run Engine.step .init as).map Prod.snd).getD []

theorem lamp_fits : Cond.Fits (k := .event) lamp :=
  show EventCond.Fits lamp from ⟨by decide, by decide, by decide, by decide, by decide⟩

end Sample

end Honyar.LocalScene
