import Honyar.LocalScene.ActionList
import Honyar.LocalScene.Entries
import Honyar.LocalScene.ListSync

/-!
# Bringing a condition list to an array

The functions `scene_{time,event}_{or,and}_cond_sync` of `scene_list.c`, four
copies of the reconciliation of `Lib.Reconcile` that add, change and delete
through the hash table.  What is filed there decides what they leave: an addition
may write a condition of another list, or one with another identity and the same
text.

The copies compare a part of the fields: a condition that is found and not seen
to differ stays as it was.  The manual trigger is a flag of the scene, which only
`scene_event_or_cond_sync` knows; it may set it and never clears it.
-/

namespace Honyar.LocalScene

open CText Option List Cond EventCond SceneList SceneInfo Reconcile

variable {l : Logic} {k : Kind}
variable {d : Cond k} {q : CondPtr k × Cond k} {p : CondPtr k}

/-! ## The four copies -/

/-- The two time conditions differ where they are compared. -/
def TimeCond.changed (d c : TimeCond) : Bool :=
  !strncmpEq hourMaxLen d.acTriggerType c.acTriggerType ||
    !strncmpEq hourMaxLen d.acTriggerInterval c.acTriggerInterval ||
    !strncmpEq hourMaxLen d.acStartHour c.acStartHour ||
    !strncmpEq minuMaxLen d.acStartMinu c.acStartMinu ||
    !strncmpEq hourMaxLen d.acEndHour c.acEndHour ||
    !strncmpEq minuMaxLen d.acEndMinu c.acEndMinu ||
    !strncmpEq weekMaxLen d.acWeek c.acWeek ||
    !strncmpEq stateMaxLen d.acRepeat c.acRepeat ||
    !strncmpEq stateMaxLen d.acLose c.acLose

/-- The two event conditions differ where they are compared. -/
def EventCond.changed (d c : EventCond) : Bool :=
  !strncmpEq valueMaxLen d.acTriggerType c.acTriggerType ||
    !strncmpEq valueMaxLen d.acContinueTime c.acContinueTime ||
    !strncmpEq valueMaxLen d.acValue c.acValue ||
    !strncmpEq activeMaxLen d.acActive c.acActive ||
    !strncmpEq activeMaxLen d.acLastValue c.acLastValue

/-- The two conditions differ where they are compared. -/
def Cond.changed : {k : Kind} → Cond k → Cond k → Bool
  | .time => TimeCond.changed
  | .event => EventCond.changed

/-- The search finds one condition for the other. -/
def Cond.same : {k : Kind} → Cond k → Cond k → Bool
  | .time => fun d c : TimeCond => strncmpEq keyMaxLen d.acTimeKey c.acTimeKey
  | .event => fun d c : EventCond =>
    strncmpEq devIdMaxLen d.acDevId c.acDevId && strncmpEq keyMaxLen d.acKey c.acKey

/-- The parts of the four copies. -/
def condSyncOps (a : Nat) (l : Logic) (k : Kind) :
    Reconcile.Ops SceneList (CondPtr k) (Cond k) (Cond k) where
  read x p := do
    let s ← x.scene? a
    (s.node? p).map CondNode.stCond
  same := Cond.same
  meet x _ d c := if d.changed c then (sceneCondAdd x a l c).map Prod.fst else some x
  del x c := (sceneCondDel x a l c).map Prod.fst
  add x c := (sceneCondAdd x a l c).map Prod.fst
  -- the mark of the manual trigger is the flag of the scene
  met x c flag := if c.isManual l then (x.scene? a).any (·.cManualTriggerFlag) else flag

/-- The pointers to the conditions a walk meets. -/
def CondList.walkPtrs (y : CondList l k) : List (CondPtr k) :=
  y.walk.flatMap fun n => n.pstCond.map fun c => ⟨l, n.addr, c.addr⟩

/-- The reconciliation of each logic and type. -/
def condSync (x : SceneList) (a : Nat) (l : Logic) (pastCondInfo : List (Cond k)) :
    Option SceneList := do
  let s ← x.scene? a
  Reconcile.sync (condSyncOps a l k) (fun x => sceneCondClear x a l k)
    ((s.list l k).iNodeNum = 0) (s.list l k).walkPtrs pastCondInfo x

/-- `scene_time_or_cond_sync`. -/
def sceneTimeOrCondSync (x : SceneList) (a : Nat) (pastCondInfo : List TimeCond) :
    Option SceneList :=
  condSync (k := .time) x a .or pastCondInfo

/-- `scene_event_or_cond_sync`. -/
def sceneEventOrCondSync (x : SceneList) (a : Nat) (pastCondInfo : List EventCond) :
    Option SceneList :=
  condSync (k := .event) x a .or pastCondInfo

/-- `scene_time_and_cond_sync`. -/
def sceneTimeAndCondSync (x : SceneList) (a : Nat) (pastCondInfo : List TimeCond) :
    Option SceneList :=
  condSync (k := .time) x a .and pastCondInfo

/-- `scene_event_and_cond_sync`. -/
def sceneEventAndCondSync (x : SceneList) (a : Nat) (pastCondInfo : List EventCond) :
    Option SceneList :=
  condSync (k := .event) x a .and pastCondInfo

/-! ## What is asked of it -/

/-- The conditions of an array that go to the list. -/
def listed (l : Logic) (target : List (Cond k)) : List (Cond k) :=
  target.filter fun c => !c.isManual l

/-- The texts of the identity fit their arrays. -/
def Cond.IdFits : {k : Kind} → Cond k → Prop
  | .time => fun c : TimeCond => c.acTimeKey.length ≤ keyMaxLen
  | .event => fun c : EventCond => c.acDevId.length ≤ devIdMaxLen ∧ c.acKey.length ≤ keyMaxLen

/-- The list holds the conditions of the array, with the fields passed, and no
others; the flag is set exactly when the array has the manual trigger. -/
structure CondsAre (s : SceneInfo) (l : Logic) (target : List (Cond k)) : Prop where
  conds : ((s.list l k).entries.map fun q => q.2.passed).Perm ((listed l target).map Cond.passed)
  manual : l = .or → k = .event →
    (s.cManualTriggerFlag = true ↔ ∃ c ∈ target, c.isManual l = true)

/-- The reconciliation deletes nothing, sees what it has to change, and files
what it adds under texts of their own, for which there is room. -/
structure CondSyncOk (x : SceneList) (s : SceneInfo) (l : Logic) (target : List (Cond k)) :
    Prop where
  /-- An empty array empties the list, if that counts its sets. -/
  clears : target = [] → (s.list l k).iNodeNum ≠ 0 → (s.list l k).clear.stList = []
  /-- Otherwise every condition of the list is in the array. -/
  known : target ≠ [] ∨ (s.list l k).iNodeNum = 0 →
    ∀ q ∈ (s.list l k).entries, ∃ c ∈ listed l target, q.2.SameId c
  /-- A difference is seen. -/
  seen : (s.list l k).iNodeNum ≠ 0 → ∀ q ∈ (s.list l k).entries, ∀ c ∈ listed l target,
    q.2.SameId c → q.2.changed c = false → q.2.passed = c.passed
  /-- Nothing is filed for the scene under the text of a new condition. -/
  free : ∀ c ∈ listed l target, (∀ q ∈ (s.list l k).entries, ¬ q.2.SameId c) →
    ptrHashFind x.pHashTable c.hashKey s.acSceneId = none
  texts : ((listed l target).map Cond.hashKey).Nodup
  room : Takes k ((listed l target).countP fun c =>
    (ptrHashFind x.pHashTable c.hashKey s.acSceneId).isNone) (s.list l k).counts
  manual : l = .or → k = .event → s.cManualTriggerFlag = true →
    ∃ c ∈ target, c.isManual l = true

/-! ## What additions keep -/

/-- What additions keep of a scene: its nodes in the hash table and the
identities of its conditions.  A condition that is new had no node. -/
structure CondGrown (l : Logic) (k : Kind) (x : SceneList) (s : SceneInfo) (x' : SceneList)
    (s' : SceneInfo) : Prop where
  acSceneId : s'.acSceneId = s.acSceneId
  find : ∀ key, ptrHashFind x'.pHashTable key s.acSceneId = none →
    ptrHashFind x.pHashTable key s.acSceneId = none
  kept : ∀ q ∈ (s.list l k).entries, ∃ q' ∈ (s'.list l k).entries,
    q'.2.identity = q.2.identity
  old : ∀ q' ∈ (s'.list l k).entries, (∃ q ∈ (s.list l k).entries,
    q.2.identity = q'.2.identity) ∨ ptrHashFind x.pHashTable q'.2.hashKey s.acSceneId = none

namespace CondGrown

variable {x x' x'' : SceneList} {s s' s'' : SceneInfo} {a : Nat} {c : Cond k}

theorem refl (x : SceneList) (s : SceneInfo) : CondGrown l k x s x s where
  acSceneId := rfl
  find _ h := h
  kept q hq := ⟨q, hq, rfl⟩
  old q hq := .inl ⟨q, hq, rfl⟩

theorem trans (h : CondGrown l k x s x' s') (h' : CondGrown l k x' s' x'' s'') :
    CondGrown l k x s x'' s'' where
  acSceneId := h'.acSceneId.trans h.acSceneId
  find key hnone := h.find key (h.acSceneId ▸ h'.find key (h.acSceneId.symm ▸ hnone))
  kept q hq := by
    obtain ⟨q', hq', hid⟩ := h.kept q hq
    obtain ⟨q'', hq'', hid'⟩ := h'.kept q' hq'
    exact ⟨q'', hq'', hid'.trans hid⟩
  old q'' hq'' := by
    rcases h'.old q'' hq'' with ⟨q', hq', hid'⟩ | hnone
    · rcases h.old q' hq' with ⟨q, hq, hid⟩ | hnone
      · exact .inl ⟨q, hq, hid.trans hid'⟩
      · exact .inr (hashKey_of_identity_eq hid' ▸ hnone)
    · exact .inr (h.find _ (h.acSceneId ▸ hnone))

theorem of_sceneCondAdd {r : ErrNo} (hx : Indexed x) (hs : x.scene? a = some s)
    (h : sceneCondAdd x a l c = some (x', r)) :
    ∃ s', x'.scene? a = some s' ∧ CondGrown l k x s x' s' := by
  cases hm : c.isManual l with
  | true =>
    rcases sceneCondAdd_cases h with ⟨-, t, ht, rfl⟩ | ⟨hm', -⟩
    · obtain rfl := some.inj (hs.symm.trans ht)
      refine ⟨_, scene?_setScene_self hs _, rfl, fun _ h => h, ?_, ?_⟩
      · rw [list_setManual]
        exact fun q hq => ⟨q, hq, rfl⟩
      · rw [list_setManual]
        exact fun q hq => .inl ⟨q, hq, rfl⟩
    · rw [hm] at hm'
      cases hm'
  | false =>
    obtain ⟨s', hs', hid, -, -, hcases⟩ := sceneCondAdd_entries hx hs hm h
    refine ⟨s', hs', ?_⟩
    rcases hcases with ⟨e, p, -, -, -, htable, -, hentries⟩ |
      ⟨e, p, hnone, heid, -, -, htable, -, -, hperm⟩ | ⟨e, hnone, heid, -, -, htable, -, rfl⟩
    · -- a row is written
      have hrow : ∀ q : CondPtr k × Cond k,
          (if q.1 = p then (q.1, q.2.set c) else q).2.identity = q.2.identity := by
        intro q
        split
        · exact identity_set q.2 c
        · rfl
      refine ⟨hid, fun key h => htable ▸ h, fun q hq => ?_, fun q' hq' => ?_⟩
      · exact ⟨_, hentries ▸ mem_map_of_mem hq, hrow q⟩
      · rw [hentries] at hq'
        obtain ⟨q, hq, rfl⟩ := mem_map.mp hq'
        exact .inl ⟨q, hq, (hrow q).symm⟩
    · -- a row is appended
      refine ⟨hid, fun key h => ?_, fun q hq => ?_, fun q' hq' => ?_⟩
      · rw [htable, ptrHashFind_ptrHashInst heid] at h
        split at h
        · cases h
        · exact h
      · exact ⟨q, hperm.symm.subset (mem_cons_of_mem _ hq), rfl⟩
      · rcases mem_cons.mp (hperm.subset hq') with rfl | hq
        · exact .inr hnone
        · exact .inl ⟨q', hq, rfl⟩
    · -- no row
      refine ⟨rfl, fun key h => ?_, fun q hq => ⟨q, hq, rfl⟩, fun q hq => .inl ⟨q, hq, rfl⟩⟩
      rw [htable, ptrHashFind_ptrHashInst heid] at h
      split at h
      · cases h
      · exact h

theorem of_sync (hx : Indexed x) (hs : x.scene? a = some s) {target : List (Cond k)}
    {empty : Bool} {ps : List (CondPtr k)} {clear : SceneList → Option SceneList}
    (hnil : target ≠ [] ∨ empty = true)
    (h : Reconcile.sync (condSyncOps a l k) clear empty ps target x = some x') :
    Indexed x' ∧ ∃ s', x'.scene? a = some s' ∧ CondGrown l k x s x' s' := by
  let P (y : SceneList) : Prop := Indexed y ∧ ∃ t, y.scene? a = some t ∧ CondGrown l k x s y t
  have hadd : ∀ y y', ∀ c ∈ target, P y → (condSyncOps a l k).add y c = some y' → P y' := by
    rintro y y' c - ⟨hy, t, ht, hgrown⟩ h
    obtain ⟨⟨y'', r⟩, hsome, rfl⟩ := map_eq_some_iff.mp h
    obtain ⟨t', ht', hstep⟩ := of_sceneCondAdd hy ht hsome
    exact ⟨sceneCondAdd_indexed hy hsome, t', ht', hgrown.trans hstep⟩
  have hmeet : ∀ y p d y', ∀ c ∈ target, P y → (condSyncOps a l k).meet y p d c = some y' →
      P y' := by
    intro y p d y' c hc hy h
    have h : (if d.changed c then (condSyncOps a l k).add y c else some y) = some y' := h
    split at h
    · exact hadd y y' c hc hy h
    · cases h
      exact hy
  have hfirst : P x := ⟨hx, s, hs, refl x s⟩
  rw [sync] at h
  split at h
  · exact addAll_preserves hadd hfirst h
  · rename_i hempty
    rw [if_neg (hnil.resolve_right hempty)] at h
    exact passes_preserves hmeet hadd hfirst h

end CondGrown

/-! ## Additions that are aimed at the list -/

theorem Cond.SameId.hashKey_eq {c : Cond k} (h : d.SameId c) : d.hashKey = c.hashKey :=
  hashKey_of_identity_eq (sameId_iff.mp h)

theorem Cond.sameId_of_passed_eq {c : Cond k} (h : d.passed = c.passed) : d.SameId c :=
  sameId_iff.mpr (identity_of_passed_eq h)

theorem Cond.SameId.trans_right {b c : Cond k} (h : d.SameId c) (h' : d.SameId b) : b.SameId c :=
  sameId_iff.mpr ((sameId_iff.mp h').symm.trans (sameId_iff.mp h))

/-- The rows `E'` are those of `E` with the conditions `cs` written over the rows
of their identities, or put to them, as far as there is room. -/
structure Overlays (E : List (CondPtr k × Cond k)) (cs : List (Cond k))
    (E' : List (CondPtr k × Cond k)) : Prop where
  keep : ∀ q ∈ E, (∀ c ∈ cs, ¬ q.2.SameId c) → q ∈ E'
  only : ∀ q ∈ E', (∃ c ∈ cs, q.2.passed = c.passed) ∨ q ∈ E ∧ ∀ c ∈ cs, ¬ q.2.SameId c

namespace Overlays

variable {E E₁ E' : List (CondPtr k × Cond k)} {cs : List (Cond k)} {c : Cond k}

theorem nil (E : List (CondPtr k × Cond k)) : Overlays E [] E where
  keep _ hq _ := hq
  only _ hq := .inr ⟨hq, fun _ hc => absurd hc not_mem_nil⟩

theorem written (hfits : c.Fits) (hsame : q.2.SameId c) (hfst : ∀ r ∈ E, r.1 = q.1 → r = q)
    (hid : ∀ r ∈ E, r.2.SameId c → r = q)
    (h : Overlays (E.map fun r => if r.1 = q.1 then (r.1, r.2.set c) else r) cs E') :
    Overlays E (c :: cs) E' where
  keep r hr hnot := by
    have hne : r.1 ≠ q.1 := by
      intro heq
      rw [hfst r hr heq] at hnot
      exact hnot c mem_cons_self hsame
    refine h.keep r ?_ fun c' hc' => hnot c' (mem_cons_of_mem c hc')
    exact mem_map.mpr ⟨r, hr, if_neg hne⟩
  only r hr := by
    rcases h.only r hr with ⟨c', hc', hpassed⟩ | ⟨hmem, hnot⟩
    · exact .inl ⟨c', mem_cons_of_mem c hc', hpassed⟩
    · obtain ⟨r', hr', rfl⟩ := mem_map.mp hmem
      by_cases heq : r'.1 = q.1
      · rw [if_pos heq]
        refine .inl ⟨c, mem_cons_self, ?_⟩
        rw [hfst r' hr' heq]
        exact (passed_set_iff hfits).mpr hsame
      · rw [if_neg heq] at hnot ⊢
        refine .inr ⟨hr', fun c' hc' hsame' => ?_⟩
        rcases mem_cons.mp hc' with rfl | hc'
        · exact heq (congrArg Prod.fst (hid r' hr' hsame'))
        · exact hnot c' hc' hsame'

theorem appended (hperm : E₁.Perm ((p, c) :: E)) (hnew : ∀ q ∈ E, ¬ q.2.SameId c)
    (h : Overlays E₁ cs E') : Overlays E (c :: cs) E' where
  keep q hq hnot :=
    h.keep q (hperm.symm.subset (mem_cons_of_mem _ hq)) fun c' hc' =>
      hnot c' (mem_cons_of_mem c hc')
  only q hq := by
    rcases h.only q hq with ⟨c', hc', hpassed⟩ | ⟨hmem, hnot⟩
    · exact .inl ⟨c', mem_cons_of_mem c hc', hpassed⟩
    · rcases mem_cons.mp (hperm.subset hmem) with rfl | hq
      · exact .inl ⟨c, mem_cons_self, rfl⟩
      · refine .inr ⟨hq, fun c' hc' => ?_⟩
        rcases mem_cons.mp hc' with rfl | hc'
        · exact hnew q hq
        · exact hnot c' hc'

theorem refused (hnew : ∀ q ∈ E, ¬ q.2.SameId c) (h : Overlays E cs E') :
    Overlays E (c :: cs) E' where
  keep q hq hnot := h.keep q hq fun c' hc' => hnot c' (mem_cons_of_mem c hc')
  only q hq := by
    rcases h.only q hq with ⟨c', hc', hpassed⟩ | ⟨hq, hnot⟩
    · exact .inl ⟨c', mem_cons_of_mem c hc', hpassed⟩
    · refine .inr ⟨hq, fun c' hc' => ?_⟩
      rcases mem_cons.mp hc' with rfl | hc'
      · exact hnew q hq
      · exact hnot c' hc'

end Overlays

/-- The conditions of an array fit their arrays, have texts of their own, and
whatever is filed under these for the scene is the condition of the list with
the identity. -/
structure Addable (x : SceneList) (s : SceneInfo) (l : Logic) (cs : List (Cond k)) : Prop where
  fits : ∀ c ∈ listed l cs, c.Fits
  texts : ((listed l cs).map Cond.hashKey).Nodup
  aimed : ∀ c ∈ listed l cs, ptrHashFind x.pHashTable c.hashKey s.acSceneId = none ∨
    ∃ q ∈ (s.list l k).entries, q.2.SameId c

/-- How many of the conditions are not filed yet. -/
def unfiled (x : SceneList) (s : SceneInfo) (cs : List (Cond k)) : Nat :=
  cs.countP fun c => (ptrHashFind x.pHashTable c.hashKey s.acSceneId).isNone

section Additions

variable {x x₁ : SceneList} {a : Nat} {s s₁ : SceneInfo} {c : Cond k} {cs : List (Cond k)}
variable {e : PtrNode}

theorem listed_cons_manual (hm : c.isManual l = true) (cs : List (Cond k)) :
    listed l (c :: cs) = listed l cs :=
  filter_cons_of_neg (by simp [hm])

theorem listed_cons (hm : c.isManual l = false) (cs : List (Cond k)) :
    listed l (c :: cs) = c :: listed l cs :=
  filter_cons_of_pos (by simp [hm])

theorem Indexed.find_ne_none (hx : Indexed x) (hs : x.scene? a = some s)
    (hq : q ∈ (s.list l k).entries) (h : q.2.SameId c) :
    ptrHashFind x.pHashTable c.hashKey s.acSceneId ≠ none := by
  obtain ⟨e, he, -⟩ := hx.find_of_mem_entries hs hq
  rw [← h.hashKey_eq, he]
  exact some_ne_none e

theorem Indexed.condPtr?_of_sameId (hx : Indexed x) (hs : x.scene? a = some s)
    (hq : q ∈ (s.list l k).entries) (h : q.2.SameId c)
    (he : ptrHashFind x.pHashTable c.hashKey s.acSceneId = some e) :
    e.condPtr? k = some q.1 ∧ e.pstScene = a ∧ ∃ d, s.node? q.1 = some d := by
  obtain ⟨e', he', hea, het⟩ := hx.find_of_mem_entries hs hq
  rw [h.hashKey_eq, he, some.injEq] at he'
  subst he'
  have hchained := (hx.placed _ (mem_of_scene? hs)).chained
  obtain ⟨-, d, hd, -⟩ := (mem_entries_iff hchained).mp hq
  refine ⟨?_, hea, d, hd⟩
  rw [PtrNode.condPtr?, het]
  simp

/-- What the additions of a whole array leave of the scene. -/
structure CondsAdded (x : SceneList) (s : SceneInfo) (l : Logic) (cs : List (Cond k))
    (s' : SceneInfo) : Prop where
  flag : s'.cManualTriggerFlag = true ↔
    s.cManualTriggerFlag = true ∨ ∃ c ∈ cs, c.isManual l = true
  rows : Overlays (s.list l k).entries (listed l cs) (s'.list l k).entries
  room : (∀ c ∈ listed l cs, ∃ q ∈ (s'.list l k).entries, q.2.SameId c) ↔
    Takes k (unfiled x s (listed l cs)) (s.list l k).counts

theorem exists_manual_cons (hm : c.isManual l = false) (cs : List (Cond k)) :
    (∃ c' ∈ c :: cs, c'.isManual l = true) ↔ ∃ c' ∈ cs, c'.isManual l = true := by
  constructor
  · rintro ⟨c', hc', hm'⟩
    rcases mem_cons.mp hc' with rfl | hc'
    · rw [hm] at hm'
      cases hm'
    · exact ⟨c', hc', hm'⟩
  · rintro ⟨c', hc', hm'⟩
    exact ⟨c', mem_cons_of_mem c hc', hm'⟩

theorem Addable.tail (h : Addable x s l (c :: cs)) (hm : c.isManual l = false)
    (hgrown : CondGrown l k x s x₁ s₁)
    (hfind : ∀ key, key ≠ c.hashKey → ptrHashFind x₁.pHashTable key s.acSceneId =
      ptrHashFind x.pHashTable key s.acSceneId) :
    Addable x₁ s₁ l cs ∧ unfiled x₁ s₁ (listed l cs) = unfiled x s (listed l cs) ∧
      ∀ c' ∈ listed l cs, ¬ c.SameId c' := by
  obtain ⟨hfits, htexts, haimed⟩ := h
  rw [listed_cons hm] at hfits htexts haimed
  rw [map_cons, nodup_cons] at htexts
  have hne : ∀ c' ∈ listed l cs, c'.hashKey ≠ c.hashKey :=
    fun c' hc' heq => htexts.1 (heq ▸ mem_map_of_mem hc')
  have hsame : ∀ c' ∈ listed l cs, ptrHashFind x₁.pHashTable c'.hashKey s₁.acSceneId =
      ptrHashFind x.pHashTable c'.hashKey s.acSceneId := by
    intro c' hc'
    rw [hgrown.acSceneId]
    exact hfind _ (hne c' hc')
  refine ⟨⟨fun c' hc' => hfits c' (mem_cons_of_mem c hc'), htexts.2, fun c' hc' => ?_⟩, ?_,
    fun c' hc' hid => hne c' hc' hid.hashKey_eq.symm⟩
  · rcases haimed c' (mem_cons_of_mem c hc') with hnone | ⟨q, hq, hid⟩
    · exact .inl ((hsame c' hc').trans hnone)
    · obtain ⟨q', hq', hid'⟩ := hgrown.kept q hq
      exact .inr ⟨q', hq', sameId_iff.mpr (hid'.trans (sameId_iff.mp hid))⟩
  · refine countP_congr fun c' hc' => ?_
    rw [hsame c' hc']

theorem Addable.step_manual (hs : x.scene? a = some s) (h : Addable x s l (c :: cs))
    (hm : c.isManual l = true) {r : ErrNo} (hadd : sceneCondAdd x a l c = some (x₁, r))
    (hs₁ : x₁.scene? a = some s₁) :
    Addable x₁ s₁ l cs ∧ ∀ s', CondsAdded x₁ s₁ l cs s' → CondsAdded x s l (c :: cs) s' := by
  rcases sceneCondAdd_cases hadd with ⟨-, t, ht, rfl⟩ | ⟨hm', -⟩
  · obtain rfl := some.inj (hs.symm.trans ht)
    obtain rfl := some.inj (hs₁.symm.trans (scene?_setScene_self hs _))
    have hlist := list_setManual s true l k
    obtain ⟨hfits, htexts, haimed⟩ := h
    rw [listed_cons_manual hm] at hfits htexts haimed
    refine ⟨⟨hfits, htexts, by rw [hlist]; exact haimed⟩, ?_⟩
    rintro s' ⟨hflag, hrows, hroom⟩
    rw [hlist] at hrows hroom
    refine ⟨?_, ?_, ?_⟩
    · rw [hflag]
      exact iff_of_true (.inl rfl) (.inr ⟨c, mem_cons_self, hm⟩)
    · rw [listed_cons_manual hm]
      exact hrows
    · rw [listed_cons_manual hm]
      exact hroom
  · rw [hm] at hm'
    cases hm'

theorem Addable.step_written (hx : Indexed x) (hs : x.scene? a = some s)
    (h : Addable x s l (c :: cs)) (hm : c.isManual l = false) (hgrown : CondGrown l k x s x₁ s₁)
    (hflag : s₁.cManualTriggerFlag = s.cManualTriggerFlag)
    (hfind : ptrHashFind x.pHashTable c.hashKey s.acSceneId = some e) (hp : e.condPtr? k = some p)
    (htable : x₁.pHashTable = x.pHashTable) (hcounts : (s₁.list l k).counts = (s.list l k).counts)
    (hentries : (s₁.list l k).entries =
      (s.list l k).entries.map fun q => if q.1 = p then (q.1, q.2.set c) else q) :
    Addable x₁ s₁ l cs ∧ ∀ s', CondsAdded x₁ s₁ l cs s' → CondsAdded x s l (c :: cs) s' := by
  obtain ⟨htail, hunfiled, hother⟩ := h.tail hm hgrown fun key _ => by rw [htable]
  refine ⟨htail, ?_⟩
  rintro s' ⟨hflag', hrows, hroom⟩
  have hc : c ∈ listed l (c :: cs) := by rw [listed_cons hm]; exact mem_cons_self
  obtain ⟨q, hq, hid⟩ : ∃ q ∈ (s.list l k).entries, q.2.SameId c := by
    rcases h.aimed c hc with hnone | hrow
    · rw [hfind] at hnone
      cases hnone
    · exact hrow
  obtain rfl : q.1 = p :=
    some.inj ((hx.condPtr?_of_sameId hs hq hid hfind).1.symm.trans hp)
  have hnodup := (hx.placed _ (mem_of_scene? hs) l k).entries_nodup
  have hrow : ((q.1, q.2.set c) : CondPtr k × Cond k) ∈ (s'.list l k).entries := by
    refine hrows.keep _ ?_ fun c' hc' hid' => hother c' hc' ?_
    · rw [hentries]
      exact mem_map.mpr ⟨q, hq, if_pos rfl⟩
    · have hset : (q.2.set c).SameId c := by
        rw [sameId_iff, identity_set]
        exact sameId_iff.mp hid
      exact Cond.SameId.trans_right hid' hset
  refine ⟨?_, ?_, ?_⟩
  · rw [hflag', hflag, exists_manual_cons hm]
  · rw [listed_cons hm]
    rw [hentries] at hrows
    exact hrows.written (h.fits c hc) hid (fun r hr heq => Keyed.eq_of_key_eq hnodup hr hq heq)
      fun r hr hid' => hx.eq_of_hashKey_eq hs hr hq (hid'.hashKey_eq.trans hid.hashKey_eq.symm)
  · have hcount : unfiled x s (c :: listed l cs) = unfiled x s (listed l cs) :=
      countP_cons_of_neg (by simp [hfind])
    rw [listed_cons hm, hcount, ← hunfiled, ← hcounts, ← hroom, forall_mem_cons]
    refine and_iff_right ⟨_, hrow, ?_⟩
    rw [sameId_iff, identity_set]
    exact sameId_iff.mp hid

theorem find_of_ptrHashInst (hid : e.acId = strncpy indexMaxLen s.acSceneId)
    (htable : x₁.pHashTable = ptrHashInst x.pHashTable c.hashKey e) {key : CText}
    (hne : key ≠ c.hashKey) :
    ptrHashFind x₁.pHashTable key s.acSceneId = ptrHashFind x.pHashTable key s.acSceneId := by
  rw [htable, ptrHashFind_ptrHashInst hid, if_neg hne]

theorem Addable.step_appended (hx : Indexed x) (hs : x.scene? a = some s)
    (h : Addable x s l (c :: cs)) (hm : c.isManual l = false) (hgrown : CondGrown l k x s x₁ s₁)
    (hflag : s₁.cManualTriggerFlag = s.cManualTriggerFlag)
    (hfind : ptrHashFind x.pHashTable c.hashKey s.acSceneId = none)
    (hid : e.acId = strncpy indexMaxLen s.acSceneId)
    (htable : x₁.pHashTable = ptrHashInst x.pHashTable c.hashKey e)
    (hcounts : countsAdd k (s.list l k).counts = some (s₁.list l k).counts)
    (hperm : (s₁.list l k).entries.Perm ((p, c) :: (s.list l k).entries)) :
    Addable x₁ s₁ l cs ∧ ∀ s', CondsAdded x₁ s₁ l cs s' → CondsAdded x s l (c :: cs) s' := by
  obtain ⟨htail, hunfiled, hother⟩ :=
    h.tail hm hgrown fun key => find_of_ptrHashInst hid htable
  refine ⟨htail, ?_⟩
  rintro s' ⟨hflag', hrows, hroom⟩
  refine ⟨?_, ?_, ?_⟩
  · rw [hflag', hflag, exists_manual_cons hm]
  · rw [listed_cons hm]
    exact hrows.appended hperm fun q hq hsame => hx.find_ne_none hs hq hsame hfind
  · have hcount : unfiled x s (c :: listed l cs) = unfiled x s (listed l cs) + 1 :=
      countP_cons_of_pos (by simp [hfind])
    have htakes : Takes k (unfiled x s (listed l cs) + 1) (s.list l k).counts ↔
        Takes k (unfiled x s (listed l cs)) (s₁.list l k).counts := by
      rw [Takes, hcounts]
      simp
    have hrow : (p, c) ∈ (s'.list l k).entries :=
      hrows.keep _ (hperm.symm.subset mem_cons_self) hother
    rw [listed_cons hm, hcount, htakes, ← hunfiled, ← hroom, forall_mem_cons]
    exact and_iff_right ⟨_, hrow, sameId_iff.mpr rfl⟩

theorem Addable.step_refused (hx : Indexed x) (hs : x.scene? a = some s)
    (h : Addable x s l (c :: cs)) (hm : c.isManual l = false) (hgrown : CondGrown l k x s x₁ s)
    (hfind : ptrHashFind x.pHashTable c.hashKey s.acSceneId = none)
    (hid : e.acId = strncpy indexMaxLen s.acSceneId)
    (htable : x₁.pHashTable = ptrHashInst x.pHashTable c.hashKey e)
    (hcounts : countsAdd k (s.list l k).counts = none) :
    Addable x₁ s l cs ∧ ∀ s', CondsAdded x₁ s l cs s' → CondsAdded x s l (c :: cs) s' := by
  obtain ⟨htail, hunfiled, hother⟩ :=
    h.tail hm hgrown fun key => find_of_ptrHashInst hid htable
  refine ⟨htail, ?_⟩
  rintro s' ⟨hflag', hrows, hroom⟩
  have hnew : ∀ q ∈ (s.list l k).entries, ¬ q.2.SameId c :=
    fun q hq hsame => hx.find_ne_none hs hq hsame hfind
  refine ⟨?_, ?_, ?_⟩
  · rw [hflag', exists_manual_cons hm]
  · rw [listed_cons hm]
    exact hrows.refused hnew
  · have hcount : unfiled x s (c :: listed l cs) = unfiled x s (listed l cs) + 1 :=
      countP_cons_of_pos (by simp [hfind])
    rw [listed_cons hm, hcount, Takes, hcounts]
    refine iff_of_false (fun hall => ?_) (by simp)
    -- nothing that is added later has the identity
    obtain ⟨q, hq, hsame⟩ := hall c mem_cons_self
    rcases hrows.only q hq with ⟨c', hc', hpassed⟩ | ⟨hq, -⟩
    · exact hother c' hc' (Cond.SameId.trans_right (sameId_of_passed_eq hpassed) hsame)
    · exact hnew q hq hsame

/-- Conditions that are aimed at the list are written over their rows or put to
the others, and all of them are there when there is room for the new ones. -/
theorem Addable.addAll (hx : Indexed x) (hs : x.scene? a = some s) (h : Addable x s l cs) :
    ∃ x' s', Reconcile.addAll (condSyncOps a l k) cs x = some x' ∧ Indexed x' ∧
      x'.scene? a = some s' ∧ CondsAdded x s l cs s' := by
  induction cs generalizing x s with
  | nil =>
    refine ⟨x, s, rfl, hx, hs, by simp, .nil _, iff_of_true ?_ trivial⟩
    exact fun c hc => absurd hc not_mem_nil
  | cons c cs ih =>
    obtain ⟨⟨x₁, r⟩, hadd⟩ : ∃ r, sceneCondAdd x a l c = some r := by
      refine sceneCondAdd_isSome hx hs fun hm e he => ?_
      rcases h.aimed c (by rw [listed_cons hm]; exact mem_cons_self) with
        hnone | ⟨q, hq, hid⟩
      · rw [hnone] at he
        cases he
      · obtain ⟨hp, ha, d, hd⟩ := hx.condPtr?_of_sameId hs hq hid he
        exact ⟨q.1, d, hp, ha, hd⟩
    have hx₁ := sceneCondAdd_indexed hx hadd
    obtain ⟨s₁, hs₁, hgrown⟩ := CondGrown.of_sceneCondAdd hx hs hadd
    have hstep : Addable x₁ s₁ l cs ∧
        ∀ s', CondsAdded x₁ s₁ l cs s' → CondsAdded x s l (c :: cs) s' := by
      cases hm : c.isManual l with
      | true => exact h.step_manual hs hm hadd hs₁
      | false =>
        obtain ⟨t, ht, -, hflag, -, hcases⟩ := sceneCondAdd_entries hx hs hm hadd
        obtain rfl := some.inj (hs₁.symm.trans ht)
        rcases hcases with ⟨e, p, hfind, hp, -, htable, hcounts, hentries⟩ |
          ⟨e, p, hfind, hid, -, -, htable, -, hcounts, hperm⟩ |
          ⟨e, hfind, hid, -, -, htable, hcounts, rfl⟩
        · exact h.step_written hx hs hm hgrown hflag hfind hp htable hcounts hentries
        · exact h.step_appended hx hs hm hgrown hflag hfind hid htable hcounts hperm
        · exact h.step_refused hx hs hm hgrown hfind hid htable hcounts
    obtain ⟨x', s', hrest, hx', hs', hadded⟩ := ih hx₁ hs₁ hstep.1
    refine ⟨x', s', ?_, hx', hs', hstep.2 s' hadded⟩
    have hfirst : (condSyncOps a l k).add x c = some x₁ := by
      show (sceneCondAdd x a l c).map Prod.fst = some x₁
      rw [hadd]
      rfl
    rw [addAll, foldlM_cons, hfirst]
    exact hrest

end Additions

/-! ## The array -/

section Contents

variable {x x' x₁ : SceneList} {a : Nat} {s s' s₁ : SceneInfo} {cs target : List (Cond k)}

theorem mem_listed {c : Cond k} : c ∈ listed l target ↔ c ∈ target ∧ c.isManual l = false := by
  rw [listed, mem_filter, Bool.not_eq_true']

theorem eq_of_mem_listed (hunique : (target.map Cond.identity).Nodup) {c : Cond k}
    (hc : c ∈ listed l target) (hd : d ∈ listed l target) (h : c.SameId d) : c = d :=
  inj_on_of_nodup_map hunique (mem_listed.mp hc).1 (mem_listed.mp hd).1
    (sameId_iff.mp h)

/-- The conditions of a list and of an array are compared one by one. -/
theorem entries_perm_iff (hx : Indexed x) (hs : x.scene? a = some s)
    (hunique : (target.map Cond.identity).Nodup) :
    ((s.list l k).entries.map fun q => q.2.passed).Perm ((listed l target).map Cond.passed) ↔
      (∀ q ∈ (s.list l k).entries, ∃ c ∈ listed l target, q.2.passed = c.passed) ∧
        ∀ c ∈ listed l target, ∃ q ∈ (s.list l k).entries, q.2.passed = c.passed := by
  have hrows : ((s.list l k).entries.map fun q => q.2.passed).Nodup := by
    have hnodup := (hx.placed _ (mem_of_scene? hs) l k).entries_nodup.of_map
    refine hnodup.map_on fun q hq r hr heq => ?_
    exact hx.eq_of_hashKey_eq hs hq hr (hashKey_of_passed_eq heq)
  have harray : ((listed l target).map passed).Nodup := by
    refine List.Nodup.of_map identity ?_
    rw [List.map_map]
    have hids : identity ∘ passed = (identity (k := k)) :=
      funext identity_passed
    rw [hids]
    exact (filter_sublist.map _).nodup hunique
  rw [perm_ext_iff_of_nodup hrows harray]
  simp only [List.mem_map]
  constructor
  · intro h
    refine ⟨fun q hq => ?_, fun c hc => ?_⟩
    · obtain ⟨c, hc, heq⟩ := (h _).mp ⟨q, hq, rfl⟩
      exact ⟨c, hc, heq.symm⟩
    · exact (h _).mpr ⟨c, hc, rfl⟩
  · rintro ⟨honly, hall⟩ v
    constructor
    · rintro ⟨q, hq, rfl⟩
      obtain ⟨c, hc, heq⟩ := honly q hq
      exact ⟨c, hc, heq.symm⟩
    · rintro ⟨c, hc, rfl⟩
      exact hall c hc

/-- What is left for the additions `cs` once the conditions that were found are
brought up to date. -/
structure Remaining (s : SceneInfo) (l : Logic) (cs target : List (Cond k)) : Prop where
  subset : ∀ c ∈ listed l cs, c ∈ listed l target
  known : ∀ q ∈ (s.list l k).entries, ∃ c ∈ listed l target, q.2.SameId c
  covered : ∀ c ∈ listed l target, c ∈ listed l cs ∨ ∃ q ∈ (s.list l k).entries,
    q.2.SameId c ∧ ∀ c' ∈ listed l cs, ¬ q.2.SameId c'
  manual : (∃ c ∈ cs, c.isManual l = true) ↔ ∃ c ∈ target, c.isManual l = true

/-- The conditions are those of the array when there was room for the new ones and
those that were not added are right. -/
theorem Remaining.condsAre_iff (hx' : Indexed x') (hs' : x'.scene? a = some s')
    (hunique : (target.map Cond.identity).Nodup) (h : Remaining s₁ l cs target)
    (hadded : CondsAdded x₁ s₁ l cs s') :
    CondsAre s' l target ↔
      Takes k (unfiled x₁ s₁ (listed l cs)) (s₁.list l k).counts ∧
        (∀ q ∈ (s₁.list l k).entries, (∀ c ∈ listed l cs, ¬ q.2.SameId c) →
          ∀ c ∈ listed l target, q.2.SameId c → q.2.passed = c.passed) ∧
        (l = .or → k = .event → s₁.cManualTriggerFlag = true →
          ∃ c ∈ target, c.isManual l = true) := by
  constructor
  · rintro ⟨hconds, hmanual⟩
    obtain ⟨honly, hall⟩ := (entries_perm_iff hx' hs' hunique).mp hconds
    refine ⟨hadded.room.mp fun c hc => ?_, fun q hq hnot c hc hid => ?_, fun hl hk hflag => ?_⟩
    · obtain ⟨q, hq, hpassed⟩ := hall c (h.subset c hc)
      exact ⟨q, hq, sameId_of_passed_eq hpassed⟩
    · obtain ⟨c', hc', hpassed⟩ := honly q (hadded.rows.keep q hq hnot)
      have hid' := Cond.SameId.trans_right hid (sameId_of_passed_eq hpassed)
      rw [← eq_of_mem_listed hunique hc' hc hid']
      exact hpassed
    · exact (hmanual hl hk).mp (hadded.flag.mpr (.inl hflag))
  · rintro ⟨hroom, hright, hmanual⟩
    have honly : ∀ q ∈ (s'.list l k).entries, ∃ c ∈ listed l target,
        q.2.passed = c.passed := by
      intro q hq
      rcases hadded.rows.only q hq with ⟨c, hc, hpassed⟩ | ⟨hq, hnot⟩
      · exact ⟨c, h.subset c hc, hpassed⟩
      · obtain ⟨c, hc, hid⟩ := h.known q hq
        exact ⟨c, hc, hright q hq hnot c hc hid⟩
    refine ⟨(entries_perm_iff hx' hs' hunique).mpr ⟨honly, fun c hc => ?_⟩, fun hl hk => ?_⟩
    · obtain ⟨q, hq, hid⟩ : ∃ q ∈ (s'.list l k).entries, q.2.SameId c := by
        rcases h.covered c hc with hc | ⟨q, hq, hid, hnot⟩
        · exact hadded.room.mpr hroom c hc
        · exact ⟨q, hadded.rows.keep q hq hnot, hid⟩
      obtain ⟨c', hc', hpassed⟩ := honly q hq
      have hid' := Cond.SameId.trans_right hid (sameId_of_passed_eq hpassed)
      rw [← eq_of_mem_listed hunique hc' hc hid']
      exact ⟨q, hq, hpassed⟩
    · rw [hadded.flag, h.manual]
      exact or_iff_right_of_imp (hmanual hl hk)

theorem CondGrown.known_of_condsAre (hx' : Indexed x') (hs' : x'.scene? a = some s')
    (hunique : (target.map Cond.identity).Nodup) (hgrown : CondGrown l k x s x' s')
    (h : CondsAre s' l target) :
    (∀ q ∈ (s.list l k).entries, ∃ c ∈ listed l target, q.2.SameId c) ∧
      (∀ c ∈ listed l target, (∀ q ∈ (s.list l k).entries, ¬ q.2.SameId c) →
        ptrHashFind x.pHashTable c.hashKey s.acSceneId = none) ∧
      ((listed l target).map Cond.hashKey).Nodup := by
  obtain ⟨honly, hall⟩ := (entries_perm_iff hx' hs' hunique).mp h.conds
  refine ⟨fun q hq => ?_, fun c hc hnew => ?_, ?_⟩
  · obtain ⟨q', hq', hid⟩ := hgrown.kept q hq
    obtain ⟨c, hc, hpassed⟩ := honly q' hq'
    exact ⟨c, hc, sameId_iff.mpr (hid.symm.trans (identity_of_passed_eq hpassed))⟩
  · obtain ⟨q', hq', hpassed⟩ := hall c hc
    rcases hgrown.old q' hq' with ⟨q, hq, hid⟩ | hnone
    · exact absurd (sameId_iff.mpr (hid.trans (identity_of_passed_eq hpassed)))
        (hnew q hq)
    · exact hashKey_of_passed_eq hpassed ▸ hnone
  · have hnodup : (listed l target).Nodup := filter_sublist.nodup hunique.of_map
    refine hnodup.map_on fun c hc d hd hkey => ?_
    obtain ⟨q, hq, hqc⟩ := hall c hc
    obtain ⟨r, hr, hrd⟩ := hall d hd
    have hqr := hx'.eq_of_hashKey_eq hs' hq hr (by
      rw [hashKey_of_passed_eq hqc, hashKey_of_passed_eq hrd, hkey])
    subst hqr
    exact eq_of_mem_listed hunique hc hd (sameId_of_passed_eq (hqc.symm.trans hrd))

end Contents

/-! ## The first pass -/

theorem Cond.idFits_of_identity_eq {c : Cond k} (h : d.identity = c.identity) (hc : c.IdFits) :
    d.IdFits := by
  cases k with
  | time =>
    have h : TimeCond.acTimeKey d = TimeCond.acTimeKey c := congrArg Prod.fst h
    show (TimeCond.acTimeKey d).length ≤ keyMaxLen
    rw [h]
    exact hc
  | event =>
    have hdev : acDevId d = acDevId c := congrArg Prod.fst h
    have hkey : acKey d = acKey c := congrArg Prod.snd h
    show (acDevId d).length ≤ devIdMaxLen ∧ (acKey d).length ≤ keyMaxLen
    rw [hdev, hkey]
    exact hc

theorem Cond.isManual_of_identity_eq {c : Cond k} (h : d.identity = c.identity) :
    d.isManual l = c.isManual l := by
  cases k with
  | time => rfl
  | event =>
    have hkey : EventCond.acKey d = EventCond.acKey c := congrArg Prod.snd h
    show (l = .or && EventCond.isManual d) = (l = .or && EventCond.isManual c)
    rw [EventCond.isManual, EventCond.isManual, hkey]

theorem Cond.same_iff {c : Cond k} (hd : d.IdFits) (hc : c.IdFits) :
    d.same c = true ↔ d.SameId c := by
  cases k with
  | time => exact strncmpEq_of_length_le hd hc
  | event =>
    show (strncmpEq devIdMaxLen (acDevId d) (acDevId c) &&
      strncmpEq keyMaxLen (acKey d) (acKey c)) = true ↔ _
    rw [Bool.and_eq_true, strncmpEq_of_length_le hd.1 hc.1, strncmpEq_of_length_le hd.2 hc.2]
    rfl

section Passes

variable {x : SceneList} {a : Nat} {s : SceneInfo} {target : List (Cond k)}

theorem condSyncOps_distinct (hids : ∀ c ∈ target, c.IdFits)
    (hunique : (target.map Cond.identity).Nodup) : (condSyncOps a l k).Distinct target := by
  rw [List.Nodup, pairwise_map] at hunique
  refine hunique.imp_of_mem fun {c c'} hc hc' hne d hsame hsame' => hne ?_
  have hfits := hids c hc
  have hfits' := hids c' hc'
  cases k with
  | time =>
    have hkey := (strncmpEq_iff.mp hsame).symm.trans (strncmpEq_iff.mp hsame')
    rw [take_of_length_le hfits, take_of_length_le hfits'] at hkey
    exact Prod.ext hkey rfl
  | event =>
    obtain ⟨hdev, hkey⟩ := Bool.and_eq_true_iff.mp hsame
    obtain ⟨hdev', hkey'⟩ := Bool.and_eq_true_iff.mp hsame'
    have hdev := (strncmpEq_iff.mp hdev).symm.trans (strncmpEq_iff.mp hdev')
    have hkey := (strncmpEq_iff.mp hkey).symm.trans (strncmpEq_iff.mp hkey')
    rw [take_of_length_le hfits.1, take_of_length_le hfits'.1] at hdev
    rw [take_of_length_le hfits.2, take_of_length_le hfits'.2] at hkey
    exact Prod.ext hdev hkey

/-- The conditions of the list, from the whole state. -/
def condView (a : Nat) (l : Logic) (k : Kind) (x : SceneList) : List (CondPtr k × Cond k) :=
  ((x.scene? a).map fun s => (s.list l k).entries).getD []

theorem condView_eq (hs : x.scene? a = some s) : condView a l k x = (s.list l k).entries := by
  rw [condView, hs]
  rfl

/-- What the first pass leaves as it was in `x`. -/
structure Walked (x : SceneList) (s : SceneInfo) (a : Nat) (l : Logic) (k : Kind)
    (y : SceneList) (t : SceneInfo) : Prop where
  indexed : Indexed y
  scene : y.scene? a = some t
  acSceneId : t.acSceneId = s.acSceneId
  flag : t.cManualTriggerFlag = s.cManualTriggerFlag
  table : y.pHashTable = x.pHashTable
  counts : (t.list l k).counts = (s.list l k).counts
  rows : ∀ q ∈ (t.list l k).entries, q.2.IdFits ∧ q.2.isManual l = false

/-- What the first pass makes of a condition that is found. -/
def Cond.met (d c : Cond k) : Cond k := if d.changed c then d.set c else d

theorem Cond.identity_met (d c : Cond k) : (d.met c).identity = d.identity := by
  rw [met]
  split
  · exact identity_set d c
  · rfl

theorem condSyncOps_lawful (hids : ∀ c ∈ target, c.IdFits) :
    (condSyncOps a l k).Lawful target (fun y => ∃ t, Walked x s a l k y t) (condView a l k)
      Cond.met where
  keys y hy := by
    obtain ⟨t, ht⟩ := hy
    rw [condView_eq ht.scene]
    exact (ht.indexed.placed _ (mem_of_scene? ht.scene) l k).entries_nodup
  read y hy q hq := by
    obtain ⟨t, ht⟩ := hy
    rw [condView_eq ht.scene] at hq
    have hchained := (ht.indexed.placed _ (mem_of_scene? ht.scene)).chained
    obtain ⟨-, d, hd, hdc⟩ := (mem_entries_iff hchained).mp hq
    show (y.scene? a).bind (fun s => (s.node? q.1).map CondNode.stCond) = some q.2
    rw [ht.scene, bind_some, hd, map_some, hdc]
  meet y hy q hq c hc hsame := by
    obtain ⟨t, ht⟩ := hy
    have hview := condView_eq (l := l) (k := k) ht.scene
    rw [hview] at hq ⊢
    have hid : q.2.SameId c := (same_iff (ht.rows q hq).1 (hids c hc)).mp hsame
    cases hch : q.2.changed c with
    | false =>
      refine ⟨y, if_neg (by rw [hch]; decide), ⟨t, ht⟩, ?_⟩
      rw [hview]
      symm
      nth_rewrite 2 [← map_id (t.list l k).entries]
      apply map_congr_left
      intro r hr
      split
      · rename_i heq
        have hnodup := (ht.indexed.placed _ (mem_of_scene? ht.scene) l k).entries_nodup
        obtain rfl := Keyed.eq_of_key_eq hnodup hr hq heq
        rw [met, hch]
        rfl
      · rfl
    | true =>
      have hm : c.isManual l = false := by
        rw [← isManual_of_identity_eq (sameId_iff.mp hid)]
        exact (ht.rows q hq).2
      obtain ⟨e, he⟩ := ne_none_iff_exists'.mp (ht.indexed.find_ne_none ht.scene hq hid)
      obtain ⟨hp, hea, d, hd⟩ := ht.indexed.condPtr?_of_sameId ht.scene hq hid he
      obtain ⟨⟨y', r⟩, hadd⟩ : ∃ r, sceneCondAdd y a l c = some r := by
        refine sceneCondAdd_isSome ht.indexed ht.scene fun _ e' he' => ?_
        obtain rfl := some.inj (he.symm.trans he')
        exact ⟨q.1, d, hp, hea, hd⟩
      have hmeet : (condSyncOps a l k).meet y q.1 q.2 c = some y' := by
        show (if q.2.changed c then (sceneCondAdd y a l c).map Prod.fst else some y) = some y'
        rw [if_pos hch, hadd]
        rfl
      obtain ⟨t', ht', hid', hflag, -, hcases⟩ :=
        sceneCondAdd_entries ht.indexed ht.scene hm hadd
      rcases hcases with ⟨e', p, he', hp', -, htable, hcounts, hentries⟩ | ⟨-, -, hnone, -⟩ |
        ⟨-, hnone, -⟩
      · obtain rfl := some.inj (he.symm.trans he')
        obtain rfl := some.inj (hp.symm.trans hp')
        refine ⟨y', hmeet, ⟨t', sceneCondAdd_indexed ht.indexed hadd, ht',
          hid'.trans ht.acSceneId, hflag.trans ht.flag, htable.trans ht.table,
          hcounts.trans ht.counts, fun r' hr' => ?_⟩, ?_⟩
        · rw [hentries] at hr'
          obtain ⟨r, hr, rfl⟩ := mem_map.mp hr'
          have hrow : (if r.1 = q.1 then (r.1, r.2.set c) else r).2.identity =
              r.2.identity := by
            split
            · exact identity_set r.2 c
            · rfl
          obtain ⟨hfits, hman⟩ := ht.rows r hr
          exact ⟨idFits_of_identity_eq hrow hfits,
            (isManual_of_identity_eq hrow).trans hman⟩
        · rw [condView_eq ht', hentries]
          apply map_congr_left
          intro r hr
          split
          · rename_i heq
            have hnodup :=
              (ht.indexed.placed _ (mem_of_scene? ht.scene) l k).entries_nodup
            obtain rfl := Keyed.eq_of_key_eq hnodup hr hq heq
            rw [met, if_pos hch]
          · rfl
      · rw [he] at hnone
        cases hnone
      · rw [he] at hnone
        cases hnone

theorem Indexed.setScene_self (hx : Indexed x) (hs : x.scene? a = some s) :
    x.setScene a s = x := by
  have hsame : (x.setScene a s).stList = x.stList := by
    refine Keyed.map_write_eq_self fun n hn hna => ?_
    rw [Keyed.eq_of_key_eq hx.addrs hn (SceneList.mem_of_scene? hs) hna]
  obtain ⟨ns, t, q, ts, heap⟩ := x
  exact congrArg (fun ms => SceneList.mk ms t q ts heap) hsame

/-- The manual trigger is set whether or not it was: the flag of the scene is no
reason not to add it. -/
theorem condSyncOps_met {y : SceneList} {t : SceneInfo} (hy : Indexed y)
    (ht : y.scene? a = some t) (c : Cond k) (f : Bool) :
    (if (condSyncOps a l k).met y c f then some y else (condSyncOps a l k).add y c) =
      if !c.isManual l && f then some y else (condSyncOps a l k).add y c := by
  have hmet : (condSyncOps a l k).met y c f = if c.isManual l then t.cManualTriggerFlag else f := by
    show (if c.isManual l then (y.scene? a).any (·.cManualTriggerFlag) else f) = _
    rw [ht]
    rfl
  rw [hmet]
  cases hm : c.isManual l with
  | false => simp
  | true =>
    cases hflag : t.cManualTriggerFlag with
    | false => simp
    | true =>
      obtain ⟨⟨y', r⟩, hadd⟩ : ∃ r, sceneCondAdd y a l c = some r :=
        sceneCondAdd_isSome hy ht fun hm' => by rw [hm] at hm'; cases hm'
      rcases sceneCondAdd_cases hadd with ⟨-, t', ht', rfl⟩ | ⟨hm', -⟩
      · obtain rfl := some.inj (ht.symm.trans ht')
        have hself : y.setScene a { t with cManualTriggerFlag := true } = y := by
          rw [← hflag]
          exact hy.setScene_self ht
        show some y = (sceneCondAdd y a l c).map Prod.fst
        rw [hadd, hself]
        rfl
      · rw [hm] at hm'
        cases hm'

theorem CondList.walkPtrs_eq {y : CondList l k} (h : y.iNodeNum ≠ 0) :
    y.walkPtrs = y.entries.map Prod.fst := by
  rw [walkPtrs, walk, if_neg h, entries, map_flatMap]
  congr 1
  funext n
  rw [List.map_map]
  rfl

/-- The conditions the second pass adds. -/
def unmet (l : Logic) (E : List (CondPtr k × Cond k)) (target : List (Cond k)) :
    List (Cond k) :=
  target.filter fun c => !(!c.isManual l && E.any fun q => q.2.same c)

theorem passes_conds (hx : Indexed x) (hs : x.scene? a = some s)
    (hheld : ∀ q ∈ (s.list l k).entries, q.2.IdFits) (hids : ∀ c ∈ target, c.IdFits)
    (hunique : (target.map Cond.identity).Nodup) (hnum : (s.list l k).iNodeNum ≠ 0)
    (hknown : ∀ q ∈ (s.list l k).entries, ∃ c ∈ listed l target, q.2.SameId c) :
    ∃ x₁ s₁, Walked x s a l k x₁ s₁ ∧
      Reconcile.passes (condSyncOps a l k) target (s.list l k).walkPtrs x =
        Reconcile.addAll (condSyncOps a l k) (unmet l (s.list l k).entries target) x₁ ∧
      (∀ q ∈ (s.list l k).entries, ∃ c ∈ listed l target, q.2.SameId c ∧
        (q.1, q.2.met c) ∈ (s₁.list l k).entries) ∧
      ∀ r ∈ (s₁.list l k).entries, ∃ q ∈ (s.list l k).entries, ∃ c ∈ listed l target,
        q.2.SameId c ∧ r = (q.1, q.2.met c) := by
  have hview := condView_eq (l := l) (k := k) hs
  have hrows : ∀ q ∈ (s.list l k).entries, q.2.isManual l = false := by
    intro q hq
    obtain ⟨c, hc, hid⟩ := hknown q hq
    rw [isManual_of_identity_eq (sameId_iff.mp hid)]
    exact (mem_listed.mp hc).2
  have hstart : Walked x s a l k x s :=
    ⟨hx, hs, rfl, rfl, rfl, rfl, fun q hq => ⟨hheld q hq, hrows q hq⟩⟩
  obtain ⟨x₁, ⟨s₁, hwalked⟩, hmet, hpasses⟩ :=
    (condSyncOps_lawful (x := x) (s := s) hids).passes_eq
      (J := fun y => Indexed y ∧ ∃ t, y.scene? a = some t) (g := fun c f => !c.isManual l && f)
      (condSyncOps_distinct hids hunique) (fun y ⟨t, ht⟩ => ⟨ht.indexed, t, ht.scene⟩)
      (fun y ⟨hy, t, ht⟩ c _ f => condSyncOps_met hy ht c f)
      (fun y y' c _ ⟨hy, t, ht⟩ hadd => by
        obtain ⟨⟨y'', r⟩, hsome, rfl⟩ := map_eq_some_iff.mp hadd
        obtain ⟨t', ht', -⟩ := CondGrown.of_sceneCondAdd hy ht hsome
        exact ⟨sceneCondAdd_indexed hy hsome, t', ht'⟩)
      ⟨s, hstart⟩ (fun q hq => by
        rw [hview] at hq
        obtain ⟨c, hc, hid⟩ := hknown q hq
        have hc := (mem_listed.mp hc).1
        exact ⟨c, hc, (same_iff (hheld q hq) (hids c hc)).mpr hid⟩)
  rw [hview] at hpasses hmet
  rw [condView_eq hwalked.scene] at hmet
  have hfound : ∀ q ∈ (s.list l k).entries, ∀ c ∈ target, q.2.same c = true →
      c ∈ listed l target ∧ q.2.SameId c := by
    intro q hq c hc hsame
    have hid := (same_iff (hheld q hq) (hids c hc)).mp hsame
    refine ⟨mem_listed.mpr ⟨hc, ?_⟩, hid⟩
    rw [← isManual_of_identity_eq (sameId_iff.mp hid)]
    exact hrows q hq
  refine ⟨x₁, s₁, hwalked, ?_, fun q hq => ?_, fun r hr => ?_⟩
  · rw [CondList.walkPtrs_eq hnum]
    exact hpasses
  · obtain ⟨r, hr, c, hc, hsame, rfl⟩ := Keyed.exists_of_forall₂ (List.Forall₂.flip hmet) hq
    obtain ⟨hc, hid⟩ := hfound q hq c hc hsame
    exact ⟨c, hc, hid, hr⟩
  · obtain ⟨q, hq, c, hc, hsame, rfl⟩ := Keyed.exists_of_forall₂ hmet hr
    obtain ⟨hc, hid⟩ := hfound q hq c hc hsame
    exact ⟨q, hq, c, hc, hid, rfl⟩

section Unmet

variable {E : List (CondPtr k × Cond k)} (hheld : ∀ q ∈ E, q.2.IdFits)
  (hids : ∀ c ∈ target, c.IdFits)

include hheld hids

theorem mem_listed_unmet {c : Cond k} :
    c ∈ listed l (unmet l E target) ↔
      c ∈ listed l target ∧ ∀ q ∈ E, ¬ q.2.SameId c := by
  rw [mem_listed, mem_listed, unmet, mem_filter]
  constructor
  · rintro ⟨⟨hc, hunmet⟩, hm⟩
    refine ⟨⟨hc, hm⟩, fun q hq hid => ?_⟩
    have hany : E.any (fun q => q.2.same c) = true :=
      List.any_eq_true.mpr ⟨q, hq, (same_iff (hheld q hq) (hids c hc)).mpr hid⟩
    simp [hm, hany] at hunmet
  · rintro ⟨⟨hc, hm⟩, hnot⟩
    refine ⟨⟨hc, ?_⟩, hm⟩
    have hany : E.any (fun q => q.2.same c) = false := by
      rw [List.any_eq_false]
      intro q hq hsame
      exact hnot q hq ((same_iff (hheld q hq) (hids c hc)).mp hsame)
    simp [hany]

theorem unfiled_unmet (hx : Indexed x) (hs : x.scene? a = some s)
    (hE : (s.list l k).entries = E) :
    unfiled x s (listed l (unmet l E target)) = unfiled x s (listed l target) := by
  have hfilter : listed l (unmet l E target) =
      (listed l target).filter fun c => !E.any fun q => q.2.same c := by
    rw [listed, unmet, listed, List.filter_filter, List.filter_filter]
    refine filter_congr fun c _ => ?_
    cases c.isManual l <;> simp
  rw [hfilter, unfiled, unfiled, countP_filter]
  refine countP_congr fun c hc => ?_
  rw [Bool.and_eq_true]
  refine and_iff_left_of_imp fun hnone => ?_
  rw [Bool.not_eq_true', List.any_eq_false]
  intro q hq hsame
  have hid := (same_iff (hheld q hq) (hids c (mem_listed.mp hc).1)).mp hsame
  rw [← hE] at hq
  exact hx.find_ne_none hs hq hid (isNone_iff_eq_none.mp hnone)

end Unmet

end Passes

/-! ## The whole reconciliation -/

section Sync

variable {x : SceneList} {a : Nat} {s : SceneInfo} {target : List (Cond k)}

theorem Addable.of_walked {x₁ : SceneList} {s₁ : SceneInfo} {cs : List (Cond k)}
    (hwalked : Walked x s a l k x₁ s₁) (hfits : ∀ c ∈ target, c.Fits)
    (htexts : ((listed l target).map Cond.hashKey).Nodup)
    (hfree : ∀ c ∈ listed l cs, ptrHashFind x.pHashTable c.hashKey s.acSceneId = none)
    (hcs : List.Sublist cs target) : Addable x₁ s₁ l cs where
  fits c hc := hfits c (hcs.subset (mem_listed.mp hc).1)
  texts := ((hcs.filter _).map _).nodup htexts
  aimed c hc := by
    rw [hwalked.table, hwalked.acSceneId]
    exact .inl (hfree c hc)

theorem addAll_conds_iff (hx : Indexed x) (hs : x.scene? a = some s)
    (hunique : (target.map Cond.identity).Nodup) (haddable : Addable x s l target)
    (hknown : ∀ q ∈ (s.list l k).entries, ∃ c ∈ listed l target, q.2.SameId c) :
    (∃ x' s', Reconcile.addAll (condSyncOps a l k) target x = some x' ∧
        x'.scene? a = some s' ∧ CondsAre s' l target) ↔
      Takes k (unfiled x s (listed l target)) (s.list l k).counts ∧
        (l = .or → k = .event → s.cManualTriggerFlag = true →
          ∃ c ∈ target, c.isManual l = true) := by
  obtain ⟨x', s', hall, hx', hs', hadded⟩ := haddable.addAll hx hs
  have hremaining : Remaining s l target target :=
    ⟨fun _ hc => hc, hknown, fun c hc => .inl hc, Iff.rfl⟩
  have hiff := hremaining.condsAre_iff hx' hs' hunique hadded
  constructor
  · rintro ⟨y, t, hy, ht, hare⟩
    obtain rfl := some.inj (hall.symm.trans hy)
    obtain rfl := some.inj (hs'.symm.trans ht)
    obtain ⟨hroom, -, hmanual⟩ := hiff.mp hare
    exact ⟨hroom, hmanual⟩
  · rintro ⟨hroom, hmanual⟩
    refine ⟨x', s', hall, hs', hiff.mpr ⟨hroom, fun q hq hnot => ?_, hmanual⟩⟩
    obtain ⟨c, hc, hid⟩ := hknown q hq
    exact absurd hid (hnot c hc)

theorem passes_conds_iff (hx : Indexed x) (hs : x.scene? a = some s)
    (hheld : ∀ q ∈ (s.list l k).entries, q.2.IdFits) (hfits : ∀ c ∈ target, c.Fits)
    (hids : ∀ c ∈ target, c.IdFits) (hunique : (target.map Cond.identity).Nodup)
    (hnum : (s.list l k).iNodeNum ≠ 0)
    (hknown : ∀ q ∈ (s.list l k).entries, ∃ c ∈ listed l target, q.2.SameId c)
    (hfree : ∀ c ∈ listed l target, (∀ q ∈ (s.list l k).entries, ¬ q.2.SameId c) →
      ptrHashFind x.pHashTable c.hashKey s.acSceneId = none)
    (htexts : ((listed l target).map Cond.hashKey).Nodup) :
    (∃ x' s', Reconcile.passes (condSyncOps a l k) target (s.list l k).walkPtrs x = some x' ∧
        x'.scene? a = some s' ∧ CondsAre s' l target) ↔
      Takes k (unfiled x s (listed l target)) (s.list l k).counts ∧
        (∀ q ∈ (s.list l k).entries, ∀ c ∈ listed l target, q.2.SameId c →
          q.2.changed c = false → q.2.passed = c.passed) ∧
        (l = .or → k = .event → s.cManualTriggerFlag = true →
          ∃ c ∈ target, c.isManual l = true) := by
  obtain ⟨x₁, s₁, hwalked, hpasses, hmet, hrows⟩ :=
    passes_conds hx hs hheld hids hunique hnum hknown
  have hmem := fun c => mem_listed_unmet (l := l) (c := c) hheld hids
  have haddable : Addable x₁ s₁ l (unmet l (s.list l k).entries target) :=
    .of_walked hwalked hfits htexts (fun c hc => hfree c ((hmem c).mp hc).1 ((hmem c).mp hc).2)
      filter_sublist
  -- a row that was met has the identity of the one it was, which no addition has
  have hnot : ∀ q ∈ (s.list l k).entries, ∀ d, ∀ c ∈ listed l (unmet l (s.list l k).entries target),
      ¬ (q.2.met d).SameId c := by
    intro q hq d c hc hid
    refine ((hmem c).mp hc).2 q hq ?_
    rw [sameId_iff, identity_met] at hid
    exact sameId_iff.mpr hid
  have hremaining : Remaining s₁ l (unmet l (s.list l k).entries target) target := by
    refine ⟨fun c hc => ((hmem c).mp hc).1, fun r hr => ?_, fun c hc => ?_, ?_⟩
    · obtain ⟨q, hq, c, hc, hid, rfl⟩ := hrows r hr
      refine ⟨c, hc, ?_⟩
      rw [sameId_iff, identity_met]
      exact sameId_iff.mp hid
    · by_cases hrow : ∃ q ∈ (s.list l k).entries, q.2.SameId c
      · obtain ⟨q, hq, hid⟩ := hrow
        obtain ⟨d, -, -, hmem'⟩ := hmet q hq
        refine .inr ⟨_, hmem', ?_, hnot q hq d⟩
        rw [sameId_iff, identity_met]
        exact sameId_iff.mp hid
      · exact .inl ((hmem c).mpr ⟨hc, fun q hq hid => hrow ⟨q, hq, hid⟩⟩)
    · constructor
      · rintro ⟨c, hc, hm⟩
        exact ⟨c, mem_of_mem_filter hc, hm⟩
      · rintro ⟨c, hc, hm⟩
        exact ⟨c, mem_filter.mpr ⟨hc, by simp [hm]⟩, hm⟩
  obtain ⟨x', s', hall, hx', hs', hadded⟩ := haddable.addAll hwalked.indexed hwalked.scene
  have hiff := hremaining.condsAre_iff hx' hs' hunique hadded
  have hunfiled : unfiled x₁ s₁ (listed l (unmet l (s.list l k).entries target)) =
      unfiled x s (listed l target) := by
    rw [← unfiled_unmet hheld hids hx hs rfl, unfiled, unfiled, hwalked.table, hwalked.acSceneId]
  have hseen : (∀ r ∈ (s₁.list l k).entries,
      (∀ c ∈ listed l (unmet l (s.list l k).entries target), ¬ r.2.SameId c) →
        ∀ c ∈ listed l target, r.2.SameId c → r.2.passed = c.passed) ↔
      ∀ q ∈ (s.list l k).entries, ∀ c ∈ listed l target, q.2.SameId c →
        q.2.changed c = false → q.2.passed = c.passed := by
    constructor
    · intro h q hq c hc hid hch
      obtain ⟨d, hd, hidd, hmem'⟩ := hmet q hq
      obtain rfl := eq_of_mem_listed hunique hd hc (Cond.SameId.trans_right hid hidd)
      have hsame : q.2.met d = q.2 := if_neg (by rw [hch]; decide)
      rw [hsame] at hmem'
      exact h _ hmem' (fun c' hc' hid' => ((hmem c').mp hc').2 q hq hid') d hd hid
    · intro h r hr _ c hc hid
      obtain ⟨q, hq, d, hd, hidd, rfl⟩ := hrows r hr
      have hid' : q.2.SameId c := by
        rw [sameId_iff, identity_met] at hid
        exact sameId_iff.mpr hid
      obtain rfl := eq_of_mem_listed hunique hd hc (Cond.SameId.trans_right hid' hidd)
      show (q.2.met d).passed = d.passed
      rw [met]
      split
      · exact (passed_set_iff (hfits d (mem_listed.mp hd).1)).mpr hidd
      · rename_i hch
        exact h q hq d hd hidd (by simpa using hch)
  rw [hpasses]
  rw [hunfiled, hwalked.counts, hseen, hwalked.flag] at hiff
  constructor
  · rintro ⟨y, t, hy, ht, hare⟩
    obtain rfl := some.inj (hall.symm.trans hy)
    obtain rfl := some.inj (hs'.symm.trans ht)
    exact hiff.mp hare
  · intro h
    exact ⟨x', s', hall, hs', hiff.mpr h⟩

/-- An empty array empties a list that can be emptied; the flag stays. -/
theorem sceneCondClear_condsAre_iff (hs : x.scene? a = some s)
    (hnum : (s.list l k).iNodeNum ≠ 0) :
    (∃ x' s', sceneCondClear x a l k = some x' ∧ x'.scene? a = some s' ∧
        CondsAre s' l ([] : List (Cond k))) ↔
      (s.list l k).clear.stList = [] ∧ (l = .or → k = .event → s.cManualTriggerFlag = false) := by
  have hgen : sceneCondClear x a l k = condClear x a l k := by
    cases l <;> cases k <;> rfl
  rw [hgen, condClear, hs, bind_eq_bind, bind_some]
  by_cases hclear : (s.list l k).clear.stList = []
  · rw [if_neg fun h => h.2 hclear]
    constructor
    · rintro ⟨x', s', hx', hs', hare⟩
      cases hx'
      obtain rfl := some.inj ((scene?_setScene_self hs _).symm.trans hs')
      refine ⟨hclear, fun hl hk => ?_⟩
      have hmanual := hare.manual hl hk
      rw [cManualTriggerFlag_setList] at hmanual
      simpa using hmanual
    · rintro ⟨-, hflag⟩
      refine ⟨_, _, rfl, scene?_setScene_self hs _, ?_, fun hl hk => ?_⟩
      · rw [list_setList_self, CondList.entries, hclear]
        exact List.Perm.refl _
      · rw [cManualTriggerFlag_setList, hflag hl hk]
        simp
  · rw [if_pos ⟨hnum, hclear⟩]
    refine iff_of_false ?_ fun h => hclear h.1
    rintro ⟨x', s', hx', -⟩
    cases hx'

/-- A reconciliation leaves the conditions of the array exactly when it deletes
none, sees every difference, and has texts of their own and room for those it
adds. -/
theorem condSync_conds_iff (hx : Indexed x) (hs : x.scene? a = some s)
    (hheld : ∀ q ∈ (s.list l k).entries, q.2.IdFits) (hfits : ∀ c ∈ target, c.Fits)
    (hids : ∀ c ∈ target, c.IdFits) (hunique : (target.map Cond.identity).Nodup) :
    (∃ x' s', condSync x a l target = some x' ∧ x'.scene? a = some s' ∧ CondsAre s' l target) ↔
      CondSyncOk x s l target := by
  have hsync : condSync x a l target = sync (condSyncOps a l k)
      (fun x => sceneCondClear x a l k) ((s.list l k).iNodeNum = 0) (s.list l k).walkPtrs
      target x := by
    rw [condSync, hs]
    rfl
  rw [hsync]
  by_cases hnil : target ≠ [] ∨ (s.list l k).iNodeNum = 0
  · -- what both sides say about the list and the hash table
    have haddable : ∀ (_ : ∀ c ∈ listed l target, (∀ q ∈ (s.list l k).entries,
        ¬ q.2.SameId c) → ptrHashFind x.pHashTable c.hashKey s.acSceneId = none)
        (_ : ((listed l target).map hashKey).Nodup), Addable x s l target := by
      intro hfree htexts
      refine ⟨fun c hc => hfits c (mem_listed.mp hc).1, htexts, fun c hc => ?_⟩
      by_cases hrow : ∃ q ∈ (s.list l k).entries, q.2.SameId c
      · exact .inr hrow
      · exact .inl (hfree c hc fun q hq hid => hrow ⟨q, hq, hid⟩)
    have hclears : target = [] → (s.list l k).iNodeNum ≠ 0 → (s.list l k).clear.stList = [] := by
      intro htarget hnum
      rcases hnil with hne | hzero
      · exact absurd htarget hne
      · exact absurd hzero hnum
    constructor
    · rintro ⟨x', s', h, hs', hare⟩
      obtain ⟨hx', t, ht, hgrown⟩ := CondGrown.of_sync hx hs (by simpa using hnil) h
      obtain rfl := some.inj (hs'.symm.trans ht)
      obtain ⟨hknown, hfree, htexts⟩ := hgrown.known_of_condsAre hx' hs' hunique hare
      rw [sync] at h
      by_cases hnum : (s.list l k).iNodeNum = 0
      · rw [if_pos (by simpa using hnum)] at h
        obtain ⟨hroom, hmanual⟩ := (addAll_conds_iff hx hs hunique
          (haddable hfree htexts) hknown).mp ⟨x', s', h, hs', hare⟩
        exact ⟨hclears, fun _ => hknown, fun hne => absurd hnum hne, hfree, htexts, hroom, hmanual⟩
      · rw [if_neg (by simpa using hnum), if_neg (hnil.resolve_right hnum)] at h
        obtain ⟨hroom, hseen, hmanual⟩ := (passes_conds_iff hx hs hheld hfits hids hunique hnum
          hknown hfree htexts).mp ⟨x', s', h, hs', hare⟩
        exact ⟨hclears, fun _ => hknown, fun _ => hseen, hfree, htexts, hroom, hmanual⟩
    · intro hok
      rw [sync]
      by_cases hnum : (s.list l k).iNodeNum = 0
      · rw [if_pos (by simpa using hnum)]
        exact (addAll_conds_iff hx hs hunique (haddable hok.free hok.texts) (hok.known hnil)).mpr
          ⟨hok.room, hok.manual⟩
      · rw [if_neg (by simpa using hnum), if_neg (hnil.resolve_right hnum)]
        exact (passes_conds_iff hx hs hheld hfits hids hunique hnum (hok.known hnil) hok.free
          hok.texts).mpr ⟨hok.room, hok.seen hnum, hok.manual⟩
  · obtain ⟨rfl, hnum⟩ : target = [] ∧ (s.list l k).iNodeNum ≠ 0 := by simpa using hnil
    rw [sync, if_neg (by simpa using hnum), if_pos rfl,
      sceneCondClear_condsAre_iff hs hnum]
    constructor
    · rintro ⟨hclear, hflag⟩
      refine ⟨fun _ _ => hclear, fun h => absurd h hnil, ?_, ?_, nodup_nil, trivial, ?_⟩
      · exact fun _ q _ c hc => absurd hc not_mem_nil
      · exact fun c hc => absurd hc not_mem_nil
      · intro hl hk hset
        rw [hflag hl hk] at hset
        cases hset
    · intro hok
      refine ⟨hok.clears rfl hnum, fun hl hk => ?_⟩
      rw [← Bool.not_eq_true]
      intro hset
      obtain ⟨c, hc, -⟩ := hok.manual hl hk hset
      cases hc

end Sync

/-! ## All reconciliations -/

/-- The texts the list holds fit their arrays. -/
structure SceneList.Fits (x : SceneList) : Prop where
  texts : ∀ n ∈ x.stList, n.stSceneInfo.text.Fits
  conds : ∀ n ∈ x.stList, ∀ l k, ∀ q ∈ (n.stSceneInfo.list l k).entries, q.2.IdFits

theorem Indexed.named {x : SceneList} (hx : Indexed x) (hheld : x.Fits) : x.Named where
  addrs := hx.addrs
  ids := by
    have hids : (x.stList.map fun n => n.stSceneInfo.acSceneId.take indexMaxLen) =
        x.stList.map fun n => n.stSceneInfo.acSceneId :=
      map_congr_left fun n hn => take_of_length_le (hheld.texts n hn).acSceneId
    exact hids ▸ hx.ids
  fits := hheld.texts

namespace Sample

/-- Another scene. -/
def otherText : SceneText := { text with acSceneId := ['2'] }

theorem text_fits : text.Fits := ⟨by decide, by decide, by decide, by decide, by decide, by decide⟩

theorem otherText_fits : otherText.Fits :=
  ⟨by decide, by decide, by decide, by decide, by decide, by decide⟩

theorem engineAfter_emptyRun_fits : (engineAfter emptyRun).list.Fits := by
  have hlist : (engineAfter emptyRun).list.stList = [⟨0, .new text⟩] := by decide
  constructor
  · rw [hlist]
    rintro n hn
    obtain rfl := mem_singleton.mp hn
    exact text_fits
  · rw [hlist]
    rintro n hn l k q hq
    obtain rfl := mem_singleton.mp hn
    have hnil : ((new text).list l k).entries = [] := by
      cases l <;> cases k <;> rfl
    rw [hnil] at hq
    cases hq

end Sample

end Honyar.LocalScene
