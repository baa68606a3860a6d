import Honyar.LocalScene.Request

/-!
# Executing a scene by request

`hyScene_Exec` of `scene.c`.  A request with an `Enable` that is not the one of the
scene sets it first: the record of the scene is copied text by text, the new
`Enable` put in, and the copy handed to `scene_list_set`, which writes all texts
into the scene and queues the `UPDATE` of its row.  Two of the copies are made
with the length of another field.
-/

namespace Honyar.LocalScene

open CText Option List

/-- What `hyScene_Exec` answers with. -/
inductive ExecAnswer where
  | noErr
  | jsonFormatErr
  | notFoundErr
  | generalErr
deriving DecidableEq, Repr

/-- `scene_list_set_db`: the texts of the `UPDATE` statement for the copy
`scene_list_set` makes. -/
def sceneListSetDb (i : SceneText) : SceneText where
  acSceneId := strncpy indexMaxLen i.acSceneId
  acSceneName := strncpy nameMaxLen i.acSceneName
  acSceneEnable := strncpy stateMaxLen i.acSceneEnable
  acExecDelayed := strncpy delayedMaxLen i.acExecDelayed
  acUpdateTime := strncpy timeMaxLen i.acUpdateTime
  acNote := strncpy noteMaxLen i.acNote

/-- `stScene` of `hyScene_Exec`. -/
def execText (acSceneId acSceneEnable : CText) (s : SceneInfo) : SceneText where
  acSceneId := strncpy indexMaxLen acSceneId
  -- the name is copied with the length of an id
  acSceneName := strncpy indexMaxLen s.acSceneName
  acSceneEnable := strncpy stateMaxLen acSceneEnable
  -- and the delay with the length of a state
  acExecDelayed := strncpy stateMaxLen s.acExecDelayed
  acUpdateTime := strncpy timeMaxLen s.acUpdateTime
  acNote := strncpy noteMaxLen s.acNote

/-- What a request leaves: the scenes, the statements queued for the table of the
scenes, what was put into the execution queue, and the answer. -/
structure ExecResult where
  list : SceneList
  updates : List SceneText
  effects : List Effect
  answer : ExecAnswer

/-- The end of `hyScene_Exec`: an enabled scene is activated. -/
def execActive (x : SceneList) (updates : List SceneText) (iTime : Int) (a : Nat)
    (acSceneEnable : CText) : Option ExecResult := do
  if strncmpEq stateMaxLen acSceneEnable ['1'] then
    let (x, os) ← x.active iTime a
    return ⟨x, updates, os, .noErr⟩
  else return ⟨x, updates, [], .noErr⟩

/-- `hyScene_Exec`. -/
def hySceneExec (x : SceneList) (iTime : Int) (pstData : Json) : Option ExecResult :=
  match readField "Id" indexMaxLen pstData with
  | none => some ⟨x, [], [], .jsonFormatErr⟩
  | some acSceneId =>
    match sceneListGet x acSceneId with
    | none => some ⟨x, [], [], .notFoundErr⟩
    | some a => do
      let s ← x.scene? a
      match readField "Enable" stateMaxLen pstData with
      | some acSceneEnable =>
        if strncmpEq stateMaxLen s.acSceneEnable acSceneEnable then
          execActive x [] iTime a acSceneEnable
        else
          let i := execText acSceneId acSceneEnable s
          let (y, iRet) := sceneListSet x i
          if iRet ≠ .noErr then return ⟨y, [], [], .generalErr⟩
          else execActive y [sceneListSetDb i] iTime a acSceneEnable
      | none => execActive x [] iTime a (strncpy stateMaxLen s.acSceneEnable)

/-! ## What a change of the enable state changes -/

/-- Of the scene at `a` only `acSceneEnable` is changed, and the statement queued
has its other texts as they were. -/
structure EnableOnly (x : SceneList) (a : Nat) (s : SceneInfo) (acSceneEnable : CText)
    (r : ExecResult) : Prop where
  scene : r.list.scene? a = some { s with acSceneEnable := acSceneEnable }
  others : ∀ b, b ≠ a → r.list.scene? b = x.scene? b
  pHashTable : r.list.pHashTable = x.pHashTable
  timers : r.list.timers = x.timers
  updates : r.updates = [{ s.text with acSceneEnable := acSceneEnable }]

section Exec

variable {x : SceneList} {a : Nat} {s : SceneInfo} {acSceneId acSceneEnable : CText}

theorem length_readField {pcKey : String} {iValueLen : Nat} {pstData : Json} {t : CText}
    (h : readField pcKey iValueLen pstData = some t) : t.length ≤ iValueLen := by
  unfold readField Json.valueGet at h
  split at h <;> cases h
  · exact Nat.zero_le _
  · exact (length_take_le _ _).trans (Nat.sub_le _ _)
  · exact (length_take_le _ _).trans (Nat.sub_le _ _)
  · exact length_take_le _ _

theorem active_eq (iTime : Int) (hs : x.scene? a = some s) :
    ∃ q os, x.active iTime a = some ({ x with pstExecQueue := q }, os) := by
  simp only [SceneList.active, hs, bind_eq_bind, bind_some]
  split
  · split
    · exact ⟨_, _, rfl⟩
    · exact ⟨x.pstExecQueue, [], rfl⟩
  · split
    · split
      · exact ⟨_, _, rfl⟩
      · exact ⟨x.pstExecQueue, [], rfl⟩
    · exact ⟨x.pstExecQueue, [], rfl⟩

theorem execActive_eq (updates : List SceneText) (iTime : Int) (acSceneEnable : CText)
    (hs : x.scene? a = some s) :
    ∃ q os, execActive x updates iTime a acSceneEnable =
      some ⟨{ x with pstExecQueue := q }, updates, os, .noErr⟩ := by
  unfold execActive
  split
  · obtain ⟨q, os, h⟩ := active_eq iTime hs
    exact ⟨q, os, by rw [h]; rfl⟩
  · exact ⟨x.pstExecQueue, [], rfl⟩

theorem sceneListSet_eq {i : SceneText} (hget : sceneListGet x i.acSceneId = some a)
    (hs : x.scene? a = some s) :
    ∃ y, sceneListSet x i = (y, .noErr) ∧ y.scene? a = some (s.setText i) ∧
      (∀ b, b ≠ a → y.scene? b = x.scene? b) ∧ y.pHashTable = x.pHashTable ∧
      y.timers = x.timers := by
  let f : SceneNode → SceneNode := fun n => { n with stSceneInfo := n.stSceneInfo.setText i }
  have hfind : ∀ b, (x.stList.map fun n => if n.addr = a then f n else n).find?
      (fun n => n.addr == b) = (x.stList.find? fun n => n.addr == b).map
        fun n => if b = a then f n else n := fun b =>
    Keyed.find?_map_write (f := f) (fun _ => rfl) x.stList a b
  refine ⟨{ x with stList := x.stList.map fun n => if n.addr = a then f n else n }, ?_, ?_,
    fun b hb => ?_, rfl, rfl⟩
  · rw [sceneListSet, hget]
    rfl
  · obtain ⟨n, hn, rfl⟩ := map_eq_some_iff.mp hs
    rw [SceneList.scene?, hfind, hn, map_some, map_some, if_pos rfl]
  · rw [SceneList.scene?, SceneList.scene?, hfind]
    simp only [if_neg hb, Option.map_id']

theorem sceneListGet_strncpy (x : SceneList) (acSceneId : CText) :
    sceneListGet x (strncpy indexMaxLen acSceneId) = sceneListGet x acSceneId := by
  simp only [sceneListGet, strncpy, take_take, min_self]

/-- The texts are copied whole exactly when name and delay are no longer than the
lengths they are copied with. -/
theorem setText_execText_iff (hfits : s.text.Fits) (henable : acSceneEnable.length ≤ stateMaxLen) :
    s.setText (execText acSceneId acSceneEnable s) = { s with acSceneEnable := acSceneEnable } ↔
      s.acSceneName.length ≤ indexMaxLen ∧ s.acExecDelayed.length ≤ stateMaxLen := by
  have hfitsUpdate : s.acUpdateTime.length ≤ timeMaxLen := hfits.acUpdateTime
  have hfitsNote : s.acNote.length ≤ noteMaxLen := hfits.acNote
  have hupdate : strncpy timeMaxLen (strncpy timeMaxLen s.acUpdateTime) = s.acUpdateTime := by
    rw [strncpy, strncpy, take_take, min_self, take_of_length_le hfitsUpdate]
  have hnote : strncpy noteMaxLen (strncpy noteMaxLen s.acNote) = s.acNote := by
    rw [strncpy, strncpy, take_take, min_self, take_of_length_le hfitsNote]
  have hstate : strncpy stateMaxLen (strncpy stateMaxLen acSceneEnable) = acSceneEnable := by
    rw [strncpy, strncpy, take_take, min_self, take_of_length_le henable]
  have hname : strncpy nameMaxLen (strncpy indexMaxLen s.acSceneName) =
      s.acSceneName.take indexMaxLen := by
    rw [strncpy, strncpy, take_take]
    rfl
  have hdelay : strncpy delayedMaxLen (strncpy stateMaxLen s.acExecDelayed) =
      s.acExecDelayed.take stateMaxLen := by
    rw [strncpy, strncpy, take_take]
    rfl
  have hset : s.setText (execText acSceneId acSceneEnable s) =
      { s with
        acSceneName := s.acSceneName.take indexMaxLen
        acSceneEnable := acSceneEnable
        acExecDelayed := s.acExecDelayed.take stateMaxLen } := by
    rw [SceneInfo.setText, SceneInfo.copyText, execText]
    simp only [hname, hdelay, hstate, hupdate, hnote]
  rw [hset, SceneInfo.mk.injEq]
  simp only [true_and, and_true, take_eq_self_iff]

theorem sceneListSetDb_eq {i : SceneText} (hid : strncpy indexMaxLen i.acSceneId = s.acSceneId) :
    sceneListSetDb i = (s.setText i).text := by
  rw [sceneListSetDb, hid]
  rfl

theorem strncpy_of_sceneListGet (hx : Indexed x) (hget : sceneListGet x acSceneId = some a)
    (hs : x.scene? a = some s) (hfits : s.text.Fits) :
    strncpy indexMaxLen acSceneId = s.acSceneId := by
  obtain ⟨n, hn, rfl⟩ := map_eq_some_iff.mp hget
  have hfound := find?_some hn
  rw [hx.scene?_eq_some (mem_of_find?_eq_some hn), some.injEq] at hs
  subst hs
  exact ((strncmpEq_of_length_le hfits.acSceneId (length_take_le _ _)).mp hfound).symm

end Exec

/-- A request with a new `Enable` changes nothing else of the scene, and of its
row, exactly when its name is no longer than an id and its delay no longer than a
state. -/
theorem hySceneExec_enableOnly_iff {x : SceneList} (hx : Indexed x) {pstData : Json}
    {acSceneId acSceneEnable : CText} {a : Nat} {s : SceneInfo}
    (hid : readField "Id" indexMaxLen pstData = some acSceneId)
    (hget : sceneListGet x acSceneId = some a) (hs : x.scene? a = some s) (hfits : s.text.Fits)
    (henable : readField "Enable" stateMaxLen pstData = some acSceneEnable)
    (hne : strncmpEq stateMaxLen s.acSceneEnable acSceneEnable = false) (iTime : Int) :
    ∃ r, hySceneExec x iTime pstData = some r ∧ r.answer = .noErr ∧
      (EnableOnly x a s acSceneEnable r ↔
        s.acSceneName.length ≤ indexMaxLen ∧ s.acExecDelayed.length ≤ stateMaxLen) := by
  have hown := strncpy_of_sceneListGet hx hget hs hfits
  let i := execText acSceneId acSceneEnable s
  have hget' : sceneListGet x i.acSceneId = some a :=
    (sceneListGet_strncpy x acSceneId).trans hget
  obtain ⟨y, hset, hy, hothers, hhash, htimers⟩ := sceneListSet_eq hget' hs
  obtain ⟨q, os, hactive⟩ := execActive_eq [sceneListSetDb i] iTime acSceneEnable hy
  have hexec : hySceneExec x iTime pstData =
      some ⟨{ y with pstExecQueue := q }, [sceneListSetDb i], os, .noErr⟩ := by
    simp only [hySceneExec, hid, hget, hs, henable, hne, bind_eq_bind, bind_some]
    rw [if_neg Bool.false_ne_true, hset]
    exact hactive
  have hwhole := @setText_execText_iff s acSceneId acSceneEnable hfits (length_readField henable)
  refine ⟨_, hexec, rfl, fun h => ?_, fun hshort => ?_⟩
  · have hscene : y.scene? a = some { s with acSceneEnable := acSceneEnable } := h.scene
    rw [hy, some.injEq] at hscene
    exact hwhole.mp hscene
  · have hcopy := hwhole.mpr hshort
    have hstatement : sceneListSetDb i = { s.text with acSceneEnable := acSceneEnable } := by
      have hidcopy : strncpy indexMaxLen i.acSceneId = s.acSceneId := by
        show (acSceneId.take indexMaxLen).take indexMaxLen = s.acSceneId
        rw [take_take, min_self]
        exact hown
      rw [sceneListSetDb_eq hidcopy, hcopy]
      rfl
    exact {
      scene := hy.trans (congrArg some hcopy)
      others := hothers
      pHashTable := hhash
      timers := htimers
      updates := congrArg (fun i => [i]) hstatement }

namespace Sample

/-- A request to disable the scene with the id `1`. -/
def disableRequest : Json :=
  .object [(['I', 'd'], .string ['1']), (['E', 'n', 'a', 'b', 'l', 'e'], .string ['0'])]

/-- A scene whose name has 65 characters. -/
def longNameText : SceneText := { text with acSceneName := List.replicate 65 'n' }

end Sample

/-- The scene of the sample list is disabled. -/
theorem hySceneExec_enableOnly_list :
    ∃ r, hySceneExec Sample.list 0 Sample.disableRequest = some r ∧ r.answer = .noErr ∧
      (EnableOnly Sample.list 0 (.new Sample.text) ['0'] r ↔
        Sample.text.acSceneName.length ≤ indexMaxLen ∧
          Sample.text.acExecDelayed.length ≤ stateMaxLen) :=
  hySceneExec_enableOnly_iff (hySceneAdd_indexed indexed_init) rfl rfl rfl
    ⟨by decide, by decide, by decide, by decide, by decide, by decide⟩ rfl rfl 0

/-- A name of 65 characters loses its last one. -/
theorem hySceneExec_cuts_name :
    ∃ r, hySceneExec (hySceneAdd .init Sample.longNameText) 0 Sample.disableRequest = some r ∧
      r.list.scene? 0 = some { SceneInfo.new Sample.longNameText with
        acSceneName := List.replicate 64 'n'
        acSceneEnable := ['0'] } ∧
      ¬EnableOnly (hySceneAdd .init Sample.longNameText) 0 (.new Sample.longNameText) ['0'] r := by
  refine ⟨_, rfl, rfl, fun h => ?_⟩
  have hname := congrArg (Option.map SceneInfo.acSceneName) h.scene
  exact absurd (some.inj hname) (by decide)

end Honyar.LocalScene
