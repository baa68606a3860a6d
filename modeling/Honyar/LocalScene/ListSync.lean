import Honyar.Lib.Reconcile
import Honyar.LocalScene.Integrity

/-!
# Bringing the scenes and panels to an array

`scene_list_sync` and `scene_bind_sync` of `scene_list.c`.  Both search the array
with an index that is read again behind the search: where a record of the list
is not in the array, the record to be deleted is taken from behind its end.

`scene_bind_sync` has two more differences: a panel that is found is not brought
up to date, and an empty array leaves the chain of panels as it was, although
`scene_bind_clear` has freed them.
-/

namespace Honyar.LocalScene

open CText Option List SceneInfo SceneList ScenePanel Reconcile Keyed

/-! ## Scenes -/

/-- The texts of a scene. -/
def SceneInfo.text (s : SceneInfo) : SceneText where
  acSceneId := s.acSceneId
  acSceneName := s.acSceneName
  acSceneEnable := s.acSceneEnable
  acExecDelayed := s.acExecDelayed
  acUpdateTime := s.acUpdateTime
  acNote := s.acNote

/-- One of the texts but the id differs. -/
def SceneText.changed (d c : SceneText) : Bool :=
  !strncmpEq nameMaxLen d.acSceneName c.acSceneName ||
    !strncmpEq stateMaxLen d.acSceneEnable c.acSceneEnable ||
    !strncmpEq delayedMaxLen d.acExecDelayed c.acExecDelayed ||
    !strncmpEq timeMaxLen d.acUpdateTime c.acUpdateTime ||
    !strncmpEq noteMaxLen d.acNote c.acNote

/-- The copies into the node of the walk.  The note is copied with a length of
`NOT_WITHIN`, which is 0. -/
def SceneInfo.copyText (s : SceneInfo) (i : SceneText) : SceneInfo :=
  { s with
    acSceneName := strncpy nameMaxLen i.acSceneName
    acSceneEnable := strncpy stateMaxLen i.acSceneEnable
    acExecDelayed := strncpy delayedMaxLen i.acExecDelayed
    acUpdateTime := strncpy timeMaxLen i.acUpdateTime }

/-- The nodes of the hash table that go with a scene: those of the conditions
its four lists walk and of its panels. -/
def SceneInfo.release (s : SceneInfo) (h : PtrHash) : PtrHash :=
  let del {k : Kind} (h : PtrHash) (cs : List (Cond k)) : PtrHash :=
    cs.foldl (fun h c => ptrHashDel h c.hashKey s.acSceneId) h
  let h := del h (s.list .or .time).conds
  let h := del h (s.list .or .event).conds
  let h := del h (s.list .and .time).conds
  let h := del h (s.list .and .event).conds
  s.pstPanel.foldl (fun h n => ptrHashDel h n.stPanel.hashKey s.acSceneId) h

/-- `scene_list_clear`. -/
def sceneListClear (x : SceneList) : SceneList :=
  { x with
    stList := []
    pHashTable := x.stList.foldl (fun h n => n.stSceneInfo.release h) x.pHashTable }

/-- The parts of `scene_list_sync`. -/
def sceneListSyncOps : Reconcile.Ops SceneList Nat SceneText SceneText where
  read x a := (x.scene? a).map SceneInfo.text
  same d c := strncmpEq indexMaxLen d.acSceneId c.acSceneId
  meet x a d c :=
    if d.changed c then
      let x := { x with stList := x.stList.map fun n =>
        if n.addr = a then { n with stSceneInfo := n.stSceneInfo.copyText c } else n }
      some (sceneListSet x c).1
    else some x
  del x c := (sceneListDel x c.acSceneId).map Prod.fst
  add x c := some (sceneListAdd x c)
  met _ _ flag := flag

/-- `scene_list_sync`. -/
def sceneListSync (x : SceneList) (pastInfo : List SceneText) : Option SceneList :=
  Reconcile.sync sceneListSyncOps (fun x => some (sceneListClear x)) x.stList.isEmpty
    (x.stList.map SceneNode.addr) pastInfo x

/-- The texts fit the arrays of `scene_info_t`. -/
structure SceneText.Fits (i : SceneText) : Prop where
  acSceneId : i.acSceneId.length ≤ indexMaxLen
  acSceneName : i.acSceneName.length ≤ nameMaxLen
  acSceneEnable : i.acSceneEnable.length ≤ stateMaxLen
  acExecDelayed : i.acExecDelayed.length ≤ delayedMaxLen
  acUpdateTime : i.acUpdateTime.length ≤ timeMaxLen
  acNote : i.acNote.length ≤ noteMaxLen

/-- The records of the scenes. -/
def SceneList.texts (x : SceneList) : List SceneText := x.stList.map fun n => n.stSceneInfo.text

section Scenes

variable {x : SceneList} {target : List SceneText}

/-- What the walk over the scenes relies on. -/
structure SceneList.Named (x : SceneList) : Prop where
  addrs : (x.stList.map SceneNode.addr).Nodup
  ids : (x.stList.map fun n => n.stSceneInfo.acSceneId).Nodup
  fits : ∀ n ∈ x.stList, n.stSceneInfo.text.Fits

def SceneList.textView (x : SceneList) : List (Nat × SceneText) :=
  x.stList.map fun n => (n.addr, n.stSceneInfo.text)

theorem SceneList.mem_textView {q : Nat × SceneText} :
    q ∈ x.textView ↔ ∃ n ∈ x.stList, q = (n.addr, n.stSceneInfo.text) := by
  simp only [textView, List.mem_map, eq_comm]

theorem SceneList.map_addr (x : SceneList) :
    x.stList.map SceneNode.addr = x.textView.map Prod.fst := by
  rw [textView, List.map_map]
  rfl

theorem strncmpEq_of_length_le {n : Nat} {a b : CText} (ha : a.length ≤ n) (hb : b.length ≤ n) :
    strncmpEq n a b = true ↔ a = b := by
  rw [strncmpEq_iff, take_of_length_le ha, take_of_length_le hb]

theorem sceneListSyncOps_same {d c : SceneText} (hd : d.Fits) (hc : c.Fits) :
    sceneListSyncOps.same d c = true ↔ d.acSceneId = c.acSceneId :=
  strncmpEq_of_length_le hd.acSceneId hc.acSceneId

theorem SceneText.eq_of_not_changed {d c : SceneText} (hd : d.Fits) (hc : c.Fits)
    (hid : d.acSceneId = c.acSceneId) (h : d.changed c = false) : d = c := by
  obtain ⟨id, name, enable, delayed, update, note⟩ := d
  obtain ⟨id', name', enable', delayed', update', note'⟩ := c
  simp only [changed, Bool.or_eq_false_iff, Bool.not_eq_false',
    strncmpEq_of_length_le hd.acSceneName hc.acSceneName,
    strncmpEq_of_length_le hd.acSceneEnable hc.acSceneEnable,
    strncmpEq_of_length_le hd.acExecDelayed hc.acExecDelayed,
    strncmpEq_of_length_le hd.acUpdateTime hc.acUpdateTime,
    strncmpEq_of_length_le hd.acNote hc.acNote] at h
  obtain ⟨⟨⟨⟨rfl, rfl⟩, rfl⟩, rfl⟩, rfl⟩ := h
  obtain rfl : id = id' := hid
  rfl

theorem SceneInfo.text_new {i : SceneText} (h : i.Fits) : (SceneInfo.new i).text = i := by
  simp only [new, text, strncpy, take_of_length_le h.acSceneId,
    take_of_length_le h.acSceneName, take_of_length_le h.acSceneEnable,
    take_of_length_le h.acExecDelayed, take_of_length_le h.acUpdateTime,
    take_of_length_le h.acNote]

/-- The scene with all texts but the id copied. -/
def SceneInfo.setText (s : SceneInfo) (i : SceneText) : SceneInfo :=
  { s.copyText i with acNote := strncpy noteMaxLen i.acNote }

theorem SceneInfo.text_setText {s : SceneInfo} {i : SceneText} (h : i.Fits)
    (hid : s.acSceneId = i.acSceneId) : (s.setText i).text = i := by
  simp only [setText, copyText, text, strncpy, hid, take_of_length_le h.acSceneName,
    take_of_length_le h.acSceneEnable, take_of_length_le h.acExecDelayed,
    take_of_length_le h.acUpdateTime, take_of_length_le h.acNote]

theorem SceneText.Fits.copyText {s : SceneInfo} (h : s.text.Fits) (i : SceneText) :
    (s.copyText i).text.Fits where
  acSceneId := h.acSceneId
  acSceneName := length_take_le _ _
  acSceneEnable := length_take_le _ _
  acExecDelayed := length_take_le _ _
  acUpdateTime := length_take_le _ _
  acNote := h.acNote

theorem SceneList.Named.sceneListGet (hx : x.Named) {n : SceneNode} (hn : n ∈ x.stList)
    {i : SceneText} (hi : i.Fits) (hid : n.stSceneInfo.acSceneId = i.acSceneId) :
    LocalScene.sceneListGet x i.acSceneId = some n.addr := by
  have hsame : ∀ m ∈ x.stList, strncmpEq indexMaxLen m.stSceneInfo.acSceneId
      (strncpy indexMaxLen i.acSceneId) = true ↔ m.stSceneInfo.acSceneId = i.acSceneId := by
    intro m hm
    rw [strncpy, take_of_length_le hi.acSceneId]
    exact strncmpEq_of_length_le (hx.fits m hm).acSceneId hi.acSceneId
  rw [LocalScene.sceneListGet, map_eq_some_iff]
  refine ⟨n, ?_, rfl⟩
  cases hfind : x.stList.find? fun m => strncmpEq indexMaxLen m.stSceneInfo.acSceneId
      (strncpy indexMaxLen i.acSceneId) with
  | none => exact absurd ((hsame n hn).mpr hid) (find?_eq_none.mp hfind n hn)
  | some m =>
    have hm := mem_of_find?_eq_some hfind
    have hmid := (hsame m hm).mp (by simpa using find?_some hfind)
    rw [eq_of_key_eq hx.ids hm hn (hmid.trans hid.symm)]

theorem SceneList.Named.write (hx : x.Named) {f : SceneInfo → SceneInfo} {x' : SceneList}
    (a : Nat) (hid : ∀ s, (f s).acSceneId = s.acSceneId)
    (hfits : ∀ n ∈ x.stList, n.addr = a → (f n.stSceneInfo).text.Fits)
    (h : x'.stList =
      x.stList.map fun n => if n.addr = a then { n with stSceneInfo := f n.stSceneInfo } else n) :
    x'.Named := by
  refine ⟨?_, ?_, ?_⟩
  · rw [h, map_write_key (f := fun n : SceneNode => { n with stSceneInfo := f n.stSceneInfo })
      fun _ => rfl]
    exact hx.addrs
  · rw [h, map_write_of_eq
      (f := fun n : SceneNode => { n with stSceneInfo := f n.stSceneInfo })
      (g := fun n : SceneNode => n.stSceneInfo.acSceneId) fun n => hid n.stSceneInfo]
    exact hx.ids
  · rw [h]
    intro m hm
    rcases mem_write_iff.mp hm with ⟨n, hn, hna, rfl⟩ | ⟨hm, -⟩
    · exact hfits n hn hna
    · exact hx.fits m hm

theorem sceneListSyncOps_lawful (htarget : ∀ c ∈ target, c.Fits) :
    sceneListSyncOps.Lawful target SceneList.Named SceneList.textView fun _ c => c where
  keys x hx := by
    rw [textView, List.map_map]
    exact hx.addrs
  read x hx q hq := by
    obtain ⟨n, hn, rfl⟩ := mem_textView.mp hq
    show (x.scene? n.addr).map text = _
    rw [scene?, (find?_eq_some_iff hx.addrs).mpr ⟨hn, rfl⟩]
    rfl
  meet x hx q hq c hc hsame := by
    obtain ⟨n, hn, rfl⟩ := mem_textView.mp hq
    have hid : n.stSceneInfo.acSceneId = c.acSceneId :=
      (sceneListSyncOps_same (hx.fits n hn) (htarget c hc)).mp hsame
    cases hch : n.stSceneInfo.text.changed c with
    | false =>
      refine ⟨x, if_neg (by rw [hch]; decide), hx, ?_⟩
      rw [textView, List.map_map]
      apply map_congr_left
      intro m hm
      simp only [Function.comp_apply]
      split
      · rename_i hmn
        rw [eq_of_key_eq hx.addrs hm hn hmn,
          SceneText.eq_of_not_changed (hx.fits n hn) (htarget c hc) hid hch]
      · rfl
    | true =>
      -- the copies of the walk, and then `scene_list_set` on the same scene
      let x₁ : SceneList := { x with stList := x.stList.map fun m =>
        if m.addr = n.addr then { m with stSceneInfo := m.stSceneInfo.copyText c } else m }
      have hmeet : sceneListSyncOps.meet x n.addr n.stSceneInfo.text c =
          some (sceneListSet x₁ c).1 := if_pos hch
      have hx₁ : x₁.Named := hx.write (f := fun s => s.copyText c) n.addr (fun _ => rfl)
        (fun m hm _ => (hx.fits m hm).copyText c) rfl
      have hlist : (sceneListSet x₁ c).1.stList = x.stList.map fun m =>
          if m.addr = n.addr then { m with stSceneInfo := m.stSceneInfo.setText c } else m := by
        have hn₁ : { n with stSceneInfo := n.stSceneInfo.copyText c } ∈ x₁.stList :=
          mem_write_iff.mpr (.inl ⟨n, hn, rfl, rfl⟩)
        have hget : sceneListGet x₁ c.acSceneId = some n.addr :=
          hx₁.sceneListGet hn₁ (htarget c hc) hid
        simp only [sceneListSet, hget, x₁, List.map_map]
        apply map_congr_left
        intro m _
        simp only [Function.comp_apply]
        by_cases hmn : m.addr = n.addr
        · simp only [hmn, if_true]
          rfl
        · simp only [hmn, if_false]
      refine ⟨_, hmeet, hx.write (f := fun s => s.setText c) n.addr (fun _ => rfl)
        (fun m hm hmn => ?_) hlist, ?_⟩
      · rw [eq_of_key_eq hx.addrs hm hn hmn, text_setText (htarget c hc) hid]
        exact htarget c hc
      · rw [textView, textView, hlist, List.map_map, List.map_map]
        apply map_congr_left
        intro m hm
        simp only [Function.comp_apply]
        split
        · rename_i hmn
          rw [eq_of_key_eq hx.addrs hm hn hmn,
            text_setText (htarget c hc) hid]
        · rfl

theorem addAll_scenes (cs : List SceneText) (x : SceneList) (hcs : ∀ c ∈ cs, c.Fits) :
    ∃ x', Reconcile.addAll sceneListSyncOps cs x = some x' ∧
      x'.texts.Perm (x.texts ++ cs.map id) := by
  refine addAll_perm (J := fun (_ : SceneList) cs => ∀ c ∈ cs, SceneText.Fits c) ?_
    cs x hcs
  intro x c cs hcs
  refine ⟨_, rfl, fun c' hc' => hcs c' (mem_cons_of_mem c hc'), ?_⟩
  show ((new c).text :: x.texts).Perm (c :: x.texts)
  rw [text_new (hcs c mem_cons_self)]

theorem passes_scenes (hx : x.Named) (htarget : ∀ c ∈ target, c.Fits)
    (hunique : (target.map SceneText.acSceneId).Nodup)
    (hknown : ∀ n ∈ x.stList, ∃ c ∈ target, n.stSceneInfo.acSceneId = c.acSceneId) :
    ∃ x', Reconcile.passes sceneListSyncOps target (x.stList.map SceneNode.addr) x = some x' ∧
      x'.texts.Perm target := by
  have hdistinct : sceneListSyncOps.Distinct target := by
    rw [List.Nodup, pairwise_map] at hunique
    refine hunique.imp_of_mem fun hc hc' hne d hsame hsame' => hne ?_
    have htake := (strncmpEq_iff.mp hsame).symm.trans (strncmpEq_iff.mp hsame')
    rwa [take_of_length_le (htarget _ hc).acSceneId,
      take_of_length_le (htarget _ hc').acSceneId] at htake
  obtain ⟨x₁, hx₁, hmet, hpasses⟩ := (sceneListSyncOps_lawful htarget).passes_eq
    (J := fun _ => True) (g := fun _ flag => flag) hdistinct (fun _ _ => trivial)
    (fun _ _ _ _ _ => rfl) (fun _ _ _ _ _ _ => trivial) hx fun q hq => by
      obtain ⟨n, hn, rfl⟩ := mem_textView.mp hq
      obtain ⟨c, hc, hid⟩ := hknown n hn
      exact ⟨c, hc, (sceneListSyncOps_same (hx.fits n hn) (htarget c hc)).mpr hid⟩
  obtain ⟨x', hall, hperm⟩ := addAll_scenes
    (target.filter fun c => !x.textView.any fun q => sceneListSyncOps.same q.2 c) x₁
    fun c hc => htarget c (mem_of_mem_filter hc)
  rw [x.map_addr, hpasses]
  refine ⟨x', hall, hperm.trans ?_⟩
  have hfirst := hmet.perm (f := id) (g := id) hdistinct (fun _ _ _ _ _ => rfl) ?_
  · have htexts : x₁.texts = x₁.textView.map fun r => id r.2 := by
      rw [texts, textView, List.map_map]
      rfl
    rw [htexts]
    refine (hfirst.append_right _).trans ?_
    rw [List.map_id, List.map_id]
    exact filter_append_perm _ target
  · rw [textView, pairwise_map]
    refine (pairwise_map.mp hx.ids).imp_of_mem fun hn hm hne c hc hsame => ?_
    rw [← Bool.not_eq_true]
    intro hsame'
    exact hne (((sceneListSyncOps_same (hx.fits _ hn) (htarget c hc)).mp hsame).trans
      ((sceneListSyncOps_same (hx.fits _ hm) (htarget c hc)).mp hsame').symm)

/-- `scene_list_sync` leaves the scenes of the array exactly when it deletes
none. -/
theorem sceneListSync_texts_iff (hx : x.Named) (htarget : ∀ c ∈ target, c.Fits)
    (hunique : (target.map SceneText.acSceneId).Nodup) :
    (∃ x', sceneListSync x target = some x' ∧ x'.texts.Perm target) ↔
      (target ≠ [] → ∀ n ∈ x.stList, ∃ c ∈ target, n.stSceneInfo.acSceneId = c.acSceneId) := by
  rw [sceneListSync, sync]
  by_cases hempty : x.stList = []
  · rw [if_pos (List.isEmpty_iff.mpr hempty)]
    obtain ⟨x', hall, hperm⟩ := addAll_scenes target x htarget
    have hnone : x.texts = [] := by rw [texts, hempty, map_nil]
    rw [hnone, nil_append, List.map_id] at hperm
    exact iff_of_true ⟨x', hall, hperm⟩ (by simp [hempty])
  rw [if_neg (by simpa using hempty)]
  by_cases hnil : target = []
  · rw [if_pos hnil, hnil]
    exact iff_of_true ⟨_, rfl, List.Perm.refl _⟩ fun h => absurd rfl h
  rw [if_neg hnil]
  constructor
  · rintro ⟨x', hpasses, -⟩ - n hn
    rw [x.map_addr] at hpasses
    obtain ⟨c, hc, hsame⟩ := (sceneListSyncOps_lawful htarget).matched_of_passes hx hpasses _
      (mem_textView.mpr ⟨n, hn, rfl⟩)
    exact ⟨c, hc, (sceneListSyncOps_same (hx.fits n hn) (htarget c hc)).mp hsame⟩
  · intro hknown
    exact passes_scenes hx htarget hunique (hknown hnil)

end Scenes

/-! ## Panels -/

/-- The parts of `scene_bind_sync`; a place is the position in the chain. -/
def panelSyncOps (a : Nat) : Reconcile.Ops SceneList Nat ScenePanel ScenePanel where
  read x i := do
    let s ← x.scene? a
    (s.pstPanel[i]?).map ScenePanelNode.stPanel
  same d c := strncmpEq devIdMaxLen d.acDevId c.acDevId && strncmpEq keyMaxLen d.acKey c.acKey &&
    strncmpEq valueMaxLen d.acValue c.acValue
  meet x _ _ _ := some x
  del x c := (sceneUnbind x a c).map Prod.fst
  add x c := sceneBind x a c
  met _ _ flag := flag

/-- `scene_bind_sync`. -/
def sceneBindSync (x : SceneList) (a : Nat) (pastPanelInfo : List ScenePanel) :
    Option SceneList := do
  let s ← x.scene? a
  Reconcile.sync (panelSyncOps a) (fun x => sceneBindClear x a) s.pstPanel.isEmpty
    (List.range s.pstPanel.length) pastPanelInfo x

/-- What a panel is compared by. -/
def ScenePanel.identity (n : ScenePanel) : CText × CText × CText :=
  (n.acDevId.take devIdMaxLen, n.acKey.take keyMaxLen, n.acValue.take valueMaxLen)

/-- The panels of a scene. -/
def SceneInfo.panels (s : SceneInfo) : List ScenePanel := s.pstPanel.map ScenePanelNode.stPanel

/-- The panels of the scene are panels of the array, and nothing is filed for the
scene under the texts of the others, which differ. -/
structure PanelSyncOk (x : SceneList) (s : SceneInfo) (target : List ScenePanel) : Prop where
  known : s.panels.Subperm target
  free : ∀ c ∈ target, c ∉ s.panels → ptrHashFind x.pHashTable c.hashKey s.acSceneId = none
  texts : ((target.filter (· ∉ s.panels)).map ScenePanel.hashKey).Nodup

theorem ptrHashFind_ptrHashInst {t : PtrHash} {key paId : CText} {n : PtrNode}
    (hid : n.acId = strncpy indexMaxLen paId) (key' : CText) :
    ptrHashFind (ptrHashInst t key n) key' paId =
      if key' = key then some n else ptrHashFind t key' paId := by
  have hfor : PtrNode.isFor key' paId (key, n) = decide (key' = key) := by
    rw [Bool.eq_iff_iff, PtrNode.isFor_iff, decide_eq_true_iff, filedAs, hid, strncpy,
      take_take, min_self, Prod.mk.injEq, eq_comm]
    simp
  rw [ptrHashFind, ptrHashInst, find?_cons, hfor]
  by_cases h : key' = key
  · simp [h]
  · simp only [h, decide_false, if_false]
    rfl

section Panels

variable {x x' : SceneList} {a : Nat} {s : SceneInfo} {c : ScenePanel} {target : List ScenePanel}

theorem panelSyncOps_same {d c : ScenePanel} :
    (panelSyncOps a).same d c = true ↔ d.identity = c.identity := by
  simp [panelSyncOps, strncmpEq, identity, and_assoc]

/-- What `scene_bind` does to the panels of its scene: it finds a node under the
text, and adds no panel, or it adds and files one. -/
theorem sceneBind_cases (hs : x.scene? a = some s) (h : sceneBind x a c = some x') :
    ∃ s', x'.scene? a = some s' ∧ s'.acSceneId = s.acSceneId ∧
      ((ptrHashFind x.pHashTable c.hashKey s.acSceneId ≠ none ∧ x'.pHashTable = x.pHashTable ∧
          s'.panels.map ScenePanel.identity = s.panels.map ScenePanel.identity) ∨
        ptrHashFind x.pHashTable c.hashKey s.acSceneId = none ∧ s'.panels = s.panels ++ [c] ∧
          ∃ n, n.acId = strncpy indexMaxLen s.acSceneId ∧
            x'.pHashTable = ptrHashInst x.pHashTable c.hashKey n) := by
  simp only [sceneBind, hs, bind_eq_bind, bind_some] at h
  split at h
  · rename_i e hfind
    simp only [bind_eq_some_iff, Option.pure_def, some.injEq] at h
    obtain ⟨n, -, t, ht, rfl⟩ := h
    have hfound : ptrHashFind x.pHashTable c.hashKey s.acSceneId ≠ none := by
      rw [hashKey, hfind]
      exact some_ne_none e
    by_cases hea : e.pstScene = a
    · rw [hea] at ht ⊢
      obtain rfl := some.inj (hs.symm.trans ht)
      refine ⟨_, scene?_setScene_self hs _, rfl, .inl ⟨hfound, rfl, ?_⟩⟩
      rw [panels, panels, List.map_map, List.map_map, List.map_map]
      apply map_congr_left
      intro m _
      simp only [Function.comp_apply]
      split <;> rfl
    · exact ⟨s, (scene?_setScene_of_ne (Ne.symm hea) _).trans hs, rfl,
        .inl ⟨hfound, rfl, rfl⟩⟩
  · rename_i hfind
    simp only [Option.pure_def, some.injEq] at h
    subst h
    refine ⟨_, scene?_setScene_self hs _, rfl, .inr ⟨hfind, ?_, _, rfl, rfl⟩⟩
    rw [panels, panels, map_append, map_singleton]

/-- What adding panels leaves of the chain: the panels that were there, and at
most one for each that is added. -/
theorem addAll_panels_le (cs : List ScenePanel) :
    ∀ (x : SceneList) (s : SceneInfo), x.scene? a = some s →
      Reconcile.addAll (panelSyncOps a) cs x = some x' →
      ∃ s', x'.scene? a = some s' ∧
        s.panels.map ScenePanel.identity <+: s'.panels.map ScenePanel.identity ∧
        s'.panels.length ≤ s.panels.length + cs.length ∧
        (s'.panels.length = s.panels.length + cs.length →
          (∀ c ∈ cs, ptrHashFind x.pHashTable c.hashKey s.acSceneId = none) ∧
            (cs.map ScenePanel.hashKey).Nodup) := by
  induction cs with
  | nil =>
    intro x s hs h
    cases h
    exact ⟨s, hs, prefix_rfl, le_rfl, by simp⟩
  | cons c cs ih =>
    intro x s hs h
    rw [addAll, foldlM_cons, bind_eq_bind, bind_eq_some_iff] at h
    obtain ⟨x₁, hbind, hrest⟩ := h
    obtain ⟨s₁, hs₁, hid, hcases⟩ := sceneBind_cases hs hbind
    obtain ⟨s', hs', hprefix, hle, heq⟩ := ih x₁ s₁ hs₁ hrest
    refine ⟨s', hs', ?_⟩
    rw [length_cons]
    rcases hcases with ⟨-, -, hsame⟩ | ⟨hfind, hpanels, n, hnid, hhash⟩
    · have hlen : s₁.panels.length = s.panels.length := by
        simpa using congrArg List.length hsame
      refine ⟨hsame ▸ hprefix, by omega, fun hbad => by omega⟩
    · have hlen : s₁.panels.length = s.panels.length + 1 := by
        rw [hpanels, length_append, length_singleton]
      refine ⟨?_, by omega, fun hall => ?_⟩
      · rw [hpanels, map_append] at hprefix
        exact (prefix_append _ _).trans hprefix
      · obtain ⟨hnone, hnodup⟩ := heq (by omega)
        have hstep : ∀ c' ∈ cs, c'.hashKey ≠ c.hashKey ∧
            ptrHashFind x.pHashTable c'.hashKey s.acSceneId = none := by
          intro c' hc'
          have := hnone c' hc'
          rw [hhash, hid, ptrHashFind_ptrHashInst hnid] at this
          split at this
          · cases this
          · rename_i hne
            exact ⟨hne, this⟩
        refine ⟨fun c' hc' => ?_, ?_⟩
        · rcases mem_cons.mp hc' with rfl | hc'
          · exact hfind
          · exact (hstep c' hc').2
        · rw [map_cons, nodup_cons]
          refine ⟨fun hmem => ?_, hnodup⟩
          obtain ⟨c', hc', hkey⟩ := List.mem_map.mp hmem
          exact (hstep c' hc').1 hkey

theorem addAll_panels (cs : List ScenePanel) (hs : x.scene? a = some s)
    (hfree : ∀ c ∈ cs, ptrHashFind x.pHashTable c.hashKey s.acSceneId = none)
    (htexts : (cs.map ScenePanel.hashKey).Nodup) :
    ∃ x' s', Reconcile.addAll (panelSyncOps a) cs x = some x' ∧ x'.scene? a = some s' ∧
      s'.panels = s.panels ++ cs := by
  induction cs generalizing x s with
  | nil => exact ⟨x, s, rfl, hs, (append_nil _).symm⟩
  | cons c cs ih =>
    have hfind := hfree c mem_cons_self
    rw [map_cons, nodup_cons] at htexts
    have hbind : ∃ x₁, sceneBind x a c = some x₁ := by
      rw [hashKey] at hfind
      simp only [sceneBind, hs, bind_eq_bind, bind_some, hfind, Option.pure_def]
      exact ⟨_, rfl⟩
    obtain ⟨x₁, hbind⟩ := hbind
    obtain ⟨s₁, hs₁, hid, ⟨hne, -⟩ | ⟨-, hpanels, n, hnid, hhash⟩⟩ := sceneBind_cases hs hbind
    · exact absurd hfind hne
    have hfree₁ : ∀ c' ∈ cs, ptrHashFind x₁.pHashTable c'.hashKey s₁.acSceneId = none := by
      intro c' hc'
      have hne : c'.hashKey ≠ c.hashKey :=
        fun hkey => htexts.1 (hkey ▸ List.mem_map_of_mem hc')
      rw [hhash, hid, ptrHashFind_ptrHashInst hnid, if_neg hne]
      exact hfree c' (mem_cons_of_mem c hc')
    obtain ⟨x', s', hall, hs', hpanels'⟩ := ih hs₁ hfree₁ htexts.2
    refine ⟨x', s', ?_, hs', ?_⟩
    · rw [addAll, foldlM_cons, show (panelSyncOps a).add x c = some x₁ from hbind]
      exact hall
    · rw [hpanels', hpanels, append_assoc, singleton_append]

theorem addAll_panels_perm_iff (cs : List ScenePanel) (hs : x.scene? a = some s)
    (hlen : s.panels.length + cs.length = target.length) :
    (∃ x' s', Reconcile.addAll (panelSyncOps a) cs x = some x' ∧ x'.scene? a = some s' ∧
        s'.panels.Perm target) ↔
      (s.panels ++ cs).Perm target ∧
        (∀ c ∈ cs, ptrHashFind x.pHashTable c.hashKey s.acSceneId = none) ∧
          (cs.map ScenePanel.hashKey).Nodup := by
  constructor
  · rintro ⟨x', s', hall, hs', hperm⟩
    obtain ⟨s'', hs'', -, -, heq⟩ := addAll_panels_le cs x s hs hall
    obtain rfl := some.inj (hs'.symm.trans hs'')
    obtain ⟨hfree, htexts⟩ := heq (hperm.length_eq.trans hlen.symm)
    obtain ⟨y, t, hall', ht, hpanels⟩ := addAll_panels cs hs hfree htexts
    obtain rfl := some.inj (hall.symm.trans hall')
    obtain rfl := some.inj (hs'.symm.trans ht)
    exact ⟨hpanels ▸ hperm, hfree, htexts⟩
  · rintro ⟨hperm, hfree, htexts⟩
    obtain ⟨x', s', hall, hs', hpanels⟩ := addAll_panels cs hs hfree htexts
    exact ⟨x', s', hall, hs', hpanels ▸ hperm⟩

/-- The panels with their positions. -/
def SceneInfo.panelView (s : SceneInfo) : List (Nat × ScenePanel) :=
  s.panels.zipIdx.map fun e => (e.2, e.1)

theorem SceneInfo.mem_panelView {q : Nat × ScenePanel} :
    q ∈ s.panelView ↔ s.panels[q.1]? = some q.2 := by
  rw [panelView, List.mem_map]
  constructor
  · rintro ⟨⟨n, i⟩, he, rfl⟩
    exact mk_mem_zipIdx_iff_getElem?.mp he
  · intro h
    exact ⟨(q.2, q.1), mk_mem_zipIdx_iff_getElem?.mpr h, rfl⟩

theorem SceneInfo.any_panelView (s : SceneInfo) (p : ScenePanel → Bool) :
    (s.panelView.any fun q => p q.2) = s.panels.any p := by
  have hfst : s.panelView.map Prod.snd = s.panels := by
    rw [panelView, List.map_map]
    exact zipIdx_map_fst 0 s.panels
  rw [← hfst, List.any_map]
  rfl

theorem panelSyncOps_lawful (hs : x.scene? a = some s) (target : List ScenePanel) :
    (panelSyncOps a).Lawful target (· = x) (fun _ => s.panelView) fun d _ => d where
  keys y _ := by
    rw [panelView, List.map_map]
    have hsnd : s.panels.zipIdx.map (Prod.fst ∘ fun e : ScenePanel × Nat => (e.2, e.1)) =
        List.range' 0 s.panels.length := zipIdx_map_snd 0 s.panels
    rw [hsnd]
    exact nodup_range'
  read y hy q hq := by
    subst hy
    have hget := mem_panelView.mp hq
    rw [panels, getElem?_map] at hget
    simp only [panelSyncOps, hs, bind_eq_bind, bind_some]
    exact hget
  meet y hy q hq c _ _ := by
    refine ⟨y, rfl, hy, ?_⟩
    symm
    nth_rewrite 2 [← List.map_id s.panelView]
    apply map_congr_left
    intro r _
    split <;> rfl

theorem mem_panels_of_same (hunique : (target.map ScenePanel.identity).Nodup)
    (hknown : s.panels.Subperm target) {c : ScenePanel} (hc : c ∈ target) :
    (s.panels.any fun d => (panelSyncOps a).same d c) = true ↔ c ∈ s.panels := by
  rw [List.any_eq_true]
  constructor
  · rintro ⟨d, hd, hsame⟩
    rwa [← inj_on_of_nodup_map hunique (hknown.subset hd) hc (panelSyncOps_same.mp hsame)]
  · intro hmem
    exact ⟨c, hmem, panelSyncOps_same.mpr rfl⟩

theorem filter_notMem_panels (hunique : (target.map ScenePanel.identity).Nodup)
    (hknown : s.panels.Subperm target) :
    target.filter (· ∉ s.panels) =
      target.filter fun c => !s.panels.any fun d => (panelSyncOps a).same d c := by
  refine filter_congr fun c hc => ?_
  rw [Bool.eq_iff_iff, decide_eq_true_iff, Bool.not_eq_true', ← Bool.not_eq_true,
    mem_panels_of_same hunique hknown hc]

/-- The panels of a scene that are all found are as many as the entries met. -/
theorem length_panels_eq (hunique : (target.map ScenePanel.identity).Nodup)
    (hnodup : (s.panels.map ScenePanel.identity).Nodup)
    (hknown : ∀ d ∈ s.panels, ∃ c ∈ target, d.identity = c.identity) :
    s.panels.length +
        (target.filter fun c => !s.panels.any fun d => (panelSyncOps a).same d c).length =
      target.length := by
  have hmet : (s.panels.map identity).Perm ((target.filter fun c =>
      s.panels.any fun d => (panelSyncOps a).same d c).map identity) := by
    rw [perm_ext_iff_of_nodup hnodup ((filter_sublist.map _).nodup hunique)]
    intro i
    simp only [List.mem_map, mem_filter, List.any_eq_true, panelSyncOps_same]
    constructor
    · rintro ⟨d, hd, rfl⟩
      obtain ⟨c, hc, hid⟩ := hknown d hd
      exact ⟨c, ⟨hc, d, hd, hid⟩, hid.symm⟩
    · rintro ⟨c, ⟨-, d, hd, hid⟩, rfl⟩
      exact ⟨d, hd, hid⟩
  have hlen := hmet.length_eq
  rw [length_map, length_map] at hlen
  rw [hlen, ← length_append]
  exact (filter_append_perm _ target).length_eq

/-- `scene_bind_sync` leaves the panels of the array exactly when it deletes and
changes none and files those it adds under texts of their own. -/
theorem sceneBindSync_panels_iff (hs : x.scene? a = some s)
    (hunique : (target.map ScenePanel.identity).Nodup) :
    (∃ x' s', sceneBindSync x a target = some x' ∧ x'.scene? a = some s' ∧
        s'.panels.Perm target) ↔ PanelSyncOk x s target := by
  simp only [sceneBindSync, hs, bind_eq_bind, bind_some, sync]
  by_cases hempty : s.pstPanel = []
  · have hnone : s.panels = [] := by rw [panels, hempty, map_nil]
    rw [if_pos (List.isEmpty_iff.mpr hempty),
      addAll_panels_perm_iff target hs (by rw [hnone]; exact Nat.zero_add _)]
    constructor
    · rintro ⟨-, hfree, htexts⟩
      exact ⟨hnone ▸ nil_subperm, fun c hc _ => hfree c hc,
        (filter_sublist.map _).nodup htexts⟩
    · intro hok
      have hnew : ∀ c, c ∉ s.panels := by simp [hnone]
      refine ⟨by rw [hnone]; exact List.Perm.refl _, fun c hc => hok.free c hc (hnew c), ?_⟩
      have := hok.texts
      rwa [filter_eq_self.mpr fun c _ => by simpa using hnew c] at this
  rw [if_neg (by simpa using hempty)]
  have hpanels : s.panels ≠ [] := by simpa [panels] using hempty
  by_cases hnil : target = []
  · -- `pstPanel` still leads to the panels that were freed
    rw [if_pos hnil, hnil]
    refine iff_of_false ?_ fun hok => hpanels (subperm_nil.mp hok.known)
    rintro ⟨x', s', hclear, hs', hperm⟩
    simp only [sceneBindClear, hs, bind_eq_bind, bind_some, Option.pure_def,
      some.injEq] at hclear
    subst hclear
    obtain rfl := some.inj (hs.symm.trans hs')
    exact hpanels (perm_nil.mp hperm)
  rw [if_neg hnil]
  have hdistinct : (panelSyncOps a).Distinct target := by
    rw [List.Nodup, pairwise_map] at hunique
    exact hunique.imp fun hne d hc hc' =>
      hne ((panelSyncOps_same.mp hc).symm.trans (panelSyncOps_same.mp hc'))
  have hps : List.range s.pstPanel.length = s.panelView.map Prod.fst := by
    rw [panelView, List.map_map]
    have hsnd : s.panels.zipIdx.map (Prod.fst ∘ fun e : ScenePanel × Nat => (e.2, e.1)) =
        List.range' 0 s.panels.length := zipIdx_map_snd 0 s.panels
    rw [hsnd, panels, length_map, range_eq_range']
  have hlaw := panelSyncOps_lawful hs target
  have hpasses : (∀ d ∈ s.panels, ∃ c ∈ target, d.identity = c.identity) →
      passes (panelSyncOps a) target (List.range s.pstPanel.length) x =
        addAll (panelSyncOps a)
          (target.filter fun c => !s.panels.any fun d => (panelSyncOps a).same d c) x := by
    intro hknown
    obtain ⟨x₁, rfl, -, hpasses⟩ := hlaw.passes_eq (J := fun _ => True) (g := fun _ flag => flag)
      hdistinct (fun _ _ => trivial) (fun _ _ _ _ _ => rfl) (fun _ _ _ _ _ _ => trivial)
      rfl fun q hq => by
        obtain ⟨c, hc, hid⟩ := hknown q.2 (mem_of_getElem? (mem_panelView.mp hq))
        exact ⟨c, hc, panelSyncOps_same.mpr hid⟩
    have hany : ∀ c, (s.panelView.any fun q => (panelSyncOps a).same q.2 c) =
        s.panels.any fun d => (panelSyncOps a).same d c :=
      fun c => s.any_panelView fun d => (panelSyncOps a).same d c
    rw [hps, hpasses]
    simp only [hany]
  constructor
  · rintro ⟨x', s', h, hs', hperm⟩
    have hknown : ∀ d ∈ s.panels, ∃ c ∈ target, d.identity = c.identity := by
      intro d hd
      obtain ⟨i, hi⟩ := mem_iff_getElem?.mp hd
      rw [hps] at h
      obtain ⟨c, hc, hsame⟩ := hlaw.matched_of_passes rfl h (i, d)
        (mem_panelView.mpr hi)
      exact ⟨c, hc, panelSyncOps_same.mp hsame⟩
    rw [hpasses hknown] at h
    obtain ⟨s'', hs'', hprefix, -, -⟩ := addAll_panels_le _ x s hs h
    obtain rfl := some.inj (hs'.symm.trans hs'')
    have hnodup : (s.panels.map identity).Nodup :=
      hprefix.sublist.nodup ((hperm.map _).nodup_iff.mpr hunique)
    obtain ⟨hsum, hfree, htexts⟩ := (addAll_panels_perm_iff _ hs
      (length_panels_eq hunique hnodup hknown)).mp ⟨x', s', h, hs', hperm⟩
    have hsub : s.panels.Subperm target :=
      (sublist_append_left _ _).subperm.trans hsum.subperm
    have hfilter := filter_notMem_panels (a := a) hunique hsub
    refine ⟨hsub, fun c hc hnot => hfree c ?_, hfilter ▸ htexts⟩
    rw [← hfilter]
    exact mem_filter.mpr ⟨hc, by simpa using hnot⟩
  · intro hok
    have hknown : ∀ d ∈ s.panels, ∃ c ∈ target, d.identity = c.identity :=
      fun d hd => ⟨d, hok.known.subset hd, rfl⟩
    have hnodup : (s.panels.map identity).Nodup := by
      obtain ⟨ds, hds, hsub⟩ := hok.known
      exact (hds.map _).nodup_iff.mp ((hsub.map _).nodup hunique)
    have hmet : s.panels.Perm
        (target.filter fun c => s.panels.any fun d => (panelSyncOps a).same d c) := by
      rw [perm_ext_iff_of_nodup hnodup.of_map (filter_sublist.nodup hunique.of_map)]
      intro c
      rw [mem_filter]
      constructor
      · intro hc
        exact ⟨hok.known.subset hc,
          (mem_panels_of_same hunique hok.known (hok.known.subset hc)).mpr hc⟩
      · rintro ⟨hc, hany⟩
        exact (mem_panels_of_same hunique hok.known hc).mp hany
    rw [hpasses hknown]
    refine (addAll_panels_perm_iff _ hs (length_panels_eq hunique hnodup hknown)).mpr
      ⟨(hmet.append_right _).trans (filter_append_perm _ target), ?_, ?_⟩
    · rw [← filter_notMem_panels hunique hok.known]
      intro c hc
      obtain ⟨hc, hnot⟩ := mem_filter.mp hc
      exact hok.free c hc (by simpa using hnot)
    · rw [← filter_notMem_panels hunique hok.known]
      exact hok.texts

end Panels

end Honyar.LocalScene
