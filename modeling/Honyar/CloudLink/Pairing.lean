import Honyar.CloudLink.Devices
import Honyar.Libhylink.Calls

/-!
# Two maps of devices

Every device of the cloud's map is in libhylink's.  The reports and the changes of a device's
line rely on it: the first log an error without it, the second read through a null pointer.

It stays until a device is taken out of libhylink's map while the cloud keeps it.  That is left
to the answers from outside: an unregistered device, and one the cloud deletes, go on the cloud's
side only if they could be restored there.
-/

namespace Honyar.CloudLink

open Hylink Libhylink Faults Option List

variable {cloudMap : List CloudLinkDev} {name : CText} {dev : CloudLinkDev} {s : HyState CloudState}

/-- Every device of the cloud is one of libhylink's, and no report missed its device. -/
structure Paired (hyMap : List HyLinkDev) (w : CloudState) : Prop where
  device : ∀ dev ∈ w.cloudMap, (hylinkListGetById hyMap dev.device_name).isSome
  found : ∀ name, Post.hyLinkDevNull name ∉ w.posts

/-! ## Names -/

/-- There is an entry of that name. -/
def Has (cloudMap : List CloudLinkDev) (name : CText) : Prop :=
  ∃ dev ∈ cloudMap, dev.device_name = name

theorem isSome_iff_has : (cloudLinkListGetById cloudMap name).isSome ↔ Has cloudMap name := by
  simp [cloudLinkListGetById, Has]

theorem has_add :
    Has (cloudLinkListAdd cloudMap dev) name ↔ dev.device_name = name ∨ Has cloudMap name := by
  simp only [Has, cloudLinkListAdd, Store.mem_put]
  constructor
  · rintro ⟨x, rfl | ⟨hx, -⟩, rfl⟩
    · exact .inl rfl
    · exact .inr ⟨x, hx, rfl⟩
  · rintro (rfl | ⟨x, hx, rfl⟩)
    · exact ⟨dev, .inl rfl, rfl⟩
    · by_cases hname : x.device_name = dev.device_name
      · exact ⟨dev, .inl rfl, hname.symm⟩
      · exact ⟨x, .inr ⟨hx, hname⟩, rfl⟩

theorem has_del {k : CText} :
    Has (cloudLinkListDelDev cloudMap k) name ↔ Has cloudMap name ∧ name ≠ k := by
  simp only [Has, cloudLinkListDelDev, Store.mem_remove]
  constructor
  · rintro ⟨x, ⟨hx, hne⟩, rfl⟩
    exact ⟨⟨x, hx, rfl⟩, hne⟩
  · rintro ⟨⟨x, hx, rfl⟩, hne⟩
    exact ⟨x, ⟨hx, hne⟩, rfl⟩

theorem cloudLinkListGetById_name (h : cloudLinkListGetById cloudMap name = some dev) :
    dev.device_name = name := by
  simpa using find?_some h

/-- No entry of a new name, and no report that missed its device. -/
structure Within (w w' : CloudState) : Prop where
  names : ∀ name, Has w'.cloudMap name → Has w.cloudMap name
  found : ∀ name, Post.hyLinkDevNull name ∈ w'.posts → Post.hyLinkDevNull name ∈ w.posts

theorem Within.refl (w : CloudState) : Within w w := ⟨fun _ h => h, fun _ h => h⟩

theorem Within.trans {w w' w'' : CloudState} (h : Within w w') (h' : Within w' w'') :
    Within w w'' :=
  ⟨fun n hn => h.names n (h'.names n hn), fun n hn => h.found n (h'.found n hn)⟩

namespace Paired

variable {m : List HyLinkDev} {w w' : CloudState}

theorem isSome (h : Paired m w) (hname : Has w.cloudMap name) :
    (hylinkListGetById m name).isSome := by
  obtain ⟨dev, hdev, rfl⟩ := hname
  exact h.device dev hdev

theorem within (h : Paired m w) (hw : Within w w') : Paired m w' :=
  ⟨fun dev hdev => h.isSome (hw.names _ ⟨dev, hdev, rfl⟩),
    fun name hname => h.found name (hw.found name hname)⟩

theorem grow {m' : List HyLinkDev} (h : Paired m w) (hm : Grows m m') : Paired m' w :=
  ⟨fun dev hdev => hm _ (h.device dev hdev), h.found⟩

theorem del (h : Paired m w) {id : CText} (hid : ¬ Has w.cloudMap id) :
    Paired (hylinkListDel m id) w := by
  refine ⟨fun dev hdev => ?_, h.found⟩
  rw [hylinkListGetById_del, if_neg]
  · exact h.device dev hdev
  · rintro rfl
    exact hid ⟨dev, hdev, rfl⟩

end Paired

/-! ## Reports -/

variable {k : Cloud} {m : List HyLinkDev} {w : CloudState}

theorem hyLinkDevNull_not_mem_event (hyAttr : HyLinkDevAttr) (dev : CloudLinkDev) (name : CText) :
    Post.hyLinkDevNull name ∉ cloudSingleEventReport k hyAttr dev := by
  unfold cloudSingleEventReport
  split
  · exact not_mem_nil
  · split
    · exact not_mem_nil
    · simp

theorem hyLinkDevNull_not_mem_attr (hyAttr : HyLinkDevAttr) (dev : CloudLinkDev) (name : CText) :
    Post.hyLinkDevNull name ∉ cloudSingleAttrReport k hyAttr dev := by
  unfold cloudSingleAttrReport
  split
  · exact hyLinkDevNull_not_mem_event hyAttr dev name
  · rw [mem_append, not_or]
    refine ⟨?_, hyLinkDevNull_not_mem_event hyAttr dev name⟩
    simp

theorem cloudAttrReport_spares (hdev : (hylinkListGetById m dev.device_name).isSome)
    (hyAttr : Option Nat) :
    Spares Dangling (fun w' => w'.cloudMap = w.cloudMap ∧
        ∀ name, Post.hyLinkDevNull name ∈ w'.posts → Post.hyLinkDevNull name ∈ w.posts)
      (cloudAttrReport k m dev hyAttr w) := by
  obtain ⟨d, hd⟩ := isSome_iff_exists.mp hdev
  simp only [cloudAttrReport, hd]
  cases hyAttr with
  | none =>
    refine ⟨rfl, fun name hname => ?_⟩
    rcases mem_append.mp hname with hname | hname
    · exact hname
    · obtain ⟨a, -, ha⟩ := mem_flatMap.mp hname
      exact absurd ha (hyLinkDevNull_not_mem_attr a dev name)
  | some i =>
    dsimp only
    split
    · exact not_not.mpr rfl
    next a _ =>
      refine ⟨rfl, fun name hname => ?_⟩
      rcases mem_append.mp hname with hname | hname
      · exact hname
      · exact absurd hname (hyLinkDevNull_not_mem_attr a dev name)

/-! ## The line of a device -/

/-- The entries have the names they had, and nothing was posted. -/
structure Renewed (w w' : CloudState) : Prop where
  names : ∀ name, Has w'.cloudMap name ↔ Has w.cloudMap name
  posts : w'.posts = w.posts

theorem Renewed.trans {w w' w'' : CloudState} (h : Renewed w w') (h' : Renewed w' w'') :
    Renewed w w'' :=
  ⟨fun n => (h'.names n).trans (h.names n), h'.posts.trans h.posts⟩

theorem renewed_call (w : CloudState) (c : RemoteCall) : Renewed w (call k w c).2 :=
  ⟨fun _ => Iff.rfl, rfl⟩

theorem renewed_setId (hdev : Has w.cloudMap dev.device_name) (id : Int) :
    Renewed w (setId w dev id) := by
  refine ⟨fun name => ?_, rfl⟩
  rw [setId, has_add]
  constructor
  · rintro (rfl | h)
    · exact hdev
    · exact h
  · exact .inr

theorem linkkitSubdevStatus_renewed (hdev : Has w.cloudMap dev.device_name) (status : BitVec 8) :
    Renewed w (linkkitSubdevStatus k dev status w).2 := by
  have hset : ∀ (w' : CloudState) (id : Int), Renewed w w' → Renewed w (setId w' dev id) :=
    fun w' id h => h.trans (renewed_setId ((h.names _).mpr hdev) id)
  have hcall : ∀ (w' : CloudState) (c : RemoteCall), Renewed w w' → Renewed w (call k w' c).2 :=
    fun w' c h => h.trans (renewed_call w' c)
  have hself : Renewed w w := ⟨fun _ => Iff.rfl, rfl⟩
  unfold linkkitSubdevStatus
  dsimp only
  split
  · exact hself
  split
  · split
    · exact hself
    split
    · exact hcall _ _ hself
    · exact hset _ _ (hcall _ _ hself)
  split
  · split
    · exact hcall _ _ hself
    have hopen := hset _ (call k w (.linkkitOpen dev.alinkInfo)).1
      (hcall _ (.linkkitOpen dev.alinkInfo) hself)
    split
    · exact hcall _ _ hopen
    split
    · exact hcall _ _ (hcall _ _ hopen)
    · exact hcall _ _ (hcall _ _ hopen)
  split
  · split
    · exact hcall _ _ hself
    split
    · exact hcall _ _ hself
    · exact hset _ _ (hcall _ _ (hcall _ _ hself))
  · exact hself

/-- The entry of a name, if there is one, can be restored. -/
def RestoreOk (k : Cloud) (w : CloudState) (name : CText) : Prop :=
  ∀ dev, cloudLinkListGetById w.cloudMap name = some dev →
    0 ≤ (linkkitSubdevStatus k dev subdevRestore w).1

theorem cloudSubDevStatus_spares (h : Paired m w) (name : CText) (status : BitVec 8) :
    Spares Dangling (fun r => Within w r.2 ∧
        (status = subdevRestore → RestoreOk k w name → ¬ Has r.2.cloudMap name))
      (cloudSubDevStatus k m name status w) := by
  unfold cloudSubDevStatus
  cases hget : cloudLinkListGetById w.cloudMap name with
  | none =>
    refine ⟨.refl w, fun _ _ hhas => ?_⟩
    rw [← isSome_iff_has, hget] at hhas
    cases hhas
  | some dev =>
    obtain rfl := cloudLinkListGetById_name hget
    have hhas : Has w.cloudMap dev.device_name := isSome_iff_has.mp (by rw [hget]; rfl)
    have hsome := h.isSome hhas
    obtain ⟨d, hd⟩ := isSome_iff_exists.mp hsome
    have hren := linkkitSubdevStatus_renewed (k := k) hhas status
    have hwithin : Within w (linkkitSubdevStatus k dev status w).2 :=
      ⟨fun n hn => (hren.names n).mp hn, fun n hn => hren.posts ▸ hn⟩
    simp only [hd]
    split
    next hneg =>
      refine ⟨hwithin, fun hstatus hok => ?_⟩
      subst hstatus
      exact absurd (hok dev hget) (Int.not_le.mpr hneg)
    next =>
      split
      next =>
        refine ⟨⟨fun n hn => hwithin.names n (has_del.mp hn).1, hwithin.found⟩, fun _ _ hn => ?_⟩
        exact (has_del.mp hn).2 rfl
      next hnot =>
        split
        next =>
          have hkept := isSome_iff_has.mpr ((hren.names _).mpr hhas)
          obtain ⟨dev', hdev'⟩ := isSome_iff_exists.mp hkept
          have hname := cloudLinkListGetById_name hdev'
          rw [hdev']
          refine (cloudAttrReport_spares (by rw [hname]; exact hsome) none).bind
            fun w' _ hw' => ⟨⟨fun n hn => hwithin.names n (hw'.1 ▸ hn), fun n hn => ?_⟩,
              fun hstatus => absurd hstatus hnot⟩
          rcases mem_append.mp hn with hn | hn
          · exact hwithin.found n (hw'.2 n hn)
          · simp at hn
        next => exact ⟨hwithin, fun hstatus => absurd hstatus hnot⟩

theorem cloudSubDevLink_spares (h : Paired m w) (id : Option CText) (status : BitVec 8) :
    Spares Dangling (fun r => Within w r.2) (cloudSubDevLink k m id status w) := by
  cases id with
  | some devId => exact (cloudSubDevStatus_spares h devId status).mono fun _ _ hr => hr.1
  | none =>
    refine Spares.bind (Along.spares (P := fun _ _ => True) (K := Within w) ?_ (.refl w)
      (.of_forall fun _ _ _ => trivial)) fun w' _ hw' => hw'
    intro w' name hw' _
    exact (cloudSubDevStatus_spares (h.within hw') name status).bind
      fun r _ hr => hw'.trans hr.1

/-! ## The registered calls -/

theorem legible_textMember (size : Nat) (obj : Json) (name : CText) :
    Legible (textMember size obj name) :=
  (legible_member obj name).bind fun j _ _ => (legible_valuestring j).bind fun t _ _ =>
    legible_strcpy size t

theorem legible_textMember? (size : Nat) (obj : Json) (name : CText) :
    Legible (textMember? size obj name) := by
  unfold textMember?
  split
  · exact legible_textMember size obj name
  · trivial

theorem legible_parseArray {α : Type} (charSigned : Bool) {parse : Json → Except Fault α}
    (hparse : ∀ j, Legible (parse j)) (attr : Json) :
    Legible (parseArray charSigned parse attr) := by
  unfold parseArray
  dsimp only
  split
  · trivial
  · split
    · exact (Spares.mapM fun j _ => hparse j).bind fun _ _ _ => trivial
    · exact not_not.mpr rfl

theorem legible_parseArray? {α : Type} (charSigned : Bool) {parse : Json → Except Fault α}
    (hparse : ∀ j, Legible (parse j)) (root : Json) (name : CText) :
    Legible (parseArray? charSigned parse root name) := by
  unfold parseArray?
  split
  · exact legible_parseArray charSigned hparse _
  · trivial

theorem legible_parseAttr (j : Json) : Legible (parseAttr j) := by
  refine (legible_textMember 33 j _).bind fun _ _ _ => ?_
  refine (legible_textMember? 8 j _).bind fun _ _ _ => ?_
  refine (legible_textMember? 33 j _).bind fun _ _ _ => ?_
  exact (legible_member j _).bind fun _ _ _ => trivial

theorem legible_parseServerAttr (j : Json) : Legible (parseServerAttr j) := by
  refine (legible_textMember 33 j _).bind fun _ _ _ => ?_
  refine (legible_textMember 33 j _).bind fun _ _ _ => ?_
  refine (legible_textMember 33 j _).bind fun _ _ _ => ?_
  exact (legible_textMember 33 j _).bind fun _ _ _ => trivial

theorem legible_parseEventAttr (j : Json) : Legible (parseEventAttr j) := by
  refine (legible_textMember 33 j _).bind fun _ _ _ => ?_
  refine (legible_textMember 33 j _).bind fun _ _ _ => ?_
  refine (legible_textMember 33 j _).bind fun _ _ _ => ?_
  exact (legible_member j _).bind fun _ _ _ => trivial

theorem cloudLinkParseJson_spares (charSigned : Bool) (devId : CText) (root : Json) :
    Spares Dangling (fun o => ∀ dev, o = some dev → dev.device_name = devId)
      (cloudLinkParseJson charSigned devId root) := by
  unfold cloudLinkParseJson
  split
  next modelId productKey productSecret deviceSecret attr _ _ _ _ _ =>
    split
    · exact nofun
    · refine (legible_valuestring modelId).bind fun t _ _ =>
        (legible_strcpy _ t).bind fun _ _ _ => ?_
      refine (legible_valuestring productKey).bind fun t _ _ =>
        (legible_strcpy _ t).bind fun _ _ _ => ?_
      refine (legible_valuestring productSecret).bind fun t _ _ =>
        (legible_strcpy _ t).bind fun _ _ _ => ?_
      refine (legible_strcpy _ devId).bind fun name hname _ => ?_
      refine (legible_valuestring deviceSecret).bind fun t _ _ =>
        (legible_strcpy _ t).bind fun _ _ _ => ?_
      refine (legible_parseArray charSigned legible_parseAttr attr).bind fun o _ _ => ?_
      cases o with
      | none => exact nofun
      | some attr =>
        refine (legible_parseArray? charSigned legible_parseServerAttr root _).bind
          fun o _ _ => ?_
        cases o with
        | none => exact nofun
        | some serverAttr =>
          refine (legible_parseArray? charSigned legible_parseEventAttr root _).bind
            fun o _ _ => ?_
          cases o with
          | none => exact nofun
          | some eventAttr =>
            intro dev hdev
            obtain rfl := some.inj hdev
            exact (strcpy_eq_ok hname).2
  next => exact nofun

theorem cloudReport_spares (h : Paired m w) {devId : CText}
    (hdev : (hylinkListGetById m devId).isSome) (hyAttr : Option Nat) :
    Spares Dangling (Paired m) (cloudReport k m devId hyAttr w) := by
  obtain ⟨d, hd⟩ := isSome_iff_exists.mp hdev
  obtain rfl := hylinkListGetById_devId hd
  simp only [cloudReport, hd]
  cases hget : cloudLinkListGetById w.cloudMap d.devId with
  | none =>
    have hadd : Spares Dangling (fun r => Paired m r.2) (addCloudDev k d.devId d.modelId w) := by
      unfold addCloudDev
      split
      · exact h
      · refine (cloudLinkParseJson_spares ..).bind fun o _ ho => ?_
        cases o with
        | none => exact h
        | some dev =>
          refine ⟨fun x hx => ?_, h.found⟩
          rcases has_add.mp ⟨x, hx, rfl⟩ with hx | hx
          · rw [← hx, ho dev rfl]
            exact hdev
          · exact h.isSome hx
    refine hadd.bind fun r _ hr => ?_
    split
    · exact hr
    · split
      · exact (cloudSubDevLink_spares hr _ _).bind fun r' _ hr' => hr.within hr'
      · exact hr
  | some dev =>
    dsimp only
    split
    · have hsome : (hylinkListGetById m dev.device_name).isSome := by
        rw [cloudLinkListGetById_name hget]
        exact hdev
      refine (cloudAttrReport_spares hsome hyAttr).mono fun w' _ hw' => ?_
      exact h.within ⟨fun n hn => hw'.1 ▸ hn, hw'.2⟩
    · exact h

theorem keeps_paired (k : Cloud) (hyprofile : CText → Option Json) :
    Keeps (platform k hyprofile) Paired where
  grow h hm := h.grow hm
  call {m w t} h ht := by
    have hline : ∀ id status, Spares Dangling (Paired m)
        (do return (← cloudSubDevLink k m id status w).2) := fun id status =>
      (cloudSubDevLink_spares h id status).bind fun r _ hr => h.within hr
    cases t with
    | subdevLine id status => exact hline id status
    | cloudReport devId hyAttr => exact cloudReport_spares h ht hyAttr
    | devAttr devId =>
      refine Spares.bind (I := fun _ => True) ?_ fun data _ _ => h.within
        ⟨fun _ hn => hn, fun _ hn => hn⟩
      exact (legible_strcpy _ devId).bind fun _ _ _ => trivial
    | sceneReport sceneId =>
      refine ⟨h.device, fun name hname => ?_⟩
      rcases mem_append.mp hname with hname | hname
      · exact h.found name hname
      · simp at hname
    | mqttReport json => exact h
    | systemReset => exact hline none subdevRestore

/-! ## Runs -/

/-- What reaches the cloud side: a message from the gateway, a deletion by the cloud, and a
notification that the gateway was bound or unbound. -/
inductive CloudAction where
  | recv (root : Json)
  | devDel (sn : CText)
  | bind
  | unbind

/-- Handles an action. -/
def act (k : Cloud) (hyprofile : CText → Option Json) (s : HyState CloudState) :
    CloudAction → Except Fault (HyState CloudState)
  | .recv root => do return (← hylinkRecvAnaly (platform k hyprofile) s root).1
  | .devDel sn => do return (← cloudLinkDevDel k sn s).2
  | .bind => do
    return { s with world := (← cloudSubDevLink k s.hyMap none subdevOnline s.world).2 }
  | .unbind => do
    return { s with world := (← cloudSubDevLink k s.hyMap none subdevOffline s.world).2 }

/-- A device that an element unregisters can be restored by the cloud. -/
def UnRegisterOk (k : Cloud) (type : ReportType) (s : HyState CloudState × CText) (d : Json) :
    Prop :=
  type = .unRegister → ∀ id, getStrForJson d strDeviceId devIdLen s.2 = some id →
    (hylinkListGetById s.1.hyMap id).isSome → RestoreOk k s.1.world id

/-- A device that the cloud deletes can be restored, or the message about it cannot be sent. -/
def DevDelOk (k : Cloud) (sn : CText) (s : HyState CloudState) : Prop :=
  RestoreOk k s.world sn ∨
    ∀ r data, cloudSubDevLink k s.hyMap (some sn) subdevRestore s.world = .ok r →
      hylinkDelDevData sn = .ok data → (dispatch k data r.2).1 < 0

/-- Whenever a device is to leave both maps, it leaves both or stays in libhylink's. -/
def RemovalOk (k : Cloud) (hyprofile : CText → Option Json) (s : HyState CloudState) :
    CloudAction → Prop
  | .recv root => ∀ type ds, IsReport root type ds →
      Along (recvStep (platform k hyprofile) type) (UnRegisterOk k type) (s, []) ds
  | .devDel sn => DevDelOk k sn s
  | .bind | .unbind => True

theorem frees_of_restoreOk (hyprofile : CText → Option Json) {id : CText}
    (hrestore : (hylinkListGetById s.hyMap id).isSome → RestoreOk k s.world id) :
    Frees (platform k hyprofile) Paired s id := by
  intro hpaired hsome
  refine (cloudSubDevStatus_spares hpaired id subdevRestore).bind fun r _ hr => ?_
  exact (hpaired.within hr.1).del (hr.2 rfl (hrestore hsome))

theorem cloudLinkDevDel_spares (h : Paired s.hyMap s.world) {sn : CText} (hdel : DevDelOk k sn s) :
    Spares Dangling (fun r => Paired r.2.hyMap r.2.world) (cloudLinkDevDel k sn s) := by
  unfold cloudLinkDevDel
  cases hget : cloudLinkListGetById s.world.cloudMap sn with
  | none => exact h
  | some dev =>
    obtain rfl := cloudLinkListGetById_name hget
    refine (cloudSubDevStatus_spares h dev.device_name subdevRestore).bind fun r hr hkeep => ?_
    have hpaired := h.within hkeep.1
    refine Spares.bind (I := fun _ => True) ?_ fun data hdata _ => ?_
    · exact (legible_strcpy _ _).bind fun _ _ _ => trivial
    · have hcall : Paired s.hyMap (dispatch k data r.2).2 :=
        hpaired.within ⟨fun _ hn => hn, fun _ hn => hn⟩
      rw [spares_pure]
      dsimp only
      split
      next hret =>
        refine hcall.del fun hhas => ?_
        rcases hdel with hok | hfail
        · exact hkeep.2 rfl hok hhas
        · exact absurd (hfail r data hr hdata) (Int.not_lt.mpr hret)
      next => exact hcall

theorem act_spares (hyprofile : CText → Option Json) (h : Paired s.hyMap s.world) {a : CloudAction}
    (ha : RemovalOk k hyprofile s a) :
    Spares Dangling (fun s' => Paired s'.hyMap s'.world) (act k hyprofile s a) := by
  cases a with
  | recv root =>
    refine Spares.bind ((keeps_paired k hyprofile).hylinkRecvAnaly h ?_) fun r _ hr => hr
    intro type ds hreport
    refine (ha type ds hreport).mono fun s d hok htype id hid => ?_
    exact frees_of_restoreOk hyprofile (hok htype id hid)
  | devDel sn => exact (cloudLinkDevDel_spares h ha).bind fun r _ hr => hr
  | bind => exact (cloudSubDevLink_spares h none _).bind fun r _ hr => h.within hr
  | unbind => exact (cloudSubDevLink_spares h none _).bind fun r _ hr => h.within hr

/-- In a run whose removals all leave the device in libhylink's map or take it out of both, no
device that is missing or released is read, and in every state reached the maps are paired and
no report missed its device. -/
theorem run_paired (k : Cloud) (hyprofile : CText → Option Json) {s : HyState CloudState}
    (h : Paired s.hyMap s.world) {as : List CloudAction}
    (has : Along (act k hyprofile) (RemovalOk k hyprofile) s as) {bs : List CloudAction}
    (hbs : bs <+: as) :
    Spares Dangling (fun s' => Paired s'.hyMap s'.world) (bs.foldlM (act k hyprofile) s) :=
  (has.of_prefix hbs).spares (fun _ _ ht ha => act_spares hyprofile ht ha) h

/-! ### A device that comes and goes -/

namespace Sample

def hyprofile (_ : CText) : Option Json :=
  some (.object [("modelId".toList, .string ['m']), ("attr".toList, .array [.object
    [("hyKey".toList, .string ['k']), ("valueType".toList, .number [] 0),
      ("repeat".toList, .number [] 0)]])])

def profile (_ : CText) : Option Json :=
  some (.object [("modelId".toList, .string ['m']), ("productKey".toList, .string ['p']),
    ("productSecret".toList, .string []), ("deviceSecret".toList, .string []),
    ("attr".toList, .array [.object [("hyKey".toList, .string ['k']),
      ("cloudKey".toList, .string ['a']), ("valueType".toList, .number [] 0)]])])

/-- All calls succeed, but for a reset. -/
def online (reset : Int) : Cloud :=
  ⟨true, profile, 0, fun _ c => match c with
    | .devReset _ _ => reset
    | _ => 1⟩

def gateway : HyLinkDev := ⟨['g'], ['m'], subdevOnline, [⟨['k'], .enum 0, 0⟩]⟩

def hyDevice : HyLinkDev := { gateway with devId := ['d'] }

def cloudGateway : CloudLinkDev := ⟨['m'], 0, ⟨['p'], [], ['g'], []⟩, [], [], []⟩

def cloudDevice : CloudLinkDev := ⟨['m'], 1, ⟨['p'], [], ['d'], []⟩, [], [], []⟩

/-- The gateway in both maps. -/
def start : HyState CloudState := ⟨[gateway], [cloudGateway], [], []⟩

/-- And a device. -/
def withDevice : HyState CloudState := ⟨[gateway, hyDevice], [cloudGateway, cloudDevice], [], []⟩

def element : Json := .object [(strDeviceId, .string ['d']), (strModelId, .string ['m'])]

def report (type : ReportType) : Json :=
  .object [(strCommand, .string strReport), (strType, .string type.text),
    (strData, .array [element])]

theorem paired_start : Paired start.hyMap start.world where
  device dev hdev := by
    obtain rfl : dev = cloudGateway := mem_singleton.mp hdev
    rfl
  found _ := not_mem_nil

theorem paired_withDevice : Paired withDevice.hyMap withDevice.world where
  device dev hdev := by
    rcases mem_pair.mp hdev with rfl | rfl <;> rfl
  found _ := not_mem_nil

theorem removalOk : RemovalOk (online 1) hyprofile withDevice (.recv (report .unRegister)) := by
  rintro type ds ⟨-, htype, hdata⟩
  obtain rfl : ReportType.unRegister = type := some.inj htype
  obtain rfl : [element] = ds := some.inj hdata
  refine ⟨fun _ id hid _ => ?_, fun _ _ => trivial⟩
  obtain rfl : ['d'] = id := some.inj hid
  intro dev hdev
  obtain rfl : cloudDevice = dev := some.inj hdev
  decide

end Sample

theorem run_paired_sample :
    Spares Dangling (fun s => Paired s.hyMap s.world)
      ([CloudAction.recv (Sample.report .unRegister)].foldlM
        (act (Sample.online 1) Sample.hyprofile) Sample.withDevice) :=
  run_paired (Sample.online 1) Sample.hyprofile Sample.paired_withDevice
    (show Along _ _ _ [CloudAction.recv (Sample.report .unRegister)] from
      ⟨Sample.removalOk, fun _ _ => trivial⟩) (prefix_refl _)

/-- A device is registered and unregistered while it cannot be reset: the cloud keeps it alone,
and the next notification reads it through a null pointer. -/
theorem unRegister_unpairs :
    Paired Sample.start.hyMap Sample.start.world ∧
    (¬ Spares Dangling (fun s => Paired s.hyMap s.world)
      ([CloudAction.recv (Sample.report .register), .recv (Sample.report .unRegister)].foldlM
        (act (Sample.online (-1)) Sample.hyprofile) Sample.start)) ∧
    [CloudAction.recv (Sample.report .register), .recv (Sample.report .unRegister), .bind].foldlM
      (act (Sample.online (-1)) Sample.hyprofile) Sample.start = .error .missing := by
  have hrun : ∃ s, [CloudAction.recv (Sample.report .register),
      .recv (Sample.report .unRegister)].foldlM (act (Sample.online (-1)) Sample.hyprofile)
        Sample.start = .ok s ∧ s.hyMap = [Sample.gateway] ∧
      s.world.cloudMap.map CloudLinkDev.device_name = [['g'], ['d']] := ⟨_, rfl, rfl, rfl⟩
  refine ⟨Sample.paired_start, fun hspares => ?_, rfl⟩
  obtain ⟨s, hs, hhy, hnames⟩ := hrun
  have hpaired := hspares.of_ok hs
  have hmem : Has s.world.cloudMap ['d'] :=
    List.mem_map.mp (hnames ▸ mem_cons_of_mem _ mem_cons_self)
  have hsome := hpaired.isSome hmem
  rw [hhy] at hsome
  cases hsome

end Honyar.CloudLink
