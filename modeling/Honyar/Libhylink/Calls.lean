import Honyar.Libhylink.Recv

/-!
# What the registered calls keep

A message is handled between calls that were registered by others.  Here is what follows for
messages when all that is known of the calls is a property of the map and their world: it stays
when the map grows, and a call about a device that is in the map keeps it.  Then every element
keeps it, but for one that takes a device out of the map: there it is left to the call made
before.

The faults that count are those of entries that are not there.
-/

namespace Honyar.Libhylink

open Hylink Faults Option

variable {m : List HyLinkDev}

theorem legible_parseAttr (j : Json) : Legible (parseAttr j) := by
  refine (legible_member j _).bind fun hyKey _ _ => ?_
  refine (legible_valuestring hyKey).bind fun t _ _ => (legible_strcpy _ t).bind fun _ _ _ => ?_
  refine (legible_member j _).bind fun _ _ _ => (legible_member j _).bind fun _ _ _ => ?_
  trivial

theorem hyLinkParseJson_spares (devId : CText) (root : Json) :
    Spares Dangling (fun o => ∀ dev, o = some dev → dev.devId = devId)
      (hyLinkParseJson devId root) := by
  unfold hyLinkParseJson
  split
  next modelId attr _ _ =>
    split
    · exact nofun
    · split
      next =>
        refine (legible_strcpy _ devId).bind fun id hid _ => ?_
        refine (legible_valuestring modelId).bind fun t _ _ => ?_
        refine (legible_strcpy _ t).bind fun m _ _ => ?_
        refine (Spares.mapM fun j _ => legible_parseAttr j).bind fun as _ _ dev hdev => ?_
        obtain rfl := some.inj hdev
        exact (strcpy_eq_ok hid).2
      next => exact not_not.mpr rfl
  next => exact nofun

/-! ## Maps that grow -/

/-- Every device of one map is in the other. -/
def Grows (m m' : List HyLinkDev) : Prop :=
  ∀ id, (hylinkListGetById m id).isSome → (hylinkListGetById m' id).isSome

theorem Grows.refl (m : List HyLinkDev) : Grows m m := fun _ h => h

theorem Grows.trans {m' m'' : List HyLinkDev} (h : Grows m m') (h' : Grows m' m'') :
    Grows m m'' := fun id hid => h' id (h id hid)

theorem grows_add (m : List HyLinkDev) (dev : HyLinkDev) : Grows m (hylinkListAdd m dev) := by
  intro id hid
  rw [hylinkListGetById_add]
  split
  · rfl
  · exact hid

theorem isSome_add (m : List HyLinkDev) (dev : HyLinkDev) :
    (hylinkListGetById (hylinkListAdd m dev) dev.devId).isSome := by
  rw [hylinkListGetById_add, if_pos rfl]
  rfl

theorem addProfileDev_spares (hyprofile : CText → Option Json) (m : List HyLinkDev)
    (devId modelId : CText) :
    Spares Dangling (fun r => Grows m r.2 ∧
        ∀ dev, r.1 = some dev → (hylinkListGetById r.2 dev.devId).isSome)
      (addProfileDev hyprofile m devId modelId) := by
  unfold addProfileDev
  cases hyprofile modelId with
  | none => exact ⟨.refl m, nofun⟩
  | some root =>
    refine (hyLinkParseJson_spares devId root).bind fun o _ _ => ?_
    cases o with
    | none => exact ⟨.refl m, nofun⟩
    | some dev =>
      refine ⟨grows_add m dev, fun dev' hdev' => ?_⟩
      obtain rfl : dev = dev' := some.inj hdev'
      exact isSome_add m dev

theorem legible_receive (charSigned : Bool) (rep : BitVec 8) (text : CText) (c : Cell) :
    Legible (c.receive charSigned rep text) := by
  have hplain : ∀ (q : Prop) [Decidable q] (a b : Cell × Bool),
      Legible (if q then pure a else pure b : Except Fault (Cell × Bool)) := by
    intro q _ a b
    split <;> trivial
  cases c with
  | enum hyVal => exact hplain _ _ _
  | num hyVal => exact hplain _ _ _
  | string hyVal =>
    simp only [Cell.receive]
    split
    · trivial
    · exact (legible_strcpy _ text).bind fun _ _ _ => trivial
  | other => trivial

theorem hylinkSubDevAttrUpdate_spares (charSigned : Bool) (dev : HyLinkDev) (d : Json) :
    Spares Dangling (fun r => r.1.devId = dev.devId)
      (hylinkSubDevAttrUpdate charSigned dev d) := by
  unfold hylinkSubDevAttrUpdate
  split
  next => rfl
  next Key _ =>
    refine (legible_valuestring Key).bind fun key _ _ => ?_
    dsimp only
    split
    next i value _ _ =>
      refine (legible_valuestring value).bind fun text _ _ => ?_
      split
      · rfl
      · split
        · exact not_not.mpr rfl
        · exact (legible_receive ..).bind fun _ _ _ => rfl
    next => rfl

/-! ## Elements -/

/-- The device a report is about is in the map. -/
def Known (m : List HyLinkDev) : Transfer → Prop
  | .cloudReport devId _ => (hylinkListGetById m devId).isSome
  | _ => True

/-- The property stays when the map grows, and the registered calls keep it. -/
structure Keeps {χ : Type} (p : Platform χ) (K : List HyLinkDev → χ → Prop) : Prop where
  grow : ∀ {m m' : List HyLinkDev} {w : χ}, K m w → Grows m m' → K m' w
  call : ∀ {m : List HyLinkDev} {w : χ} {t : Transfer}, K m w → Known m t →
    Spares Dangling (K m) (p.transferCb m t w)

variable {χ : Type} {p : Platform χ} {K : List HyLinkDev → χ → Prop} {s : HyState χ}

/-- The property holds, in a map with all the devices of another. -/
def From (K : List HyLinkDev → χ → Prop) (m : List HyLinkDev) (s : HyState χ) : Prop :=
  Grows m s.hyMap ∧ K s.hyMap s.world

/-- The call about a device that is taken out of the map leaves the property for the map without
it. -/
def Frees (p : Platform χ) (K : List HyLinkDev → χ → Prop) (s : HyState χ) (id : CText) : Prop :=
  K s.hyMap s.world → (hylinkListGetById s.hyMap id).isSome →
    Spares Dangling (K (hylinkListDel s.hyMap id))
      (p.transferCb s.hyMap (.subdevLine (some id) subdevRestore) s.world)

/-- Where an element takes a device out of the map, the call before it leaves the property. -/
def Allowed (p : Platform χ) (K : List HyLinkDev → χ → Prop) (type : ReportType)
    (s : HyState χ × CText) (d : Json) : Prop :=
  type = .unRegister → ∀ id, getStrForJson d strDeviceId devIdLen s.2 = some id → Frees p K s.1 id

/-- The message is a report of a type, with these elements. -/
structure IsReport (root : Json) (type : ReportType) (ds : List Json) : Prop where
  command : root.getObjectItem strCommand = some (.string strReport)
  type : (root.getObjectItem strType).bind (fun t => t.valuestring?.bind findReportType) = some type
  data : (root.getObjectItem strData).map Json.children = some ds

/-- A report that is no reset goes through its elements, and is passed on. -/
theorem IsReport.hylinkRecvAnaly_eq {p : Platform χ} {root : Json} {type : ReportType}
    {ds : List Json} (h : IsReport root type ds) (htype : type ≠ .reFactory) :
    hylinkRecvAnaly p s root = do
      let r ← ds.foldlM (recvStep p type) (s, [])
      return (← runTransferCb p r.1 (.mqttReport root), true) := by
  obtain ⟨Data, hData, rfl⟩ := map_eq_some_iff.mp h.data
  obtain ⟨typeJson, htypeJson, hfind⟩ := bind_eq_some_iff.mp h.type
  simp only [hylinkRecvAnaly, h.command, hData, htypeJson, hfind, valuestring,
    Json.valuestring?_string, Fault.ofOption, ok_bind, if_true]

/-- And so does every element of a message. -/
def MessageAllowed (p : Platform χ) (K : List HyLinkDev → χ → Prop) (s : HyState χ)
    (root : Json) : Prop :=
  ∀ type ds, IsReport root type ds → Along (recvStep p type) (Allowed p K type) (s, []) ds

namespace Keeps

variable {id : CText}

theorem add (hp : Keeps p K) (h : From K m s) (dev : HyLinkDev) :
    From K m { s with hyMap := hylinkListAdd s.hyMap dev } :=
  ⟨h.1.trans (grows_add _ _), hp.grow h.2 (grows_add _ _)⟩

theorem runTransferCb (hp : Keeps p K) (h : From K m s) (t : Transfer) (ht : Known m t) :
    Spares Dangling (From K m) (runTransferCb p s t) := by
  have hknown : Known s.hyMap t := by
    cases t with
    | cloudReport devId hyAttr => exact h.1 devId ht
    | _ => trivial
  exact (hp.call h.2 hknown).bind fun w _ hw => ⟨h.1, hw⟩

theorem entry (h : From K m s) (hid : (hylinkListGetById m id).isSome) :
    Spares Dangling (fun dev => dev.devId = id) (entry s id) := by
  obtain ⟨dev, hdev⟩ := isSome_iff_exists.mp (h.1 id hid)
  rw [Libhylink.entry, hdev]
  exact hylinkListGetById_devId hdev

theorem addDev (hp : Keeps p K) (h : K s.hyMap s.world) (devId modelId : CText)
    (devAttr : Bool) :
    Spares Dangling (fun s' => K s'.hyMap s'.world) (addDev p s devId modelId devAttr) := by
  refine (addProfileDev_spares _ _ devId modelId).bind fun r _ hr => ?_
  have hgrow := hp.grow h hr.1
  dsimp only
  split
  next => exact hgrow
  next dev hdev =>
    have hfrom : From K r.2 ⟨r.2, s.world⟩ := ⟨.refl _, hgrow⟩
    refine (hp.runTransferCb hfrom (.cloudReport dev.devId none) (hr.2 dev hdev)).bind
      fun s' _ hs' => ?_
    split
    · exact (hp.runTransferCb hs' (.devAttr dev.devId) trivial).mono fun _ _ h => h.2
    · exact hs'.2

theorem updateParams (hp : Keeps p K) (h : From K m s) (Data : Json)
    (hid : (hylinkListGetById m id).isSome) :
    Spares Dangling (fun s' => K s'.hyMap s'.world) (updateParams p s Data id) := by
  refine Spares.bind (Along.spares (P := fun _ _ => True) ?_ h (.of_forall fun _ _ _ => trivial))
    fun s₁ _ h₁ => ?_
  · intro s param hs _
    refine (entry hs hid).bind fun dev _ hdev => ?_
    refine (hylinkSubDevAttrUpdate_spares ..).bind fun r _ hr => ?_
    dsimp only
    split
    · exact hp.add hs r.1
    all_goals
      split
      · exact hp.add hs r.1
      · exact not_not.mpr rfl
  · refine (hp.runTransferCb h₁ (.cloudReport id none) hid).bind fun s₂ _ h₂ => ?_
    exact (hp.runTransferCb h₂ (.devAttr id) trivial).mono fun _ _ h => h.2

theorem hylinkAnalyDevInfo (hp : Keeps p K) (h : K s.hyMap s.world) (Data : Json) :
    Spares Dangling (fun s' => K s'.hyMap s'.world) (hylinkAnalyDevInfo p s Data) := by
  unfold Libhylink.hylinkAnalyDevInfo
  split
  next =>
    split
    next => exact h
    next devidJson _ =>
      refine (legible_ofOption _).bind fun online _ _ => ?_
      refine (legible_valuestring devidJson).bind fun devId _ _ => ?_
      split
      next =>
        split
        next =>
          refine (legible_ofOption _).bind fun hyModelId _ _ => ?_
          refine (addProfileDev_spares _ _ devId hyModelId).bind fun r _ hr => ?_
          have hgrow := hp.grow h hr.1
          dsimp only
          split
          next => exact hgrow
          next dev hdev => exact hp.updateParams ⟨.refl _, hgrow⟩ Data (hr.2 dev hdev)
        next => exact h
      next dev hdev =>
        split
        next => exact h
        next =>
          have hfrom := hp.add (s := s) ⟨.refl _, h⟩ { dev with online := online }
          refine (hp.runTransferCb hfrom (.subdevLine (some devId) online) trivial).bind
            fun s' _ hs' => ?_
          exact hp.updateParams hs' Data (by rw [hdev]; rfl)
  next => exact h

theorem updateAttr_from (hp : Keeps p K) (d : Json) {devId : CText}
    (hdev : (hylinkListGetById s.hyMap devId).isSome) {s' : HyState χ} (hs' : From K s.hyMap s') :
    Spares Dangling (fun s' => K s'.hyMap s'.world) (do
      let (dev', type) ← hylinkSubDevAttrUpdate p.charSigned (← Libhylink.entry s' devId) d
      let s := { s' with hyMap := hylinkListAdd s'.hyMap dev' }
      match type with
      | .success i => Libhylink.runTransferCb p s (.cloudReport devId (some i))
      | .repeated | .fail => return s) := by
  refine (entry hs' hdev).bind fun e _ _ => ?_
  refine (hylinkSubDevAttrUpdate_spares ..).bind fun r _ _ => ?_
  have hadd := hp.add hs' r.1
  dsimp only
  split
  · exact (hp.runTransferCb hadd (.cloudReport devId (some _)) hdev).mono fun _ _ h => h.2
  · exact hadd.2
  · exact hadd.2

theorem updateAttr (hp : Keeps p K) (h : K s.hyMap s.world) (d : Json) {dev : HyLinkDev}
    (hdev : (hylinkListGetById s.hyMap dev.devId).isSome) :
    Spares Dangling (fun s' => K s'.hyMap s'.world) (updateAttr p s d dev) := by
  have hfrom : From K s.hyMap s := ⟨.refl _, h⟩
  unfold Libhylink.updateAttr
  dsimp only
  split
  next =>
    refine (hp.runTransferCb (hp.add hfrom _) (.subdevLine (some dev.devId) subdevOnline)
      trivial).bind fun s₁ _ h₁ => ?_
    exact (hp.runTransferCb h₁ (.devAttr dev.devId) trivial).bind fun s₂ _ h₂ =>
      hp.updateAttr_from d hdev h₂
  next => exact hp.updateAttr_from d hdev hfrom

theorem execScene (hp : Keeps p K) (h : K s.hyMap s.world) (d : Json) (id : CText) :
    Spares Dangling (fun s' => K s'.hyMap s'.world)
      (Libhylink.recvElement p .localScene d s id) := by
  refine (legible_member d _).bind fun j _ _ => (legible_valuestring j).bind fun Op _ _ => ?_
  split
  · split
    · exact (legible_valuestring _).bind fun Id _ _ =>
        (hp.runTransferCb ⟨.refl _, h⟩ (.sceneReport Id) trivial).mono fun _ _ h => h.2
    · exact h
  · exact h

theorem recvElement (hp : Keeps p K) (h : K s.hyMap s.world) {type : ReportType} (d : Json)
    (hfrees : type = .unRegister → Frees p K s id) :
    Spares Dangling (fun s' => K s'.hyMap s'.world) (recvElement p type d s id) := by
  have hfrom : From K s.hyMap s := ⟨.refl _, h⟩
  have hmodel : Spares Dangling (fun s' => K s'.hyMap s'.world)
      (if hasObjectItem d strModelId then do
        let hyModelId ← Fault.ofOption (getStrForJson d strModelId devIdLen [])
        Libhylink.addDev p s id hyModelId true
      else return s) := by
    split
    · exact (legible_ofOption _).bind fun hyModelId _ _ => hp.addDev h id hyModelId true
    · exact h
  cases hget : hylinkListGetById s.hyMap id with
  | none =>
    cases type with
    | register =>
      simp only [Libhylink.recvElement, hget]
      exact (legible_ofOption _).bind fun hyModelId _ _ => hp.addDev h id hyModelId false
    | unRegister =>
      simp only [Libhylink.recvElement, hget]
      exact h
    | onOff =>
      simp only [Libhylink.recvElement, hget]
      refine (legible_ofOption _).bind fun online _ _ => ?_
      split
      · exact (legible_ofOption _).bind fun hyModelId _ _ => hp.addDev h id hyModelId true
      · exact h
    | attr | event | devAttri =>
      simp only [Libhylink.recvElement, hget]
      exact hmodel
    | devsInfo => exact hp.hylinkAnalyDevInfo h d
    | localScene => exact hp.execScene h d id
    | reFactory => exact h
  | some dev =>
    have hsome : (hylinkListGetById s.hyMap id).isSome := by rw [hget]; rfl
    cases type with
    | register =>
      simp only [Libhylink.recvElement, hget]
      exact (hp.runTransferCb (hp.add hfrom _) (.subdevLine (some id) subdevOnline)
        trivial).mono fun _ _ h => h.2
    | unRegister =>
      simp only [Libhylink.recvElement, hget]
      have hdel : Spares Dangling
          (fun s' : HyState χ => s'.hyMap = s.hyMap ∧ K (hylinkListDel s.hyMap id) s'.world)
          (Libhylink.runTransferCb p s (.subdevLine (some id) subdevRestore)) :=
        (hfrees rfl h hsome).bind fun w _ hw => ⟨rfl, hw⟩
      refine hdel.bind fun s' _ hs' => ?_
      rw [Libhylink.entry, hs'.1, hget]
      obtain rfl := hylinkListGetById_devId hget
      exact hs'.2
    | onOff =>
      simp only [Libhylink.recvElement, hget]
      refine (legible_ofOption _).bind fun online _ _ => ?_
      split
      · exact h
      · refine (legible_ofOption _).bind fun online _ _ => ?_
        exact (hp.runTransferCb (hp.add hfrom _) (.subdevLine (some id) online)
          trivial).mono fun _ _ h => h.2
    | attr | event | devAttri =>
      simp only [Libhylink.recvElement, hget]
      refine hp.updateAttr h d ?_
      rw [hylinkListGetById_devId hget]
      exact hsome
    | devsInfo => exact hp.hylinkAnalyDevInfo h d
    | localScene => exact hp.execScene h d id
    | reFactory => exact h

theorem hylinkRecvAnaly (hp : Keeps p K) (h : K s.hyMap s.world) {root : Json}
    (hm : MessageAllowed p K s root) :
    Spares Dangling (fun r => K r.1.hyMap r.1.world) (hylinkRecvAnaly p s root) := by
  have hcall : ∀ (s : HyState χ) (t : Transfer) (b : Bool), K s.hyMap s.world → Known s.hyMap t →
      Spares Dangling (fun r : HyState χ × Bool => K r.1.hyMap r.1.world)
        (do return (← Libhylink.runTransferCb p s t, b)) := by
    intro s t b hs ht
    exact (hp.runTransferCb ⟨.refl _, hs⟩ t ht).bind fun s' _ hs' => hs'.2
  unfold Libhylink.hylinkRecvAnaly
  split
  next => exact h
  next Command hCommand =>
    refine (legible_valuestring Command).bind fun command hcommand _ => ?_
    dsimp only
    split
    next hreport =>
      have hroot : root.getObjectItem strCommand = some (.string strReport) := by
        subst hreport
        rw [hCommand]
        cases Command with
        | string t =>
          obtain rfl : t = strReport := Except.ok.inj hcommand
          rfl
        | _ => cases hcommand
      split
      next typeJson Data htype hData =>
        split
        next => exact h
        next => exact hcall s _ _ h trivial
        next type _ hfind =>
          have hAlong := hm type Data.children
            ⟨hroot, by rw [htype]; exact hfind, by rw [hData]; rfl⟩
          refine Spares.bind (I := fun r : HyState χ × CText => K r.1.hyMap r.1.world)
            (hAlong.spares ?_ h) fun r _ hr => hcall r.1 _ _ hr trivial
          intro s d hs hallowed
          unfold recvStep
          cases hid : getStrForJson d strDeviceId devIdLen s.2 with
          | none => exact not_not.mpr rfl
          | some id =>
            exact (hp.recvElement hs d fun ht => hallowed ht id hid).bind fun s' _ hs' => hs'
      next => exact h
    next =>
      split
      · exact hcall s _ _ h trivial
      · exact h

end Keeps

end Honyar.Libhylink
