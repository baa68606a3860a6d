import Honyar.Libhylink.Recv
import Honyar.Lib.Ledger

/-!
# Values reported to the cloud

What the cloud is to be told of an attribute, said without cells: the texts that arrived for it,
each read as its type asks for, the value after them the last one, and a report for each that
changes the value or belongs to an attribute marked for repetition.

The cells follow this as long as each text is one its cell can hold, and no other attribute has
the key.
-/

namespace Honyar.Libhylink

open Hylink Option List Faults

variable {c : Cell} {a : HyLinkDevAttr} {reported : Prop} {dev₀ : HyLinkDev} {ds : List Json}

/-- A value of an attribute, as the cloud is told it. -/
inductive Reported where
  | number (n : Int)
  | text (t : CText)
deriving DecidableEq, Repr

/-- The value under a key of the cloud. -/
def Reported.json (cloudKey : CText) : Reported → Json
  | number n => .object [(cloudKey, .number (CText.ofInt n) n)]
  | text t => .object [(cloudKey, .string t)]

namespace Cell

/-- What a text says to an attribute of that type. -/
def reads (text : CText) : Cell → Reported
  | .enum _ | .num _ => .number (CText.atoi text)
  | .string _ | .other _ => .text text

/-- The value a cell is read as. -/
def shown (charSigned : Bool) : Cell → Option Reported
  | .enum hyVal => some (.number (charVal charSigned hyVal))
  | .num hyVal => some (.number hyVal.toInt)
  | .string hyVal => some (.text hyVal)
  | .other _ => none

theorem generateCloudJson_eq (charSigned : Bool) (cloudKey : CText) (c : Cell) :
    generateCloudJson charSigned cloudKey c =
      (c.shown charSigned).map (Reported.json cloudKey) := by
  cases c <;> rfl

/-- The text is there, and what it says fits the cell: one byte, four bytes, or seventeen
characters. -/
def Holds (charSigned : Bool) (text : CText) : Cell → Prop
  | .enum _ => text ≠ [] ∧
      charVal charSigned (.ofInt 8 (CText.atoi text)) = CText.atoi text
  | .num _ => text ≠ [] ∧ (BitVec.ofInt 32 (CText.atoi text)).toInt = CText.atoi text
  | .string _ => text ≠ [] ∧ text.length < stringLen
  | .other _ => False

/-- Two cells of one type. -/
structure Alike (c c' : Cell) : Prop where
  reads (t : CText) : c'.reads t = c.reads t
  holds (charSigned : Bool) (t : CText) : c'.Holds charSigned t ↔ c.Holds charSigned t

theorem Alike.refl (c : Cell) : Alike c c := ⟨fun _ => rfl, fun _ _ => Iff.rfl⟩

theorem Alike.trans {c' c'' : Cell} (h : Alike c c') (h' : Alike c' c'') : Alike c c'' :=
  ⟨fun t => (h'.reads t).trans (h.reads t), fun s t => (h'.holds s t).trans (h.holds s t)⟩

theorem Holds.ne_nil {charSigned : Bool} {text : CText} (h : c.Holds charSigned text) :
    text ≠ [] := by
  cases c with
  | other => exact h.elim
  | enum | num | string => exact h.1

theorem toInt_of_charVal {charSigned : Bool} {n : Int}
    (h : charVal charSigned (.ofInt 8 n) = n) : (BitVec.ofInt 32 n).toInt = n := by
  rw [BitVec.toInt_ofInt]
  apply Int.bmod_eq_of_le <;> rw [← h] <;> unfold charVal <;> split
  · have := BitVec.le_toInt (.ofInt 8 n : BitVec 8)
    omega
  · omega
  · have := BitVec.toInt_lt (x := (.ofInt 8 n : BitVec 8))
    omega
  · have := (.ofInt 8 n : BitVec 8).isLt
    omega

/-- A text a cell can hold is what it shows afterwards, and is passed on when it is new or the
attribute is marked. -/
theorem receive_of_holds {charSigned : Bool} {text : CText} (h : c.Holds charSigned text)
    (rep : BitVec 8) :
    ∃ c' b, c.receive charSigned rep text = .ok (c', b) ∧ Alike c c' ∧
      c'.shown charSigned = some (c.reads text) ∧
      (b = true ↔ some (c.reads text) ≠ c.shown charSigned ∨ rep = repeatReport) := by
  cases c with
  | enum hyVal =>
    have hnum := toInt_of_charVal h.2
    by_cases heq : CText.atoi text = charVal charSigned hyVal
    · refine ⟨.enum hyVal, rep = repeatReport, ?_, .refl _, ?_, ?_⟩
      · simp only [receive, hnum, if_pos heq]
        rfl
      · rw [shown, reads, heq]
      · simp [shown, reads, heq]
    · refine ⟨.enum (.ofInt 8 (CText.atoi text)), true, ?_, ⟨fun _ => rfl, fun _ _ => Iff.rfl⟩,
        ?_, ?_⟩
      · simp only [receive, hnum, if_neg heq]
        rfl
      · rw [shown, reads, h.2]
      · simp [shown, reads, heq]
  | num hyVal =>
    by_cases heq : BitVec.ofInt 32 (CText.atoi text) = hyVal
    · refine ⟨.num hyVal, rep = repeatReport, ?_, .refl _, ?_, ?_⟩
      · simp only [receive, if_pos heq]
        rfl
      · rw [shown, reads, ← heq, h.2]
      · simp [shown, reads, ← heq, h.2]
    · refine ⟨.num (.ofInt 32 (CText.atoi text)), true, ?_,
        ⟨fun _ => rfl, fun _ _ => Iff.rfl⟩, ?_, ?_⟩
      · simp only [receive, if_neg heq]
        rfl
      · rw [shown, reads, h.2]
      · have hne : CText.atoi text ≠ hyVal.toInt := fun hc => heq (by rw [hc, BitVec.ofInt_toInt])
        simp [shown, reads, hne]
  | string hyVal =>
    by_cases heq : hyVal = text
    · refine ⟨.string hyVal, rep = repeatReport, ?_, .refl _, ?_, ?_⟩
      · simp only [receive, if_pos heq]
        rfl
      · rw [shown, reads, heq]
      · simp [shown, reads, heq]
    · refine ⟨.string text, true, ?_, ⟨fun _ => rfl, fun _ _ => Iff.rfl⟩, ?_, ?_⟩
      · simp only [receive, if_neg heq, strcpy, if_pos h.2]
        rfl
      · rw [shown, reads]
      · simp [shown, reads, Ne.symm heq]
  | other => exact h.elim

end Cell

/-! ## Elements of a message -/

/-- The text an element carries for the attribute with a key. -/
def carriedText (hyKey : CText) (d : Json) : Option CText :=
  match d.getObjectItem strKey, d.getObjectItem strValue with
  | some (.string k), some (.string t) => if k = hyKey then some t else none
  | _, _ => none

theorem carriedText_eq_some {hyKey : CText} {d : Json} {t : CText} :
    carriedText hyKey d = some t ↔
      d.getObjectItem strKey = some (.string hyKey) ∧
        d.getObjectItem strValue = some (.string t) := by
  unfold carriedText
  split
  next k t' hk hv =>
    rw [hk, hv, ite_none_right_eq_some, some.injEq, some.injEq,
      some.injEq, Json.string.injEq, Json.string.injEq]
  next hno =>
    constructor
    · nofun
    · exact fun h => (hno _ _ h.1 h.2).elim

/-- An element about a device: its key and its value are texts, if they are there. -/
structure ForDevice (id : CText) (d : Json) : Prop where
  devId : d.getObjectItem strDeviceId = some (.string id)
  key : ∀ v, d.getObjectItem strKey = some v → ∃ k, v = .string k
  value : ∀ v, d.getObjectItem strValue = some v → ∃ t, v = .string t

/-- What the element carries goes to one attribute, which can hold it. -/
structure Fits (charSigned : Bool) (attrs : List HyLinkDevAttr) (d : Json) : Prop where
  holds : ∀ a ∈ attrs, ∀ t, carriedText a.hyKey d = some t → a.value.Holds charSigned t
  only : ∀ (i j : Nat) (a b : HyLinkDevAttr), attrs[i]? = some a → attrs[j]? = some b →
    (carriedText a.hyKey d).isSome → a.hyKey = b.hyKey → i = j

/-- What an element does to one attribute, and whether it is reported. -/
structure Received (charSigned : Bool) (d : Json) (a a' : HyLinkDevAttr) (reported : Prop) :
    Prop where
  hyKey : a'.hyKey = a.hyKey
  repeated : a'.repeated = a.repeated
  alike : a.value.Alike a'.value
  kept : carriedText a.hyKey d = none → a'.value = a.value ∧ ¬ reported
  taken : ∀ t, carriedText a.hyKey d = some t →
    a'.value.shown charSigned = some (a.value.reads t) ∧
      (reported ↔ some (a.value.reads t) ≠ a.value.shown charSigned ∨ a.repeated = repeatReport)

theorem Received.refl {charSigned : Bool} {d : Json} (hnone : carriedText a.hyKey d = none)
    (hnot : ¬ reported) : Received charSigned d a a reported :=
  ⟨rfl, rfl, .refl _, fun _ => ⟨rfl, hnot⟩, fun t ht => by rw [hnone] at ht; cases ht⟩

variable {charSigned : Bool} {id : CText} {dev : HyLinkDev} {d : Json}

theorem hylinkSubDevAttrUpdate_of_none (hd : ForDevice id d)
    (hnone : ∀ a ∈ dev.attr, carriedText a.hyKey d = none) :
    hylinkSubDevAttrUpdate charSigned dev d = .ok (dev, .fail) := by
  unfold hylinkSubDevAttrUpdate
  cases hk : d.getObjectItem strKey with
  | none => rfl
  | some v =>
    obtain ⟨k, rfl⟩ := hd.key v hk
    simp only [valuestring, Json.valuestring?, Fault.ofOption, ok_bind]
    cases hi : dev.attr.findIdx? (·.hyKey = k) with
    | none => rfl
    | some i =>
      cases hv : d.getObjectItem strValue with
      | none => rfl
      | some v =>
        obtain ⟨t, rfl⟩ := hd.value v hv
        obtain ⟨hlt, hkey, -⟩ := findIdx?_eq_some_iff_getElem.mp hi
        have hsame : dev.attr[i].hyKey = k := of_decide_eq_true hkey
        have hcarried := carriedText_eq_some.mpr ⟨hsame ▸ hk, hv⟩
        rw [hnone _ (getElem_mem hlt)] at hcarried
        cases hcarried

theorem hylinkSubDevAttrUpdate_of_some {i : Nat} {t : CText} (hfits : Fits charSigned dev.attr d)
    (hi : dev.attr[i]? = some a) (ht : carriedText a.hyKey d = some t) :
    ∃ a' b, hylinkSubDevAttrUpdate charSigned dev d =
        .ok ({ dev with attr := dev.attr.set i a' }, if b then .success i else .repeated) ∧
      Received charSigned d a a' (b = true) := by
  have hmem := mem_of_getElem? hi
  have hholds := hfits.holds a hmem t ht
  obtain ⟨c', b, hreceive, halike, hshown, hb⟩ := Cell.receive_of_holds hholds a.repeated
  refine ⟨{ a with value := c' }, b, ?_, rfl, rfl, halike, ?_, ?_⟩
  · obtain ⟨hk, hv⟩ := carriedText_eq_some.mp ht
    have hidx : dev.attr.findIdx? (·.hyKey = a.hyKey) = some i := by
      obtain ⟨hlt, heq⟩ := List.getElem?_eq_some_iff.mp hi
      refine findIdx?_eq_some_iff_getElem.mpr ⟨hlt, by simp [heq], fun j hj hsame => ?_⟩
      have hother : dev.attr[j]? = some dev.attr[j] := getElem?_eq_getElem _
      have hij := hfits.only i j a _ hi hother (by rw [ht]; rfl) (of_decide_eq_true hsame).symm
      exact Nat.ne_of_gt hj hij
    unfold hylinkSubDevAttrUpdate
    simp only [hk, hv, valuestring, Json.valuestring?, Fault.ofOption, ok_bind, hidx,
      if_neg hholds.ne_nil, hi, hreceive]
    rfl
  · intro hnone
    rw [ht] at hnone
    cases hnone
  · intro t' ht'
    obtain rfl : t = t' := some.inj (ht.symm.trans ht')
    exact ⟨hshown, hb⟩

theorem hylinkSubDevAttrUpdate_received (hd : ForDevice id d)
    (hfits : Fits charSigned dev.attr d) :
    ∃ attrs u, hylinkSubDevAttrUpdate charSigned dev d = .ok ({ dev with attr := attrs }, u) ∧
      attrs.length = dev.attr.length ∧
      ∀ i a a', dev.attr[i]? = some a → attrs[i]? = some a' →
        Received charSigned d a a' (u = .success i) := by
  by_cases hnone : ∀ a ∈ dev.attr, carriedText a.hyKey d = none
  · refine ⟨dev.attr, .fail, hylinkSubDevAttrUpdate_of_none hd hnone, rfl, ?_⟩
    intro i a a' ha ha'
    obtain rfl : a = a' := some.inj (ha.symm.trans ha')
    exact .refl (hnone a (mem_of_getElem? ha)) nofun
  · push Not at hnone
    obtain ⟨a, hmem, hcarried⟩ := hnone
    obtain ⟨t, ht⟩ := ne_none_iff_exists'.mp hcarried
    obtain ⟨i, hi⟩ := mem_iff_getElem?.mp hmem
    obtain ⟨a', b, hupdate, hreceived⟩ := hylinkSubDevAttrUpdate_of_some hfits hi ht
    refine ⟨_, _, hupdate, length_set, ?_⟩
    intro j x x' hx hx'
    by_cases hij : i = j
    · subst hij
      obtain rfl : a = x := some.inj (hi.symm.trans hx)
      obtain ⟨hlt, -⟩ := List.getElem?_eq_some_iff.mp hi
      rw [getElem?_set_self hlt] at hx'
      obtain rfl : a' = x' := some.inj hx'
      have hb : ((if b then AttrUpdate.success i else .repeated) = .success i) = (b = true) := by
        cases b <;> simp
      rwa [hb]
    · rw [getElem?_set_ne hij] at hx'
      obtain rfl : x = x' := some.inj (hx.symm.trans hx')
      refine .refl ?_ ?_
      · by_contra hsome
        refine hij (hfits.only j i x a hx hi (isSome_iff_ne_none.mpr hsome) ?_).symm
        obtain ⟨t', ht'⟩ := ne_none_iff_exists'.mp hsome
        have hkeys := (carriedText_eq_some.mp ht).1.symm.trans (carriedText_eq_some.mp ht').1
        exact (Json.string.inj (some.inj hkeys)).symm
      · cases b with
        | true =>
          intro hc
          exact hij (AttrUpdate.success.inj hc)
        | false => nofun

/-! ## Runs -/

/-- A report of an attribute: the device, the attribute, and what is emitted from its cell. -/
structure Report where
  devId : CText
  hyAttr : Nat
  value : Option Reported
deriving DecidableEq, Repr

variable {s : HyState (List Report)}

/-- The platform that writes the reports of attributes down. -/
def recording (charSigned : Bool) (hyprofile : CText → Option Json) : Platform (List Report) where
  charSigned := charSigned
  hyprofile := hyprofile
  transferCb hyMap t log :=
    match t with
    | .cloudReport devId (some i) =>
      .ok (log ++ [⟨devId, i, ((hylinkListGetById hyMap devId).bind fun dev => dev.attr[i]?).bind
        fun a => a.value.shown charSigned⟩])
    | _ => .ok log

/-- The values of the reports of an attribute. -/
def reports (id : CText) (i : Nat) (log : List Report) : List (Option Reported) :=
  (log.filter fun r => r.devId = id ∧ r.hyAttr = i).map Report.value

/-- The readings of an attribute that elements carry. -/
def readings (a : HyLinkDevAttr) (ds : List Json) : List Reported :=
  (ds.filterMap (carriedText a.hyKey)).map fun t => a.value.reads t

/-- The device shows of every attribute the last reading, and its reports are those of the
readings that changed it, or all of them if it is marked. -/
def Mirrored (charSigned : Bool) (id : CText) (dev₀ : HyLinkDev) (ds : List Json)
    (s : HyState (List Report)) : Prop :=
  ∃ dev, hylinkListGetById s.hyMap id = some dev ∧ dev.attr.length = dev₀.attr.length ∧
    ∀ i a₀ a, dev₀.attr[i]? = some a₀ → dev.attr[i]? = some a →
      (∀ cloudKey, generateCloudJson charSigned cloudKey a.value =
        (Ledger.current (a₀.value.shown charSigned) (readings a₀ ds)).map
          (Reported.json cloudKey)) ∧
      reports id i s.world =
        (Ledger.changes (a₀.repeated = repeatReport) (a₀.value.shown charSigned)
          (readings a₀ ds)).map some

/-- An attribute after the elements, by what it was before them. -/
structure Follows (charSigned : Bool) (ds : List Json) (a₀ a : HyLinkDevAttr) : Prop where
  hyKey : a.hyKey = a₀.hyKey
  repeated : a.repeated = a₀.repeated
  alike : a₀.value.Alike a.value
  shown : a.value.shown charSigned =
    Ledger.current (a₀.value.shown charSigned) (readings a₀ ds)

/-- `Mirrored`, with what stays of the attributes. -/
def Tracked (charSigned : Bool) (id : CText) (dev₀ : HyLinkDev) (ds : List Json)
    (s : HyState (List Report)) : Prop :=
  ∃ dev, hylinkListGetById s.hyMap id = some dev ∧ dev.attr.length = dev₀.attr.length ∧
    ∀ i a₀ a, dev₀.attr[i]? = some a₀ → dev.attr[i]? = some a →
      Follows charSigned ds a₀ a ∧
      reports id i s.world =
        (Ledger.changes (a₀.repeated = repeatReport) (a₀.value.shown charSigned)
          (readings a₀ ds)).map some

theorem readings_snoc (a : HyLinkDevAttr) (ds : List Json) (d : Json) :
    readings a (ds ++ [d]) =
      readings a ds ++ ((carriedText a.hyKey d).map fun t => a.value.reads t).toList := by
  rw [readings, readings, filterMap_append, map_append]
  congr 1
  cases h : carriedText a.hyKey d <;> simp [h]

theorem Tracked.mirrored (h : Tracked charSigned id dev₀ ds s) :
    Mirrored charSigned id dev₀ ds s := by
  obtain ⟨dev, hdev, hlen, hattr⟩ := h
  refine ⟨dev, hdev, hlen, fun i a₀ a ha₀ ha => ⟨fun cloudKey => ?_, (hattr i a₀ a ha₀ ha).2⟩⟩
  rw [Cell.generateCloudJson_eq, (hattr i a₀ a ha₀ ha).1.shown]

theorem Follows.snoc {a₀ a' : HyLinkDevAttr} (h : Follows charSigned ds a₀ a)
    (hr : Received charSigned d a a' reported) :
    Follows charSigned (ds ++ [d]) a₀ a' where
  hyKey := hr.hyKey.trans h.hyKey
  repeated := hr.repeated.trans h.repeated
  alike := h.alike.trans hr.alike
  shown := by
    rw [readings_snoc, ← h.hyKey]
    cases ht : carriedText a.hyKey d with
    | none =>
      rw [(hr.kept ht).1, h.shown]
      simp
    | some t =>
      rw [(hr.taken t ht).1, h.alike.reads]
      exact (Ledger.current_snoc _ _ _).symm

theorem Follows.changes_snoc {a₀ a' : HyLinkDevAttr} [Decidable reported]
    (h : Follows charSigned ds a₀ a) (hr : Received charSigned d a a' reported) :
    (Ledger.changes (a₀.repeated = repeatReport) (a₀.value.shown charSigned)
        (readings a₀ (ds ++ [d]))).map some =
      (Ledger.changes (a₀.repeated = repeatReport) (a₀.value.shown charSigned)
        (readings a₀ ds)).map some ++ if reported then [a'.value.shown charSigned] else [] := by
  rw [readings_snoc, ← h.hyKey]
  cases ht : carriedText a.hyKey d with
  | none =>
    rw [if_neg (hr.kept ht).2]
    simp
  | some t =>
    obtain ⟨hshown, hrep⟩ := hr.taken t ht
    rw [h.alike.reads, h.shown, h.repeated] at hrep
    rw [h.alike.reads] at hshown
    rw [map_some, toList_some, Ledger.changes_snoc, map_append]
    congr 1
    simp only [decide_eq_true_eq, ← hrep, hshown]
    split <;> rfl

theorem Fits.of_follows (hlen : dev.attr.length = dev₀.attr.length)
    (hattr : ∀ (i : Nat) (a₀ a : HyLinkDevAttr), dev₀.attr[i]? = some a₀ →
      dev.attr[i]? = some a → Follows charSigned ds a₀ a) (h : Fits charSigned dev₀.attr d) :
    Fits charSigned dev.attr d := by
  have hback : ∀ (i : Nat) (a : HyLinkDevAttr), dev.attr[i]? = some a →
      ∃ a₀, dev₀.attr[i]? = some a₀ ∧ Follows charSigned ds a₀ a := by
    intro i a ha
    obtain ⟨hlt, -⟩ := List.getElem?_eq_some_iff.mp ha
    have ha₀ := getElem?_eq_getElem (hlen ▸ hlt)
    exact ⟨_, ha₀, hattr i _ a ha₀ ha⟩
  constructor
  · intro a ha t ht
    obtain ⟨i, hi⟩ := mem_iff_getElem?.mp ha
    obtain ⟨a₀, ha₀, hf⟩ := hback i a hi
    rw [hf.hyKey] at ht
    exact (hf.alike.holds charSigned t).mpr (h.holds a₀ (mem_of_getElem? ha₀) t ht)
  · intro i j a b ha hb hcarried hkey
    obtain ⟨a₀, ha₀, hfa⟩ := hback i a ha
    obtain ⟨b₀, hb₀, hfb⟩ := hback j b hb
    rw [hfa.hyKey, hfb.hyKey] at hkey
    exact h.only i j a₀ b₀ ha₀ hb₀ (hfa.hyKey ▸ hcarried) hkey

/-- The cases 3 to 5 of the `switch`, from the update on: the device is online by then. -/
theorem updateAttr_eq (hyprofile : CText → Option Json)
    (hdev : hylinkListGetById s.hyMap id = some dev) (d : Json) :
    ∃ (s₁ : HyState (List Report)) (dev₁ : HyLinkDev),
      hylinkListGetById s₁.hyMap id = some dev₁ ∧ dev₁.attr = dev.attr ∧ s₁.world = s.world ∧
      updateAttr (recording charSigned hyprofile) s d dev = do
        let (dev', type) ← hylinkSubDevAttrUpdate charSigned dev₁ d
        let s := { s₁ with hyMap := hylinkListAdd s₁.hyMap dev' }
        match type with
        | .success i =>
          runTransferCb (recording charSigned hyprofile) s (.cloudReport id (some i))
        | .repeated | .fail => return s := by
  obtain rfl := hylinkListGetById_devId hdev
  by_cases hoff : dev.online = subdevOffline
  · have hget : hylinkListGetById
        (hylinkListAdd s.hyMap { dev with online := subdevOnline }) dev.devId =
          some { dev with online := subdevOnline } := by
      rw [hylinkListGetById_add, if_pos rfl]
    refine ⟨⟨hylinkListAdd s.hyMap { dev with online := subdevOnline }, s.world⟩,
      { dev with online := subdevOnline }, hget, rfl, rfl, ?_⟩
    unfold updateAttr
    simp only [if_pos hoff, runTransferCb, recording, ok_bind, pure_bind, entry, hget]
      <;> rfl
  · refine ⟨s, dev, hdev, rfl, rfl, ?_⟩
    unfold updateAttr
    simp only [if_neg hoff, entry, hdev, ok_bind, recording] <;> rfl

theorem Tracked.updateAttr (hyprofile : CText → Option Json) (h : Tracked charSigned id dev₀ ds s)
    (hd : ForDevice id d) (hfits : Fits charSigned dev₀.attr d) :
    ∃ dev s', hylinkListGetById s.hyMap id = some dev ∧
      Libhylink.updateAttr (recording charSigned hyprofile) s d dev = .ok s' ∧
      Tracked charSigned id dev₀ (ds ++ [d]) s' := by
  obtain ⟨dev, hdev, hlen, hattr⟩ := h
  obtain ⟨s₁, dev₁, hget, hsame, hworld, heq⟩ := updateAttr_eq hyprofile hdev d
  have hfits₁ : Fits charSigned dev₁.attr d := by
    rw [hsame]
    exact hfits.of_follows hlen fun i a₀ a ha₀ ha => (hattr i a₀ a ha₀ ha).1
  obtain ⟨attrs, u, hupdate, hlen', hreceived⟩ := hylinkSubDevAttrUpdate_received hd hfits₁
  rw [hsame] at hlen' hreceived
  have hid := hylinkListGetById_devId hget
  have hnew : hylinkListGetById (hylinkListAdd s₁.hyMap { dev₁ with attr := attrs }) id =
      some { dev₁ with attr := attrs } := by
    rw [hylinkListGetById_add, if_pos hid]
  rw [hupdate] at heq
  simp only [ok_bind] at heq
  have hlog : ∃ log, Libhylink.updateAttr (recording charSigned hyprofile) s d dev =
        .ok ⟨hylinkListAdd s₁.hyMap { dev₁ with attr := attrs }, log⟩ ∧
      ∀ i a', attrs[i]? = some a' → reports id i log =
        reports id i s.world ++ if u = .success i then [a'.value.shown charSigned] else [] := by
    rw [heq]
    cases u with
    | success j =>
      refine ⟨_, rfl, fun i a' ha' => ?_⟩
      rw [hworld, hnew, reports, filter_append, map_append, ← reports]
      by_cases hij : j = i
      · subst hij
        simp [ha']
      · simp [hij]
    | repeated => exact ⟨s.world, by rw [← hworld]; rfl, fun i a' _ => by simp⟩
    | fail => exact ⟨s.world, by rw [← hworld]; rfl, fun i a' _ => by simp⟩
  obtain ⟨log, hok, hreports⟩ := hlog
  refine ⟨dev, _, hdev, hok, { dev₁ with attr := attrs }, hnew, hlen'.trans hlen, ?_⟩
  intro i a₀ a' ha₀ ha'
  obtain ⟨hlt, -⟩ := List.getElem?_eq_some_iff.mp ha'
  have ha := getElem?_eq_getElem (hlen' ▸ hlt)
  obtain ⟨hf, hrep⟩ := hattr i a₀ _ ha₀ ha
  have hr := hreceived i _ a' ha ha'
  refine ⟨hf.snoc hr, ?_⟩
  rw [hf.changes_snoc hr, ← hrep]
  exact hreports i a' ha'

theorem Tracked.recvStep (hyprofile : CText → Option Json) (h : Tracked charSigned id dev₀ ds s)
    (hid : id.length < devIdLen) (hd : ForDevice id d) (hfits : Fits charSigned dev₀.attr d)
    {type : ReportType} (htype : type = .attr ∨ type = .event ∨ type = .devAttri)
    (hyDevId : CText) :
    ∃ s', Libhylink.recvStep (recording charSigned hyprofile) type (s, hyDevId) d = .ok (s', id) ∧
      Tracked charSigned id dev₀ (ds ++ [d]) s' := by
  obtain ⟨dev, s', hdev, hok, ht⟩ := h.updateAttr hyprofile hd hfits
  refine ⟨s', ?_, ht⟩
  have hstr : getStrForJson d strDeviceId devIdLen hyDevId = some id := by
    simp [getStrForJson, hd.devId, hid]
  unfold Libhylink.recvStep
  simp only [hstr, Fault.ofOption, ok_bind]
  rcases htype with rfl | rfl | rfl <;>
    simp only [recvElement, hdev, hok, ok_bind] <;> rfl

/-- The elements of a message's `Data`. -/
def elementsOf (root : Json) : List Json := ((root.getObjectItem strData).map Json.children).getD []

/-- A report of type Attribute, Event or DevAttri about a device. -/
structure AttrMessage (id : CText) (root : Json) : Prop where
  command : root.getObjectItem strCommand = some (.string strReport)
  type : ∃ type : ReportType, (type = .attr ∨ type = .event ∨ type = .devAttri) ∧
    root.getObjectItem strType = some (.string type.text)
  data : ∃ Data, root.getObjectItem strData = some Data
  elements : ∀ d ∈ elementsOf root, ForDevice id d

/-- The messages one after another. -/
def recvAll {χ : Type} (p : Platform χ) (s : HyState χ) (msgs : List Json) :
    Except Fault (HyState χ) :=
  msgs.foldlM (fun s root => do return (← hylinkRecvAnaly p s root).1) s

theorem Tracked.recvSteps (hyprofile : CText → Option Json) {es : List Json}
    (h : Tracked charSigned id dev₀ ds s) (hid : id.length < devIdLen)
    (hd : ∀ d ∈ es, ForDevice id d) (hfits : ∀ d ∈ es, Fits charSigned dev₀.attr d)
    {type : ReportType} (htype : type = .attr ∨ type = .event ∨ type = .devAttri)
    (hyDevId : CText) :
    ∃ s' hyDevId', es.foldlM (Libhylink.recvStep (recording charSigned hyprofile) type)
        (s, hyDevId) = .ok (s', hyDevId') ∧
      Tracked charSigned id dev₀ (ds ++ es) s' := by
  induction es generalizing ds s hyDevId with
  | nil => exact ⟨s, hyDevId, rfl, by rwa [append_nil]⟩
  | cons e es ih =>
    obtain ⟨he, hes⟩ := forall_mem_cons.mp hd
    obtain ⟨hfe, hfes⟩ := forall_mem_cons.mp hfits
    obtain ⟨t, hok, ht⟩ := h.recvStep hyprofile hid he hfe htype hyDevId
    obtain ⟨s', hyDevId', hrest, ht'⟩ := ih ht hes hfes id
    refine ⟨s', hyDevId', ?_, ?_⟩
    · rw [foldlM_cons, hok]
      exact hrest
    · rwa [append_assoc] at ht'

theorem Tracked.hylinkRecvAnaly (hyprofile : CText → Option Json)
    (h : Tracked charSigned id dev₀ ds s) (hid : id.length < devIdLen) {root : Json}
    (hm : AttrMessage id root) (hfits : ∀ d ∈ elementsOf root, Fits charSigned dev₀.attr d) :
    ∃ s', Libhylink.hylinkRecvAnaly (recording charSigned hyprofile) s root = .ok (s', true) ∧
      Tracked charSigned id dev₀ (ds ++ elementsOf root) s' := by
  obtain ⟨type, htype, hroot⟩ := hm.type
  obtain ⟨Data, hData⟩ := hm.data
  have helements : elementsOf root = Data.children := by rw [elementsOf, hData]; rfl
  obtain ⟨s', hyDevId', hok, ht⟩ := h.recvSteps hyprofile hid hm.elements hfits htype []
  rw [helements] at hok
  refine ⟨s', ?_, ht⟩
  have hfind : findReportType type.text = some type := by
    rcases htype with rfl | rfl | rfl <;> decide
  unfold Libhylink.hylinkRecvAnaly
  simp only [hm.command, hroot, hData, valuestring, Json.valuestring?, Fault.ofOption,
    ok_bind, if_true, bind_some, hfind]
  rcases htype with rfl | rfl | rfl <;> simp only [hok, ok_bind] <;> rfl

theorem Tracked.recvAll (hyprofile : CText → Option Json) (h : Tracked charSigned id dev₀ ds s)
    (hid : id.length < devIdLen) {msgs : List Json} (hm : ∀ m ∈ msgs, AttrMessage id m)
    (hfits : ∀ m ∈ msgs, ∀ d ∈ elementsOf m, Fits charSigned dev₀.attr d) :
    ∃ s', Libhylink.recvAll (recording charSigned hyprofile) s msgs = .ok s' ∧
      Tracked charSigned id dev₀ (ds ++ msgs.flatMap elementsOf) s' := by
  induction msgs generalizing ds s with
  | nil => exact ⟨s, rfl, by rwa [flatMap_nil, append_nil]⟩
  | cons m msgs ih =>
    obtain ⟨hm, hms⟩ := forall_mem_cons.mp hm
    obtain ⟨hf, hfs⟩ := forall_mem_cons.mp hfits
    obtain ⟨t, hok, ht⟩ := h.hylinkRecvAnaly hyprofile hid hm hf
    obtain ⟨s', hrest, ht'⟩ := ih ht hms hfs
    refine ⟨s', ?_, ?_⟩
    · rw [Libhylink.recvAll, foldlM_cons, hok]
      exact hrest
    · rwa [append_assoc, ← flatMap_cons] at ht'

/-- In a sequence of messages about a device, each of whose texts goes to one attribute that can
hold it, no call is undefined, and afterwards the device shows of every attribute the last
reading and was reported whenever a reading changed it or it is marked. -/
theorem recvAll_mirrored (hyprofile : CText → Option Json) {hyMap : List HyLinkDev}
    (hdev : hylinkListGetById hyMap id = some dev) (hid : id.length < devIdLen)
    {msgs : List Json} (hm : ∀ m ∈ msgs, AttrMessage id m)
    (hfits : ∀ m ∈ msgs, ∀ d ∈ elementsOf m, Fits charSigned dev.attr d) :
    ∃ s, recvAll (recording charSigned hyprofile) ⟨hyMap, []⟩ msgs = .ok s ∧
      Mirrored charSigned id dev (msgs.flatMap elementsOf) s := by
  have hstart : Tracked charSigned id dev [] ⟨hyMap, []⟩ := by
    refine ⟨dev, hdev, rfl, fun i a₀ a ha₀ ha => ?_⟩
    obtain rfl : a₀ = a := some.inj (ha₀.symm.trans ha)
    exact ⟨⟨rfl, rfl, .refl _, rfl⟩, rfl⟩
  obtain ⟨s, hok, ht⟩ := hstart.recvAll hyprofile hid hm hfits
  exact ⟨s, hok, ht.mirrored⟩

/-! ### A device with one attribute -/

namespace Sample

def profile (valueType : Int) : Json :=
  .object [("modelId".toList, .string ['m']), ("attr".toList, .array [.object
    [("hyKey".toList, .string ['k']), ("valueType".toList, .number [] valueType),
      ("repeat".toList, .number [] 0)]])]

def device (value : Cell) : HyLinkDev := ⟨['d'], ['m'], subdevOnline, [⟨['k'], value, 0⟩]⟩

example : hyLinkParseJson ['d'] (profile 0) = .ok (some (device (.enum 0))) := rfl

def element (value : CText) : Json :=
  .object [(strDeviceId, .string ['d']), (strKey, .string ['k']), (strValue, .string value)]

def message (value : CText) : Json :=
  .object [(strCommand, .string strReport), (strType, .string ReportType.attr.text),
    (strData, .array [element value])]

theorem forDevice_element (value : CText) : ForDevice ['d'] (element value) where
  devId := rfl
  key _ hv := ⟨['k'], (some.inj hv).symm⟩
  value _ hv := ⟨value, (some.inj hv).symm⟩

theorem attrMessage (value : CText) : AttrMessage ['d'] (message value) where
  command := rfl
  type := ⟨.attr, .inl rfl, rfl⟩
  data := ⟨_, rfl⟩
  elements d hd := by
    obtain rfl : d = element value := mem_singleton.mp hd
    exact forDevice_element value

theorem fits_element {value : CText} (h : c.Holds true value) :
    Fits true (device c).attr (element value) where
  holds a ha t ht := by
    obtain rfl : a = ⟨['k'], c, 0⟩ := by simpa [device] using ha
    obtain rfl : value = t := Json.string.inj (some.inj (carriedText_eq_some.mp ht).2)
    exact h
  only i j a b ha hb _ _ := by
    have hi : i < 1 := (List.getElem?_eq_some_iff.mp ha).1
    have hj : j < 1 := (List.getElem?_eq_some_iff.mp hb).1
    omega

end Sample

theorem recvAll_mirrored_sample :
    ∃ s, recvAll (recording true fun _ => none) ⟨[Sample.device (.enum 0)], []⟩
        [Sample.message ['7']] = .ok s ∧
      Mirrored true ['d'] (Sample.device (.enum 0)) ([Sample.message ['7']].flatMap elementsOf) s :=
  recvAll_mirrored (fun _ => none) rfl (by decide)
    (forall_mem_singleton.mpr (Sample.attrMessage ['7']))
    (forall_mem_singleton.mpr (forall_mem_singleton.mpr
      (Sample.fits_element ⟨by decide, by decide⟩)))

/-- A number that does not fit the byte of its attribute is told as another, and a text of
eighteen characters is written behind its array. -/
theorem cells_not_mirrored :
    (∀ value, AttrMessage ['d'] (Sample.message value)) ∧
    (¬ ∃ s, recvAll (recording true fun _ => none) ⟨[Sample.device (.enum 0)], []⟩
        [Sample.message ['3', '0', '0']] = .ok s ∧
      Mirrored true ['d'] (Sample.device (.enum 0))
        ([Sample.message ['3', '0', '0']].flatMap elementsOf) s) ∧
    recvAll (recording true fun _ => none) ⟨[Sample.device (.string [])], []⟩
      [Sample.message "123456789012345678".toList] = .error .memory := by
  refine ⟨Sample.attrMessage, ?_, rfl⟩
  rintro ⟨s, hs, dev, hdev, -, hattr⟩
  have hrun : recvAll (recording true fun _ => none) ⟨[Sample.device (.enum 0)], []⟩
      [Sample.message ['3', '0', '0']] =
      .ok ⟨[Sample.device (.enum 44)], [⟨['d'], 0, some (.number 44)⟩]⟩ := by rfl
  obtain rfl := Except.ok.inj (hrun.symm.trans hs)
  obtain rfl : Sample.device (.enum 44) = dev := some.inj hdev
  have hjson : some (Json.object [([], .number (CText.ofInt 44) 44)]) =
      some (Reported.json [] (.number 300)) := (hattr 0 _ _ rfl rfl).1 []
  have hnumber : (44 : Int) = 300 := by
    simp only [Reported.json, some.injEq, Json.object.injEq, List.cons.injEq, Prod.mk.injEq,
      Json.number.injEq] at hjson
    exact hjson.1.2.2
  exact absurd hnumber (by decide)

end Honyar.Libhylink
