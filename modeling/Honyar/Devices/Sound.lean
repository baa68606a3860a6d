import Honyar.Devices.Types

/-!
# The hash map and the lists agree

The hash map holds one entry for each device and one for each attribute in the lists, under
distinct keys, and nothing else.  Keys are distinct as texts, and a device's key is a text an
attribute's key may be too: what is found for an id or for an attribute that no list has is
nothing only when no other device or attribute has a key with the same text.
-/

namespace Honyar.Devices

open Honyar.Base (HashMap HashKey hashKey)
open Option List

/-! ## Keys -/

namespace DevList

theorem devKey_val (d : DevId) : (devKey d).1 = d.1 := by
  have hlen : [d.1].flatten.length < Base.hashKeyMaxLen := by
    have := d.2
    simp only [devIdMaxLen] at this
    simp [Base.hashKeyMaxLen]
    omega
  rw [devKey, Base.hashKey_val hlen]
  simp

theorem attrKey_val (d : DevId) (k : AttrKey) : (attrKey d k).1 = d.1 ++ k.1 := by
  have hlen : [d.1, k.1].flatten.length < Base.hashKeyMaxLen := by
    have hd := d.2
    have hk := k.2
    simp only [devIdMaxLen, attrKeyMaxLen] at hd hk
    simp [Base.hashKeyMaxLen]
    omega
  rw [attrKey, Base.hashKey_val hlen]
  simp

@[simp] theorem devKey_inj {d d' : DevId} : devKey d = devKey d' ↔ d = d' := by
  rw [Subtype.ext_iff, devKey_val, devKey_val, ← Subtype.ext_iff]

@[simp] theorem attrKey_eq_devKey {d d' : DevId} {k : AttrKey} :
    attrKey d k = devKey d' ↔ d.1 ++ k.1 = d'.1 := by
  rw [Subtype.ext_iff, devKey_val, attrKey_val]

@[simp] theorem attrKey_eq_attrKey {d d' : DevId} {k k' : AttrKey} :
    attrKey d k = attrKey d' k' ↔ d.1 ++ k.1 = d'.1 ++ k'.1 := by
  rw [Subtype.ext_iff, attrKey_val, attrKey_val]

theorem attrKey_inj {d : DevId} {k k' : AttrKey} : attrKey d k = attrKey d k' ↔ k = k' := by
  rw [attrKey_eq_attrKey, append_cancel_left_eq, ← Subtype.ext_iff]

end DevList

theorem Field.strncmpEq_iff {n : Nat} {a b : Field n} :
    CText.strncmpEq n a.1 b.1 = true ↔ a = b := by
  rw [CText.strncmpEq_iff, take_of_length_le a.2.le, take_of_length_le b.2.le,
    Subtype.ext_iff]

open DevList (devKey attrKey attrKey_inj devKey_inj)

/-! ## What the lists hold -/

/-- The attributes in the list of a device. -/
def Device.attrs (d : Device) : List (Nat × DevAttrInfo) :=
  match d.pstDevAttrList with
  | none => []
  | some l => l.nodes

theorem Device.attrs_of_list {d : Device} {l : Listing DevAttrInfo}
    (h : d.pstDevAttrList = some l) : d.attrs = l.nodes := by
  rw [Device.attrs, h]

/-- The hash entry of an attribute of a device. -/
def attrEntry (p : Nat) (d : DevId) (x : Nat × DevAttrInfo) : HashKey × DevAttrPtr :=
  (attrKey d x.2.acKey, ⟨p, some x.1⟩)

/-- The hash entries of a device and its attributes. -/
def entriesOf (n : Nat × Device) : List (HashKey × DevAttrPtr) :=
  (devKey n.2.acDevId, ⟨n.1, none⟩) :: n.2.attrs.map (attrEntry n.1 n.2.acDevId)

/-- The hash map holds what the lists hold, and every device has its list. -/
structure Sound (s : DevList) : Prop where
  listed : ∀ n ∈ s.devs.nodes, n.2.pstDevAttrList ≠ none
  mirror : HashMap.Mirror s.hash (s.devs.nodes.flatMap entriesOf)

theorem sound_newDevList (b : Bool) : Sound (newDevList b) where
  listed := by simp [newDevList, Listing.empty]
  mirror := HashMap.Mirror.empty 0 true

/-- No attribute has the text of the id for its key. -/
def DevApart (s : DevList) (d : DevId) : Prop :=
  ∀ n ∈ s.devs.nodes, ∀ x ∈ n.2.attrs, n.2.acDevId.1 ++ x.2.acKey.1 ≠ d.1

/-- No device, and no attribute of another device, has the text of the attribute's key. -/
def AttrApart (s : DevList) (d : DevId) (k : AttrKey) : Prop :=
  ∀ n ∈ s.devs.nodes, n.2.acDevId.1 ≠ d.1 ++ k.1 ∧
    ∀ x ∈ n.2.attrs, n.2.acDevId.1 ++ x.2.acKey.1 = d.1 ++ k.1 → n.2.acDevId = d

instance (s : DevList) (d : DevId) : Decidable (DevApart s d) :=
  inferInstanceAs (Decidable (∀ n ∈ s.devs.nodes, ∀ x ∈ n.2.attrs, _ ≠ _))

instance (s : DevList) (d : DevId) (k : AttrKey) : Decidable (AttrApart s d k) :=
  inferInstanceAs (Decidable (∀ n ∈ s.devs.nodes, _ ∧ ∀ x ∈ n.2.attrs, _ → _))

theorem mem_keys_entries {ns : List (Nat × Device)} {k : HashKey} :
    k ∈ (ns.flatMap entriesOf).map Prod.fst ↔
      ∃ n ∈ ns, k = devKey n.2.acDevId ∨ ∃ x ∈ n.2.attrs, k = attrKey n.2.acDevId x.2.acKey := by
  simp only [List.mem_map, mem_flatMap, entriesOf, mem_cons, attrEntry]
  constructor
  · rintro ⟨e, ⟨n, hn, rfl | ⟨x, hx, rfl⟩⟩, rfl⟩
    · exact ⟨n, hn, .inl rfl⟩
    · exact ⟨n, hn, .inr ⟨x, hx, rfl⟩⟩
  · rintro ⟨n, hn, rfl | ⟨x, hx, rfl⟩⟩
    · exact ⟨_, ⟨n, hn, .inl rfl⟩, rfl⟩
    · exact ⟨_, ⟨n, hn, .inr ⟨x, hx, rfl⟩⟩, rfl⟩

theorem mem_entries_dev {ns : List (Nat × Device)} {n : Nat × Device} (hn : n ∈ ns) :
    (devKey n.2.acDevId, (⟨n.1, none⟩ : DevAttrPtr)) ∈ ns.flatMap entriesOf :=
  mem_flatMap.mpr ⟨n, hn, mem_cons_self⟩

theorem mem_entries_attr {ns : List (Nat × Device)} {n : Nat × Device} {x : Nat × DevAttrInfo}
    (hn : n ∈ ns) (hx : x ∈ n.2.attrs) : attrEntry n.1 n.2.acDevId x ∈ ns.flatMap entriesOf :=
  mem_flatMap.mpr ⟨n, hn, mem_cons_of_mem _ (List.mem_map_of_mem hx)⟩

namespace Sound

variable {s : DevList} {n n' : Nat × Device} {x x' : Nat × DevAttrInfo} {d : DevId} {k : AttrKey}

theorem device_eq (hn : n ∈ s.devs.nodes) : s.device n.1 = some n.2 :=
  Listing.data_eq_some hn

theorem dev_inj (hs : Sound s) (hn : n ∈ s.devs.nodes) (hn' : n' ∈ s.devs.nodes)
    (h : n.2.acDevId = n'.2.acDevId) : n = n' := by
  have heq := hs.mirror.ext (mem_entries_dev hn) (mem_entries_dev hn') (by rw [h])
  have hfst : n.1 = n'.1 := congrArg (fun e => e.2.pstDev) heq
  have hdata := device_eq hn
  rw [hfst, device_eq hn'] at hdata
  exact Prod.ext hfst (some.inj hdata).symm

theorem attr_inj (hs : Sound s) (hn : n ∈ s.devs.nodes) (hn' : n' ∈ s.devs.nodes)
    (hx : x ∈ n.2.attrs) (hx' : x' ∈ n'.2.attrs)
    (h : n.2.acDevId.1 ++ x.2.acKey.1 = n'.2.acDevId.1 ++ x'.2.acKey.1) :
    n = n' ∧ x.1 = x'.1 := by
  have heq := hs.mirror.ext (mem_entries_attr hn hx) (mem_entries_attr hn' hx')
    (DevList.attrKey_eq_attrKey.mpr h)
  have hfst : n.1 = n'.1 := congrArg (fun e => e.2.pstDev) heq
  have hattr : some x.1 = some x'.1 := congrArg (fun e => e.2.pstDevAttr) heq
  have hdata := device_eq hn
  rw [hfst, device_eq hn'] at hdata
  exact ⟨Prod.ext hfst (some.inj hdata).symm, some.inj hattr⟩

theorem attr_ne_dev (hs : Sound s) (hn : n ∈ s.devs.nodes) (hx : x ∈ n.2.attrs)
    (hn' : n' ∈ s.devs.nodes) : n.2.acDevId.1 ++ x.2.acKey.1 ≠ n'.2.acDevId.1 := by
  intro h
  have heq := hs.mirror.ext (mem_entries_attr hn hx) (mem_entries_dev hn')
    (DevList.attrKey_eq_devKey.mpr h)
  have hattr : some x.1 = none := congrArg (fun e => e.2.pstDevAttr) heq
  cases hattr

theorem attrApart_of_mem (hs : Sound s) (hn : n ∈ s.devs.nodes) (hx : x ∈ n.2.attrs) :
    AttrApart s n.2.acDevId x.2.acKey := by
  refine fun n' hn' => ⟨fun h => hs.attr_ne_dev hn hx hn' h.symm, fun x' hx' h => ?_⟩
  rw [(hs.attr_inj hn' hn hx' hx h).1]

/-! ## Looking up -/

theorem find_of_mem (hs : Sound s) (hn : n ∈ s.devs.nodes) : s.find n.2.acDevId = some n.1 := by
  rw [DevList.find, hs.mirror.find_eq (mem_entries_dev hn)]
  rfl

theorem find_of_not_mem (hs : Sound s) (hd : DevApart s d)
    (hno : ∀ n ∈ s.devs.nodes, n.2.acDevId ≠ d) : s.find d = none := by
  rw [DevList.find, hs.mirror.find_eq_none, map_none]
  intro hk
  obtain ⟨n, hn, heq | ⟨x, hx, heq⟩⟩ := mem_keys_entries.mp hk
  · exact hno n hn (devKey_inj.mp heq).symm
  · exact hd n hn x hx (DevList.attrKey_eq_devKey.mp heq.symm)

theorem attrFind_of_mem (hs : Sound s) (hn : n ∈ s.devs.nodes) (hx : x ∈ n.2.attrs) :
    s.attrFind n.2.acDevId x.2.acKey = some ⟨n.1, some x.1⟩ :=
  hs.mirror.find_eq (mem_entries_attr hn hx)

theorem attrFind_of_not_mem (hs : Sound s) (hk : AttrApart s d k)
    (hno : ∀ n ∈ s.devs.nodes, n.2.acDevId = d → ∀ x ∈ n.2.attrs, x.2.acKey ≠ k) :
    s.attrFind d k = none := by
  refine hs.mirror.find_eq_none fun hkey => ?_
  obtain ⟨n, hn, heq | ⟨x, hx, heq⟩⟩ := mem_keys_entries.mp hkey
  · exact (hk n hn).1 (DevList.attrKey_eq_devKey.mp heq).symm
  · have hid := (hk n hn).2 x hx (DevList.attrKey_eq_attrKey.mp heq).symm
    subst hid
    exact hno n hn rfl x hx (attrKey_inj.mp heq).symm

end Sound

end Honyar.Devices
