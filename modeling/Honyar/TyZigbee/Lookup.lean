import Honyar.TyZigbee.Control

/-!
# Which attribute a key reaches

`zigbeeDevZclDispatch` compares a key with the key of an attribute over the length of the latter, so
that a key with a number finds the attribute without it; and it takes the first attribute that
agrees.  A key may so be answered by an attribute in front of its own, and a key that no attribute
has by one that it only starts with, in which case the scenes of the profile are not looked at.
-/

namespace Honyar.TyZigbee

open List

section

variable {attrs before after : List ZigbeeAttr} {attr : ZigbeeAttr} {key : CText}

theorem strncmpEq_hyKey : CText.strncmpEq attr.hyKey.length key attr.hyKey = true ↔
    attr.hyKey <+: key := by
  rw [CText.strncmpEq_iff, take_length, prefix_iff_eq_take]
  exact eq_comm

theorem attrOf_eq_none : attrOf attrs key = none ↔ ∀ b ∈ attrs, ¬ b.hyKey <+: key := by
  simp only [attrOf, find?_eq_none, strncmpEq_hyKey]

theorem attrOf_eq_some : attrOf attrs key = some attr ↔ attr.hyKey <+: key ∧
    ∃ before after, attrs = before ++ attr :: after ∧ ∀ b ∈ before, ¬ b.hyKey <+: key := by
  simp only [attrOf, find?_eq_some_iff_append, strncmpEq_hyKey, Bool.not_eq_true',
    ← Bool.not_eq_true]

theorem attrOf_hyKey_iff (hnodup : ((before ++ attr :: after).map (·.hyKey)).Nodup) :
    attrOf (before ++ attr :: after) attr.hyKey = some attr ↔
      ∀ b ∈ before, ¬ b.hyKey <+: attr.hyKey := by
  constructor
  · intro h b hb hpre
    obtain ⟨c, hc⟩ := Option.ne_none_iff_exists'.mp
      fun hnone => attrOf_eq_none.mp hnone b hb hpre
    rw [attrOf] at hc h
    rw [find?_append, hc] at h
    obtain rfl : c = attr := Option.some.inj h
    -- the attribute would stand in front of itself
    rw [map_append, map_cons] at hnodup
    have hdisjoint := (nodup_append.mp hnodup).2.2
    exact hdisjoint _ (mem_map_of_mem (mem_of_find?_eq_some hc)) _
      mem_cons_self rfl
  · intro h
    exact attrOf_eq_some.mpr ⟨prefix_rfl, before, after, rfl, h⟩

end

section

variable (charSigned : Bool) (python : Python) (unset : Unset) (send : ApsFrame → Int)

/-- What `zigbeeDevZclDispatch` sends of the attribute it has found. -/
def dispatchAttr (zDev : ZigbeeProfile) (attr : ZigbeeAttr) (key : CText) (value : Option CText)
    (o : Outgoing) : Except Fault (Outgoing × Int) :=
  match value with
  | none => do return o.tuyaZclSend send (← zigbeeZclQuery charSigned attr o.msg)
  | some value => do
    match ← zigbeeZclCtrl python unset attr zDev.manuName key value o.msg with
    | none => return (o, -1)
    | some frame => return o.tuyaZclSend send frame

theorem zigbeeDevZclDispatch_found {zDev : ZigbeeProfile} {attr : ZigbeeAttr} {key : CText}
    (h : attrOf zDev.attr key = some attr) (value : Option CText) (o : Outgoing) :
    zigbeeDevZclDispatch charSigned python unset send zDev (some key) value o =
      dispatchAttr charSigned python unset send zDev attr key value o := by
  simp only [zigbeeDevZclDispatch, h]
  cases value <;> rfl

theorem zigbeeDevZclDispatch_missing {zDev : ZigbeeProfile} {key : CText}
    (h : attrOf zDev.attr key = none) (value : Option CText) (o : Outgoing) :
    zigbeeDevZclDispatch charSigned python unset send zDev (some key) value o = .ok (o, -1) := by
  simp only [zigbeeDevZclDispatch, h]
  rfl

/-- What `zigbeeZclDispatch` does with a scene: the attributes of its values, and nothing else. -/
def expand (zDev : ZigbeeProfile) (scene : SceneAttr) (value : Option CText) :
    Except Fault (List ApsFrame × Int) := do
  let (o, res) ← dispatchAll charSigned python unset send zDev value scene.value
    ⟨List.replicate 33 0, []⟩ (-1)
  return (o.frames, res)

theorem zigbeeZclDispatch_scene {zDev : ZigbeeProfile} {key : CText} {scene : SceneAttr}
    (h : attrOf zDev.attr key = none) (hscene : zDev.sceneAttr.find? (·.key = key) = some scene)
    (value : Option CText) :
    zigbeeZclDispatch charSigned python unset send zDev (some key) value =
      expand charSigned python unset send zDev scene value := by
  rw [zigbeeZclDispatch, zigbeeDevZclDispatch_missing charSigned python unset send h]
  simp only [Faults.ok_bind, if_pos (show (-1 : Int) < 0 by decide), hscene]
  rfl

end

/-- The frame is built from this attribute, whatever is sent. -/
def BuiltFrom (zDev : ZigbeeProfile) (key : CText) (attr : ZigbeeAttr) : Prop :=
  attrOf zDev.attr key = some attr ∧ ∀ charSigned python unset send value o,
    zigbeeDevZclDispatch charSigned python unset send zDev (some key) value o =
      dispatchAttr charSigned python unset send zDev attr key value o

/-- The key is not sent as an attribute, and a scene of this key is expanded. -/
def NotAttribute (zDev : ZigbeeProfile) (key : CText) : Prop :=
  attrOf zDev.attr key = none ∧ ∀ charSigned python unset send value,
    (∀ o, zigbeeDevZclDispatch charSigned python unset send zDev (some key) value o =
      .ok (o, -1)) ∧
    ∀ scene, zDev.sceneAttr.find? (·.key = key) = some scene →
      zigbeeZclDispatch charSigned python unset send zDev (some key) value =
        expand charSigned python unset send zDev scene value

/-- A key that an attribute has reaches this attribute; and a key that none has, and that is no key
with a number, reaches none. -/
def Routed (zDev : ZigbeeProfile) (key : CText) : Prop :=
  (∀ attr ∈ zDev.attr, attr.hyKey = key → BuiltFrom zDev key attr) ∧
    (key ∉ zDev.attr.map (·.hyKey) → isScene key = false → NotAttribute zDev key)

/-- No attribute in front of the one with the key has a key that this key starts with; and a key
that none has, and that is no key with a number, starts with the key of no attribute. -/
def Apart (zDev : ZigbeeProfile) (key : CText) : Prop :=
  (∀ before attr after, zDev.attr = before ++ attr :: after → attr.hyKey = key →
    ∀ b ∈ before, ¬ b.hyKey <+: key) ∧
    (key ∉ zDev.attr.map (·.hyKey) → isScene key = false → ∀ b ∈ zDev.attr, ¬ b.hyKey <+: key)

theorem builtFrom_iff {zDev : ZigbeeProfile} {key : CText} {attr : ZigbeeAttr} :
    BuiltFrom zDev key attr ↔ attrOf zDev.attr key = some attr :=
  ⟨And.left, fun h => ⟨h, fun _ _ _ _ _ _ => zigbeeDevZclDispatch_found _ _ _ _ h _ _⟩⟩

theorem notAttribute_iff {zDev : ZigbeeProfile} {key : CText} :
    NotAttribute zDev key ↔ attrOf zDev.attr key = none :=
  ⟨And.left, fun h => ⟨h, fun _ _ _ _ _ =>
    ⟨fun _ => zigbeeDevZclDispatch_missing _ _ _ _ h _ _,
      fun _ hscene => zigbeeZclDispatch_scene _ _ _ _ h hscene _⟩⟩⟩

theorem routed_iff_apart (zDev : ZigbeeProfile) (key : CText)
    (hnodup : (zDev.attr.map (·.hyKey)).Nodup) : Routed zDev key ↔ Apart zDev key := by
  simp only [Routed, Apart, builtFrom_iff, notAttribute_iff, attrOf_eq_none]
  refine and_congr_left fun _ =>
    ⟨fun h before attr after hattrs hkey => ?_, fun h attr hmem hkey => ?_⟩
  · subst hkey
    have hfound := h attr (hattrs ▸ mem_append_right _ mem_cons_self) rfl
    rw [hattrs] at hfound hnodup
    exact (attrOf_hyKey_iff hnodup).mp hfound
  · subst hkey
    obtain ⟨before, after, hattrs⟩ := append_of_mem hmem
    have hbefore := h before attr after hattrs rfl
    rw [hattrs] at hnodup ⊢
    exact (attrOf_hyKey_iff hnodup).mpr hbefore

namespace Sample

/-- Two outlets of a strip with more than nine. -/
def first : ZigbeeAttr := ⟨"Switch_1".toList, 0, 1, 1, 0, 6, 2, 0, 0x10⟩
def tenth : ZigbeeAttr := ⟨"Switch_10".toList, 0, 1, 10, 0, 6, 2, 0, 0x10⟩

def strip (attrs : List ZigbeeAttr) : ZigbeeProfile where
  manuName := "_TZ3000_strip".toList
  report_modelId := "outlets".toList
  heart_type := 0
  heartbeatTime := 960
  attr := attrs
  sceneAttr := [⟨"Switch_All".toList, ["Switch_1".toList, "Switch_10".toList]⟩]

end Sample

open Sample in
theorem routed_strip : Routed (strip [first, tenth]) "Switch_All".toList := by
  refine (routed_iff_apart (strip [first, tenth]) _ (by decide)).mpr
    ⟨fun before attr after hattrs hkey => ?_, fun _ _ => by decide⟩
  have hmem : attr ∈ (strip [first, tenth]).attr :=
    hattrs ▸ mem_append_right _ mem_cons_self
  have hother : ∀ a ∈ (strip [first, tenth]).attr, a.hyKey ≠ "Switch_All".toList := by decide
  exact absurd hkey (hother attr hmem)

open Sample in
/-- The tenth outlet is behind the first; and a key that no attribute has turns the first one. -/
theorem not_routed : ¬ Routed (strip [first, tenth]) "Switch_10".toList ∧
    ¬ Routed (strip [first]) "Switch_12".toList := by
  constructor
  · intro h
    have hfound := (h.1 tenth (by decide) rfl).1
    revert hfound
    decide
  · intro h
    have hnone := (h.2 (by decide) (by decide)).1
    revert hnone
    decide

end Honyar.TyZigbee
