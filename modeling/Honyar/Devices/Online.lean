import Honyar.Devices.AttrSync

/-!
# Devices going online and offline

Both ways of adding put a device online, and a pass of `dev_list_exec` compares the time stamp of
each battery or mains powered device with the clock.  A callback is told of what changes.

Adding a device takes the flag over from the caller before it looks at it, and tells the callback
of the caller's device, whose flag is still zero.  A pass tells of every device whose time is out,
also of those that are offline already.  And the time stamp is renewed only where something was
found: a new device keeps the caller's, a new attribute leaves that of its device.
-/

namespace Honyar.Devices

open Option List DevList

/-- The list with the seconds of `stTimestamp` of each block.  A callback is registered. -/
structure Watched where
  list : DevList
  uiSec : Nat → UInt32

/-- A call of `pDevOnlineCb`: the device it is about, and `ucOnline` of what it is given. -/
structure Announced where
  pstDev : Nat
  ucOnline : Nat
deriving DecidableEq

/-- `DEV_POWER_TYPR_KINETIC`. -/
def devPowerTyprKinetic : CText := "kinetic".toList

/-- `DEV_POWER_TYPR_BATTERY`. -/
def devPowerTyprBattery : CText := "battery".toList

/-- `DEV_POWER_TYPR_OFTEN`. -/
def devPowerTyprOften : CText := "often".toList

/-- `DEV_HEART_BEAT_TIMEOUT_TIME`. -/
def devHeartBeatTimeoutTime : Nat := 3

/-- `DEV_BATTERY_HEART_BEAT_CYCLE`. -/
def devBatteryHeartBeatCycle : Nat := 30 * 60

/-- `DEV_OFTEN_HEART_BEAT_CYCLE`. -/
def devOftenHeartBeatCycle : Nat := 5 * 60

/-- After how many seconds a device of a power type is offline. -/
def heartBeatTimeout (acPowerType : CText) : Option Nat :=
  if acPowerType = devPowerTyprKinetic then none
  else if acPowerType = devPowerTyprBattery then
    some (devBatteryHeartBeatCycle * devHeartBeatTimeoutTime)
  else if acPowerType = devPowerTyprOften then
    some (devOftenHeartBeatCycle * devHeartBeatTimeoutTime)
  else none

/-- A device is put online by being added, and is not yet. -/
def DevList.goesOnline (s : DevList) (p : Nat) : Bool :=
  !s.ucInitFlag && (s.device p).any fun d => d.stDevInfo.ucOnline = 0

/-- The device that `dev_list_attr_add` is about. -/
def DevList.attrDevice (s : DevList) (pcDevId : DevId) (acKey : AttrKey) : Option Nat :=
  match s.attrFind pcDevId acKey with
  | some e => some e.pstDev
  | none => s.find pcDevId

/-- `ucOnline` of a block; where there is none, nothing is online. -/
def DevList.ucOnline (s : DevList) (p : Nat) : Nat :=
  match s.device p with
  | some d => d.stDevInfo.ucOnline
  | none => 0

/-- The flag of a device with the rest of it. -/
def Device.setOnline (ucOnline : Nat) (d : Device) : Device :=
  { d with stDevInfo := { d.stDevInfo with ucOnline := ucOnline } }

namespace Watched

/-- The time stamp that is written to when something was found. -/
def renew (w : Watched) (p : Nat) (now : UInt32) : Nat → UInt32 :=
  if w.list.ucInitFlag then w.uiSec else Function.update w.uiSec p now

/-- `dev_list_add` with its time stamp and callback; `uiSec` is that of the caller's device. -/
def add (pcDevId : DevId) (i : DevInfo) (uiSec now : UInt32) (w : Watched) :
    Option (Watched × List Announced) := do
  let (s, p) ← w.list.addDevice pcDevId i
  let stamps :=
    match w.list.find pcDevId with
    | none => Function.update w.uiSec w.list.devs.fresh uiSec
    | some q => w.renew q now
  -- the callback is given the device of the caller
  let os := if s.goesOnline p then [⟨p, i.ucOnline⟩] else []
  let s ← s.goOnline p
  return (⟨s.push [.devAdd p], stamps⟩, os)

/-- `dev_list_attr_add` with its time stamp and callback. -/
def attrAdd (pcDevId : DevId) (x : DevAttrInfo) (now : UInt32) (w : Watched) :
    Option (Watched × List Announced) := do
  let (s, _) ← w.list.attrAdd pcDevId x
  let stamps :=
    match w.list.attrFind pcDevId x.acKey with
    | none => w.uiSec
    | some e => w.renew e.pstDev now
  let os :=
    match w.list.attrDevice pcDevId x.acKey with
    | none => []
    | some p => if w.list.goesOnline p then [⟨p, s.ucOnline p⟩] else []
  return (⟨s, stamps⟩, os)

/-- The flag of a device is written, the device saved at once, and the callback called. -/
def report (p ucOnline : Nat) (w : Watched) : Option (Watched × List Announced) := do
  let s ← w.list.setDevice p (Device.setOnline ucOnline)
  let d ← s.device p
  return (⟨{ s with db := s.db.devAdd d }, w.uiSec⟩, [⟨p, d.stDevInfo.ucOnline⟩])

/-- The time of a block is out. -/
def overdue (w : Watched) (stNew : UInt32) (p t : Nat) : Bool :=
  decide (t < (stNew - w.uiSec p).toNat)

/-- What `dev_list_exec` does with a device. -/
def watch (stNew : UInt32) (w : Watched) (p : Nat) : Option (Watched × List Announced) := do
  let d ← w.list.device p
  match heartBeatTimeout d.stDevInfo.acPowerType with
  | none => return (w, [])
  | some t =>
    if w.overdue stNew p t then w.report p 0
    else if d.stDevInfo.ucOnline = 0 then w.report p 1
    else return (w, [])

/-- A pass of `dev_list_exec`. -/
def exec (stNew : UInt32) (w : Watched) : Option (Watched × List Announced) :=
  Run.run (watch stNew) w (w.list.devs.nodes.map Prod.fst)

end Watched

/-- What happens to the list. -/
inductive OnlineAct where
  | add (pcDevId : DevId) (i : DevInfo) (uiSec now : UInt32)
  | attrAdd (pcDevId : DevId) (x : DevAttrInfo) (now : UInt32)
  | exec (stNew : UInt32)

/-- The list, and when each of its devices, or an attribute of it, was added last. -/
structure Monitored where
  watched : Watched
  last : Nat → UInt32

namespace Monitored

def step (m : Monitored) : OnlineAct → Option (Monitored × List Announced)
  | .add pcDevId i uiSec now =>
    (m.watched.add pcDevId i uiSec now).map fun r =>
      (⟨r.1, Function.update m.last
        ((m.watched.list.find pcDevId).getD m.watched.list.devs.fresh) now⟩, r.2)
  | .attrAdd pcDevId x now =>
    (m.watched.attrAdd pcDevId x now).map fun r =>
      (⟨r.1, match m.watched.list.attrDevice pcDevId x.acKey with
        | none => m.last
        | some p => Function.update m.last p now⟩, r.2)
  | .exec stNew => (m.watched.exec stNew).map fun r => (⟨r.1, m.last⟩, r.2)

end Monitored

/-- What the callback is told of a device. -/
def told (p : Nat) (os : List Announced) : List Nat :=
  (os.filter fun o => o.pstDev == p).map Announced.ucOnline

/-- The callback is told of each battery or mains powered device whose flag changes, and of no
other, with the new flag. -/
def Announces (s s' : DevList) (os : List Announced) : Prop :=
  ∀ p d, s'.device p = some d → (heartBeatTimeout d.stDevInfo.acPowerType).isSome = true →
    told p os = if s.ucOnline p = s'.ucOnline p then [] else [s'.ucOnline p]

/-- A battery or mains powered device is online exactly if it was added last in time. -/
def InTime (stNew : UInt32) (last : Nat → UInt32) (s : DevList) : Prop :=
  ∀ p d t, s.device p = some d → heartBeatTimeout d.stDevInfo.acPowerType = some t →
    (d.stDevInfo.ucOnline = 1 ↔ stNew.toNat ≤ (last p).toNat + t)

/-- What a step is to do. -/
def Follows (m : Monitored) (a : OnlineAct) : Prop :=
  ∀ m' os, m.step a = some (m', os) → Announces m.watched.list m'.watched.list os ∧
    ∀ stNew, a = .exec stNew → InTime stNew m'.last m'.watched.list

/-- A battery or mains powered device is added only with the flag it has, and not offline; at a
pass none whose time is out is offline, and the time stamps are as much out of date as the last
additions. -/
def KeepsFlags (m : Monitored) : OnlineAct → Prop
  | .add pcDevId i _ _ => (heartBeatTimeout i.acPowerType).isSome = true →
      i.ucOnline ≠ 0 ∧
        ((m.watched.list.find pcDevId).map m.watched.list.ucOnline).getD 0 = i.ucOnline
  | .attrAdd _ _ _ => True
  | .exec stNew => ∀ p d t, m.watched.list.device p = some d →
      heartBeatTimeout d.stDevInfo.acPowerType = some t →
        (m.watched.overdue stNew p t = true → d.stDevInfo.ucOnline ≠ 0) ∧
          ((m.watched.overdue stNew p t = false ∧ d.stDevInfo.ucOnline ≤ 1) ↔
            stNew.toNat ≤ (m.last p).toNat + t)

instance decidableKeepsFlags (m : Monitored) : (a : OnlineAct) → Decidable (KeepsFlags m a)
  | .add pcDevId i _ _ =>
    inferInstanceAs (Decidable ((heartBeatTimeout i.acPowerType).isSome = true →
      i.ucOnline ≠ 0 ∧
        ((m.watched.list.find pcDevId).map m.watched.list.ucOnline).getD 0 = i.ucOnline))
  | .attrAdd _ _ _ => .isTrue trivial
  | .exec stNew => decidable_of_iff
      (∀ n ∈ m.watched.list.devs.nodes, ∀ t ∈ heartBeatTimeout n.2.stDevInfo.acPowerType,
        (m.watched.overdue stNew n.1 t = true → n.2.stDevInfo.ucOnline ≠ 0) ∧
          ((m.watched.overdue stNew n.1 t = false ∧ n.2.stDevInfo.ucOnline ≤ 1) ↔
            stNew.toNat ≤ (m.last n.1).toNat + t))
      ⟨fun h p d t hd ht => h (p, d) (Listing.mem_of_data hd) t ht,
        fun h n hn t ht => h n.1 n.2 t (Listing.data_eq_some hn) ht⟩

open DevList (devKey attrKey)

variable {s s' : DevList} {p q : Nat} {d : Device} {pcDevId : DevId} {i : DevInfo}
  {x : DevAttrInfo} {iRet : Ret}

/-! ## What the calls do to the devices -/

/-- Every device of the list is found, or something else under its id. -/
def Listed (s : DevList) : Prop := ∀ e ∈ s.ids, s.find e ≠ none

theorem find_inst_ne_none {m : Base.HashMap DevAttrPtr} {k k' : Base.HashKey} {v : DevAttrPtr}
    (h : m.find k' ≠ none ∨ k = k') : (m.inst k v).find k' ≠ none := by
  rw [Base.HashMap.find_eq, Base.HashMap.all_inst, Ne, head?_eq_none_iff,
    append_eq_nil_iff]
  rintro ⟨hall, hnew⟩
  rcases h with h | rfl
  · exact h (by rw [Base.HashMap.find_eq, hall]; rfl)
  · rw [if_pos rfl] at hnew
    cases hnew

theorem find_ne_none_iff : s.find pcDevId ≠ none ↔ s.hash.find (devKey pcDevId) ≠ none := by
  rw [find, Ne, map_eq_none_iff]

theorem Listed.inst (hl : Listed s) (k : Base.HashKey) (v : DevAttrPtr) :
    Listed { s with hash := s.hash.inst k v } := fun e he =>
  find_ne_none_iff.mpr (find_inst_ne_none (Or.inl (find_ne_none_iff.mp (hl e he))))

theorem setDevice_device {f : Device → Device} (h : s.setDevice p f = some s') :
    (∃ d, s.device p = some d ∧ s'.device p = some (f d)) ∧
      ∀ q, q ≠ p → s'.device q = s.device q := by
  obtain ⟨d, as, bs, hat, hat'⟩ := setDevice_nodes h
  refine ⟨⟨d, hat.device_eq, hat'.device_eq⟩, fun q hq => ?_⟩
  rw [device, device, Listing.data, Listing.data, hat.nodes, hat'.nodes,
    Listing.find?_skip as bs d hq.symm, Listing.find?_skip as bs (f d) hq.symm]

theorem setDevice_fields {f : Device → Device} (h : s.setDevice p f = some s') :
    s'.hash = s.hash ∧ s'.ucInitFlag = s.ucInitFlag := by
  obtain ⟨devs, -, h⟩ := bind_eq_some_iff.mp h
  obtain rfl := some.inj h
  exact ⟨rfl, rfl⟩

theorem Listed.setDevice {f : Device → Device} (hl : Listed s)
    (hf : ∀ d, (f d).acDevId = d.acDevId) (h : s.setDevice p f = some s') : Listed s' := by
  intro e he
  rw [(ids_of_setDevice hf h).1] at he
  have hfind := hl e he
  rwa [find_ne_none_iff, ← (setDevice_fields h).1, ← find_ne_none_iff] at hfind

theorem ucOnline_fresh (s : DevList) : s.ucOnline s.devs.fresh = 0 := by
  have hnone : s.device s.devs.fresh = none := Listing.data_eq_none fun h => by
    obtain ⟨n, hn, heq⟩ := List.mem_map.mp h
    exact absurd heq (s.devs.lt n hn).ne
  rw [ucOnline, hnone]

theorem ucOnline_of_device (h : s.device p = some d) : s.ucOnline p = d.stDevInfo.ucOnline := by
  rw [ucOnline, h]

theorem ucOnline_online (i : DevInfo) :
    (DevInfo.online false i).ucOnline = if i.ucOnline = 0 then 1 else i.ucOnline := by
  rw [DevInfo.online]
  by_cases h : i.ucOnline = 0
  · rw [if_pos ⟨rfl, h⟩, if_pos h]
  · rw [if_neg fun hno => h hno.2, if_neg h]

theorem acPowerType_online (ucInitFlag : Bool) (i : DevInfo) :
    (DevInfo.online ucInitFlag i).acPowerType = i.acPowerType := by
  rw [DevInfo.online]
  split <;> rfl

theorem addDevice_spec (hl : Listed s) (h : s.addDevice pcDevId i = some (s', p)) :
    p = (s.find pcDevId).getD s.devs.fresh ∧ s'.ucInitFlag = s.ucInitFlag ∧ Listed s' ∧
      (∃ d, s'.device p = some d ∧ d.stDevInfo = i) ∧ ∀ q, q ≠ p → s'.device q = s.device q := by
  rw [addDevice] at h
  split at h
  next hnone =>
    obtain ⟨devs, hins, h⟩ := bind_eq_some_iff.mp h
    obtain ⟨found, hfound, h⟩ := bind_eq_some_iff.mp h
    obtain ⟨r, hr, h⟩ := bind_eq_some_iff.mp h
    obtain ⟨d, hd, h⟩ := bind_eq_some_iff.mp h
    obtain ⟨rfl, rfl⟩ := Prod.mk.inj (some.inj h)
    subst hr
    have hgone : s.devs.gone = false := by
      rw [Listing.tailInsert] at hins
      split at hins
      · cases hins
      · rename_i hgone
        exact Bool.eq_false_iff.mpr hgone
    obtain ⟨devs', hins', hnodes, hgone'⟩ :=
      Listing.exists_tailInsert hgone (⟨pcDevId, i, some .empty⟩ : Device)
    obtain rfl : devs' = devs := some.inj (hins'.symm.trans hins)
    -- no block before the new one has the id, for it would be found
    have hbefore : ∀ n ∈ s.devs.nodes,
        CText.strncmpEq devIdMaxLen n.2.acDevId.1 pcDevId.1 = false := by
      intro n hn
      rw [Bool.eq_false_iff]
      intro heq
      obtain rfl := Field.strncmpEq_iff.mp heq
      exact hl _ (List.mem_map_of_mem hn) hnone
    have hself : CText.strncmpEq devIdMaxLen pcDevId.1 pcDevId.1 = true :=
      Field.strncmpEq_iff.mpr rfl
    have hlast := Listing.find_last (f := fun d : Device =>
      CText.strncmpEq devIdMaxLen d.acDevId.1 pcDevId.1) hnodes hgone' hbefore hself
    obtain rfl : s.devs.fresh = r := by
      rw [hlast] at hfound
      exact some.inj (some.inj hfound)
    have hmem : (s.devs.fresh, (⟨pcDevId, i, some .empty⟩ : Device)) ∈ devs'.nodes := by
      rw [hnodes]
      exact mem_append_right _ mem_cons_self
    have hdata := Listing.data_eq_some hmem
    obtain rfl := some.inj (hdata.symm.trans hd)
    refine ⟨by rw [hnone]; rfl, rfl, ?_, ⟨_, hdata, rfl⟩, fun q hq => ?_⟩
    · intro e he
      have hids : ids { s with
          devs := devs', hash := s.hash.inst (devKey pcDevId) ⟨s.devs.fresh, none⟩ } =
          s.ids ++ [pcDevId] := by
        rw [ids, ids, hnodes, map_append]
        rfl
      rw [hids, mem_append, mem_singleton] at he
      refine find_ne_none_iff.mpr (find_inst_ne_none ?_)
      rcases he with he | rfl
      · exact Or.inl (find_ne_none_iff.mp (hl e he))
      · exact Or.inr rfl
    · show devs'.data q = s.devs.data q
      rw [Listing.data, Listing.data, hnodes, Listing.find?_skip _ [] _ hq.symm, append_nil]
  next r hfound =>
    obtain ⟨s₁, hset, h⟩ := bind_eq_some_iff.mp h
    obtain ⟨rfl, rfl⟩ := Prod.mk.inj (some.inj h)
    obtain ⟨⟨d, -, hd⟩, hothers⟩ := setDevice_device hset
    refine ⟨by rw [hfound]; rfl, (setDevice_fields hset).2, ?_, ⟨_, hd, rfl⟩, hothers⟩
    exact hl.setDevice (f := fun d => { d with stDevInfo := i }) (fun _ => rfl) hset

/-- The device whose attribute is added goes online, and nothing happens to the others. -/
theorem attrAdd_device (hl : Listed s) (h : s.attrAdd pcDevId x = some (s', iRet)) :
    s'.ucInitFlag = s.ucInitFlag ∧ Listed s' ∧
      match s.attrDevice pcDevId x.acKey with
      | none => s' = s
      | some p => (∃ d d', s.device p = some d ∧ s'.device p = some d' ∧
          d'.stDevInfo = DevInfo.online s.ucInitFlag d.stDevInfo) ∧
            ∀ q, q ≠ p → s'.device q = s.device q := by
  -- behind the attribute list, however it was changed
  have hadded {p b : Nat} {s₁ s₂ : DevList} {l : Listing DevAttrInfo}
      (hset : s.setAttrList p (some l) = some s₁) (hdevs : s₂.devs = s₁.devs)
      (hflag : s₂.ucInitFlag = s₁.ucInitFlag) (hl₂ : Listed s₂)
      (hadd : s₂.attrAdded p b = some (s', iRet)) :
      s'.ucInitFlag = s.ucInitFlag ∧ Listed s' ∧
        ((∃ d d', s.device p = some d ∧ s'.device p = some d' ∧
          d'.stDevInfo = DevInfo.online s.ucInitFlag d.stDevInfo) ∧
            ∀ q, q ≠ p → s'.device q = s.device q) := by
    obtain ⟨s₃, honline, hpush⟩ := bind_eq_some_iff.mp hadd
    obtain rfl := congrArg Prod.fst (some.inj hpush)
    obtain ⟨⟨d, hd, hd₁⟩, hothers⟩ := setDevice_device hset
    obtain ⟨⟨d₂, hd₂, hd₃⟩, hothers'⟩ := setDevice_device honline
    have hsame (q : Nat) : s₂.device q = s₁.device q := by
      rw [device, device, hdevs]
    rw [hsame, hd₁] at hd₂
    obtain rfl := some.inj hd₂
    have hflags : s₂.ucInitFlag = s.ucInitFlag := hflag.trans (setDevice_fields hset).2
    refine ⟨(setDevice_fields honline).2.trans hflags, ?_, ⟨d, _, hd, hd₃, ?_⟩, fun q hq => ?_⟩
    · have hl₃ : Listed s₃ := hl₂.setDevice (f := fun d => { d with
        stDevInfo := DevInfo.online s₂.ucInitFlag d.stDevInfo }) (fun _ => rfl) honline
      exact hl₃
    · rw [hflags]
    · exact (hothers' q hq).trans ((hsame q).trans (hothers q hq))
  rw [attrAdd] at h
  rw [attrDevice]
  split at h
  next hnone =>
    rw [hnone]
    split at h
    next hq =>
      obtain rfl := congrArg Prod.fst (some.inj h)
      simp only [hq]
      exact ⟨trivial, hl, trivial⟩
    next q hq =>
      simp only [hq]
      obtain ⟨k, -, h⟩ := bind_eq_some_iff.mp h
      obtain ⟨k', -, h⟩ := bind_eq_some_iff.mp h
      obtain ⟨found, -, h⟩ := bind_eq_some_iff.mp h
      obtain ⟨b, -, h⟩ := bind_eq_some_iff.mp h
      obtain ⟨y, -, h⟩ := bind_eq_some_iff.mp h
      obtain ⟨s₁, hset, h⟩ := bind_eq_some_iff.mp h
      have hl₁ : Listed s₁ := hl.setDevice (f := fun d => { d with pstDevAttrList := some k' })
        (fun _ => rfl) hset
      have hl₂ := hl₁.inst (attrKey pcDevId y.acKey) ⟨q, some b⟩
      refine hadded hset ?_ ?_ hl₂ h <;> rfl
  next e he =>
    rw [he]
    obtain ⟨b, -, h⟩ := bind_eq_some_iff.mp h
    obtain ⟨k, -, h⟩ := bind_eq_some_iff.mp h
    obtain ⟨k', -, h⟩ := bind_eq_some_iff.mp h
    obtain ⟨s₁, hset, h⟩ := bind_eq_some_iff.mp h
    have hl₁ : Listed s₁ := hl.setDevice (f := fun d => { d with pstDevAttrList := some k' })
      (fun _ => rfl) hset
    exact hadded hset rfl rfl hl₁ h

/-! ## A step that touches one device -/

theorem told_of_forall {os : List Announced} (h : ∀ o ∈ os, o.pstDev = p) :
    told p os = os.map Announced.ucOnline := by
  rw [told, filter_eq_self.mpr fun o ho => beq_iff_eq.mpr (h o ho)]

theorem told_of_ne {os : List Announced} (h : ∀ o ∈ os, o.pstDev = p) (hq : q ≠ p) :
    told q os = [] := by
  rw [told, filter_eq_nil_iff.mpr fun o ho heq => hq ((beq_iff_eq.mp heq).symm.trans (h o ho)),
    map_nil]

theorem told_append (p : Nat) (os os' : List Announced) :
    told p (os ++ os') = told p os ++ told p os' := by
  rw [told, filter_append, map_append, told, told]

theorem announces_iff (hd : s'.device p = some d) (hothers : ∀ q, q ≠ p → s'.device q = s.device q)
    {os : List Announced} (hos : ∀ o ∈ os, o.pstDev = p) :
    Announces s s' os ↔ ((heartBeatTimeout d.stDevInfo.acPowerType).isSome = true →
      os.map Announced.ucOnline =
        if s.ucOnline p = d.stDevInfo.ucOnline then [] else [d.stDevInfo.ucOnline]) := by
  constructor
  · intro h hpower
    rw [← told_of_forall hos, ← ucOnline_of_device hd]
    exact h p d hd hpower
  · intro h q e he hpower
    by_cases hq : q = p
    · subst hq
      obtain rfl := some.inj (he.symm.trans hd)
      rw [told_of_forall hos, ucOnline_of_device hd]
      exact h hpower
    · have hsame : s.ucOnline q = s'.ucOnline q := by
        rw [ucOnline, ucOnline, hothers q hq]
      rw [told_of_ne hos hq, if_pos hsame]

variable {w w' : Watched} {os : List Announced} {uiSec now stNew : UInt32}

/-- Outside initialisation, the device added goes online, and its announcement has the flag of
the caller. -/
theorem add_spec (hl : Listed w.list) (hflag : w.list.ucInitFlag = false)
    (h : w.add pcDevId i uiSec now = some (w', os)) :
    w'.list.ucInitFlag = false ∧ Listed w'.list ∧ ∃ p d,
      p = (w.list.find pcDevId).getD w.list.devs.fresh ∧
        w'.list.device p = some d ∧ d.stDevInfo = DevInfo.online false i ∧
          (∀ q, q ≠ p → w'.list.device q = w.list.device q) ∧
            os = if i.ucOnline = 0 then [⟨p, i.ucOnline⟩] else [] := by
  obtain ⟨⟨s₁, p⟩, hadd, h⟩ := bind_eq_some_iff.mp h
  obtain ⟨s₂, honline, h⟩ := bind_eq_some_iff.mp h
  obtain ⟨rfl, rfl⟩ := Prod.mk.inj (some.inj h)
  obtain ⟨hp, hflag₁, hl₁, ⟨d₁, hd₁, hi⟩, hothers⟩ := addDevice_spec hl hadd
  obtain ⟨⟨d, hd, hd₂⟩, hothers'⟩ := setDevice_device honline
  obtain rfl := some.inj (hd₁.symm.trans hd)
  rw [hflag] at hflag₁
  have hl₂ : Listed s₂ := hl₁.setDevice (f := fun d => { d with
    stDevInfo := DevInfo.online s₁.ucInitFlag d.stDevInfo }) (fun _ => rfl) honline
  refine ⟨(setDevice_fields honline).2.trans hflag₁, hl₂, p, _, hp, hd₂, ?_, ?_, ?_⟩
  · rw [hi, hflag₁]
  · exact fun q hq => (hothers' q hq).trans (hothers q hq)
  · rw [goesOnline, hflag₁, hd₁]
    simp [hi]

/-- An addition is announced as it is to be exactly when the caller's flag is the one the device
had, and not zero. -/
theorem add_announces_iff (hl : Listed w.list) (hflag : w.list.ucInitFlag = false)
    (h : w.add pcDevId i uiSec now = some (w', os)) :
    Announces w.list w'.list os ↔ ((heartBeatTimeout i.acPowerType).isSome = true →
      i.ucOnline ≠ 0 ∧ ((w.list.find pcDevId).map w.list.ucOnline).getD 0 = i.ucOnline) := by
  obtain ⟨-, -, p, d, hp, hd, hi, hothers, rfl⟩ := add_spec hl hflag h
  have hold : w.list.ucOnline p = ((w.list.find pcDevId).map w.list.ucOnline).getD 0 := by
    subst hp
    cases w.list.find pcDevId with
    | none => exact ucOnline_fresh w.list
    | some q => rfl
  have hos : ∀ o ∈ (if i.ucOnline = 0 then [⟨p, i.ucOnline⟩] else [] : List Announced),
      o.pstDev = p := by
    intro o ho
    split at ho
    · rw [mem_singleton.mp ho]
    · cases ho
  rw [announces_iff hd hothers hos, hi, acPowerType_online, ucOnline_online, ← hold]
  refine imp_congr_right fun _ => ?_
  by_cases hzero : i.ucOnline = 0
  · -- zero is announced, but the flag becomes one
    rw [if_pos hzero, if_pos hzero]
    refine iff_of_false (fun heq => ?_) fun hno => hno.1 hzero
    simp only [map_cons, map_nil] at heq
    split at heq
    · cases heq
    · rw [hzero] at heq
      exact absurd (List.cons.inj heq).1 Nat.zero_ne_one
  · rw [if_neg hzero, if_neg hzero, map_nil]
    constructor
    · intro heq
      refine ⟨hzero, ?_⟩
      by_contra hne
      rw [if_neg hne] at heq
      cases heq
    · rintro ⟨-, heq⟩
      rw [if_pos heq]

/-- The addition of an attribute is always announced as it is to be. -/
theorem attrAdd_announces (hl : Listed w.list) (hflag : w.list.ucInitFlag = false)
    (h : w.attrAdd pcDevId x now = some (w', os)) :
    w'.list.ucInitFlag = false ∧ Listed w'.list ∧ Announces w.list w'.list os := by
  obtain ⟨⟨s₁, r⟩, hadd, h⟩ := bind_eq_some_iff.mp h
  obtain ⟨rfl, rfl⟩ := Prod.mk.inj (some.inj h)
  obtain ⟨hflag₁, hl₁, hdev⟩ := attrAdd_device hl hadd
  refine ⟨hflag₁.trans hflag, hl₁, ?_⟩
  cases hp : w.list.attrDevice pcDevId x.acKey with
  | none =>
    rw [hp] at hdev
    subst hdev
    exact fun p d _ _ => by rw [if_pos rfl]; rfl
  | some p =>
    rw [hp] at hdev
    obtain ⟨⟨d, d', hd, hd', hi⟩, hothers⟩ := hdev
    have hold := ucOnline_of_device hd
    have hgoes : w.list.goesOnline p = decide (d.stDevInfo.ucOnline = 0) := by
      rw [goesOnline, hflag, hd]
      rfl
    rw [hflag, DevInfo.online] at hi
    by_cases hzero : d.stDevInfo.ucOnline = 0
    · rw [if_pos ⟨rfl, hzero⟩] at hi
      simp only [hgoes, hzero, decide_true, if_true]
      rw [announces_iff hd' hothers (by simp), hold, hi, hzero, ucOnline_of_device hd', hi]
      exact fun _ => rfl
    · rw [if_neg fun hno => hzero hno.2] at hi
      simp only [hgoes, hzero, decide_false, Bool.false_eq_true, if_false]
      rw [announces_iff hd' hothers (by simp), hold, hi, if_pos rfl]
      exact fun _ => rfl

/-! ## A pass -/

namespace Watched

/-- The flag of a device behind a pass. -/
def flagAfter (w : Watched) (stNew : UInt32) (p : Nat) (d : Device) : Nat :=
  match heartBeatTimeout d.stDevInfo.acPowerType with
  | none => d.stDevInfo.ucOnline
  | some t =>
    if w.overdue stNew p t then 0
    else if d.stDevInfo.ucOnline = 0 then 1
    else d.stDevInfo.ucOnline

/-- What is told of a device in a pass. -/
def toldAfter (w : Watched) (stNew : UInt32) (p : Nat) (d : Device) : List Nat :=
  match heartBeatTimeout d.stDevInfo.acPowerType with
  | none => []
  | some t =>
    if w.overdue stNew p t then [0]
    else if d.stDevInfo.ucOnline = 0 then [1]
    else []

end Watched

theorem report_spec {ucOnline : Nat} (hl : Listed w.list)
    (h : w.report p ucOnline = some (w', os)) :
    w'.uiSec = w.uiSec ∧ w'.list.ucInitFlag = w.list.ucInitFlag ∧ Listed w'.list ∧
      os = [⟨p, ucOnline⟩] ∧
        (∃ d, w.list.device p = some d ∧ w'.list.device p = some (d.setOnline ucOnline)) ∧
          ∀ q, q ≠ p → w'.list.device q = w.list.device q := by
  obtain ⟨s₁, hset, h⟩ := bind_eq_some_iff.mp h
  obtain ⟨d₁, hd₁, h⟩ := bind_eq_some_iff.mp h
  obtain ⟨rfl, rfl⟩ := Prod.mk.inj (some.inj h)
  obtain ⟨⟨d, hd, hd'⟩, hothers⟩ := setDevice_device hset
  obtain rfl := some.inj (hd'.symm.trans hd₁)
  have hl₁ : Listed s₁ := hl.setDevice (f := Device.setOnline ucOnline) (fun _ => rfl) hset
  exact ⟨rfl, (setDevice_fields hset).2, hl₁, rfl, ⟨d, hd, hd'⟩, hothers⟩

theorem watch_spec (hl : Listed w.list) (h : w.watch stNew p = some (w', os)) :
    w'.uiSec = w.uiSec ∧ w'.list.ucInitFlag = w.list.ucInitFlag ∧ Listed w'.list ∧
      (∃ d, w.list.device p = some d ∧
        w'.list.device p = some (d.setOnline (w.flagAfter stNew p d)) ∧
          os = (w.toldAfter stNew p d).map (Announced.mk p)) ∧
        ∀ q, q ≠ p → w'.list.device q = w.list.device q := by
  obtain ⟨d, hd, h⟩ := bind_eq_some_iff.mp h
  have hreport {ucOnline : Nat} (hr : w.report p ucOnline = some (w', os))
      (hflag : w.flagAfter stNew p d = ucOnline) (htold : w.toldAfter stNew p d = [ucOnline]) :
      w'.uiSec = w.uiSec ∧ w'.list.ucInitFlag = w.list.ucInitFlag ∧ Listed w'.list ∧
        (∃ d, w.list.device p = some d ∧
          w'.list.device p = some (d.setOnline (w.flagAfter stNew p d)) ∧
            os = (w.toldAfter stNew p d).map (Announced.mk p)) ∧
          ∀ q, q ≠ p → w'.list.device q = w.list.device q := by
    obtain ⟨hsec, hinit, hl', hos, ⟨d', hd', hnew⟩, hothers⟩ := report_spec hl hr
    obtain rfl := some.inj (hd.symm.trans hd')
    exact ⟨hsec, hinit, hl', ⟨d, hd, by rw [hflag, hnew], by rw [htold, hos]; rfl⟩, hothers⟩
  have hkeep (heq : some (w, []) = some (w', os))
      (hflag : w.flagAfter stNew p d = d.stDevInfo.ucOnline) (htold : w.toldAfter stNew p d = []) :
      w'.uiSec = w.uiSec ∧ w'.list.ucInitFlag = w.list.ucInitFlag ∧ Listed w'.list ∧
        (∃ d, w.list.device p = some d ∧
          w'.list.device p = some (d.setOnline (w.flagAfter stNew p d)) ∧
            os = (w.toldAfter stNew p d).map (Announced.mk p)) ∧
          ∀ q, q ≠ p → w'.list.device q = w.list.device q := by
    obtain ⟨rfl, rfl⟩ := Prod.mk.inj (some.inj heq)
    exact ⟨rfl, rfl, hl, ⟨d, hd, by rw [hflag, hd]; rfl, by rw [htold]; rfl⟩, fun _ _ => rfl⟩
  cases ht : heartBeatTimeout d.stDevInfo.acPowerType with
  | none =>
    simp only [ht] at h
    exact hkeep h (by simp only [Watched.flagAfter, ht]) (by simp only [Watched.toldAfter, ht])
  | some t =>
    simp only [ht] at h
    by_cases hover : w.overdue stNew p t = true
    · rw [if_pos hover] at h
      exact hreport h (by simp only [Watched.flagAfter, ht, if_pos hover])
        (by simp only [Watched.toldAfter, ht, if_pos hover])
    · rw [if_neg hover] at h
      by_cases hzero : d.stDevInfo.ucOnline = 0
      · rw [if_pos hzero] at h
        exact hreport h (by simp only [Watched.flagAfter, ht, if_neg hover, if_pos hzero])
          (by simp only [Watched.toldAfter, ht, if_neg hover, if_pos hzero])
      · rw [if_neg hzero] at h
        exact hkeep h (by simp only [Watched.flagAfter, ht, if_neg hover, if_neg hzero])
          (by simp only [Watched.toldAfter, ht, if_neg hover, if_neg hzero])

theorem watchAll_spec {ps : List Nat} (hnd : ps.Nodup) (hl : Listed w.list)
    (h : Run.run (Watched.watch stNew) w ps = some (w', os)) :
    w'.list.ucInitFlag = w.list.ucInitFlag ∧ Listed w'.list ∧
      (∀ p ∈ ps, ∃ d, w.list.device p = some d ∧
        w'.list.device p = some (d.setOnline (w.flagAfter stNew p d)) ∧
          told p os = w.toldAfter stNew p d) ∧
        ∀ p, p ∉ ps → w'.list.device p = w.list.device p ∧ told p os = [] := by
  induction ps generalizing w os with
  | nil =>
    obtain ⟨rfl, rfl⟩ := Prod.mk.inj (some.inj h)
    exact ⟨rfl, hl, fun p hp => absurd hp not_mem_nil, fun p _ => ⟨rfl, rfl⟩⟩
  | cons q ps ih =>
    obtain ⟨hq, hnd⟩ := nodup_cons.mp hnd
    obtain ⟨w₁, o, os', hstep, hrest, rfl⟩ := Run.run_cons.mp h
    obtain ⟨hsec, hinit, hl₁, ⟨d, hd, hd₁, rfl⟩, hothers⟩ := watch_spec hl hstep
    obtain ⟨hinit', hl', hin, hout⟩ := ih hnd hl₁ hrest
    have ho : ∀ o ∈ (w.toldAfter stNew q d).map (Announced.mk q), o.pstDev = q := by
      intro o ho
      obtain ⟨v, -, rfl⟩ := List.mem_map.mp ho
      rfl
    have hself : told q ((w.toldAfter stNew q d).map (Announced.mk q)) =
        w.toldAfter stNew q d := by
      rw [told_of_forall ho, List.map_map]
      exact List.map_id _
    -- the flag depends on the time stamps alone
    have hsame (p : Nat) (e : Device) : w₁.flagAfter stNew p e = w.flagAfter stNew p e ∧
        w₁.toldAfter stNew p e = w.toldAfter stNew p e := by
      have hover : w₁.overdue = w.overdue := by
        funext a p t
        rw [Watched.overdue, Watched.overdue, hsec]
      rw [Watched.flagAfter, Watched.flagAfter, Watched.toldAfter, Watched.toldAfter, hover]
      exact ⟨rfl, rfl⟩
    refine ⟨hinit'.trans hinit, hl', fun p hp => ?_, fun p hp => ?_⟩
    · rw [told_append]
      by_cases hpq : p = q
      · subst hpq
        obtain ⟨hkept, hnone⟩ := hout p hq
        exact ⟨d, hd, hkept.trans hd₁, by rw [hself, hnone, append_nil]⟩
      · obtain ⟨e, he, he', htold⟩ := hin p ((mem_cons.mp hp).resolve_left hpq)
        rw [(hsame p e).1] at he'
        rw [(hsame p e).2] at htold
        exact ⟨e, (hothers p hpq).symm.trans he, he', by rw [told_of_ne ho hpq, htold]; rfl⟩
    · obtain ⟨hpq, hp⟩ := ne_and_not_mem_of_not_mem_cons hp
      obtain ⟨hkept, hnone⟩ := hout p hp
      rw [told_append, told_of_ne ho hpq, hnone]
      exact ⟨hkept.trans (hothers p hpq), rfl⟩

theorem exec_spec (hl : Listed w.list) (h : w.exec stNew = some (w', os)) :
    w'.list.ucInitFlag = w.list.ucInitFlag ∧ Listed w'.list ∧
      (∀ p d, w.list.device p = some d →
        w'.list.device p = some (d.setOnline (w.flagAfter stNew p d)) ∧
          told p os = w.toldAfter stNew p d) ∧
        ∀ p, w.list.device p = none → w'.list.device p = none := by
  obtain ⟨hinit, hl', hin, hout⟩ := watchAll_spec w.list.devs.nodup hl h
  refine ⟨hinit, hl', fun p d hd => ?_, fun p hnone => ?_⟩
  · obtain ⟨e, he, he', htold⟩ := hin p (List.mem_map_of_mem (Listing.mem_of_data hd))
    obtain rfl := some.inj (hd.symm.trans he)
    exact ⟨he', htold⟩
  · refine (hout p fun hp => ?_).1.trans hnone
    obtain ⟨e, he, -⟩ := hin p hp
    rw [hnone] at he
    cases he

theorem toldAfter_iff {t : Nat} (ht : heartBeatTimeout d.stDevInfo.acPowerType = some t) :
    w.toldAfter stNew p d = (if d.stDevInfo.ucOnline = w.flagAfter stNew p d then []
      else [w.flagAfter stNew p d]) ↔ (w.overdue stNew p t = true → d.stDevInfo.ucOnline ≠ 0) := by
  simp only [Watched.toldAfter, Watched.flagAfter, ht]
  by_cases hover : w.overdue stNew p t = true
  · rw [if_pos hover, if_pos hover]
    by_cases hzero : d.stDevInfo.ucOnline = 0
    · simp [hzero, hover]
    · simp [hzero]
  · rw [if_neg hover, if_neg hover]
    by_cases hzero : d.stDevInfo.ucOnline = 0
    · simp [hzero, hover]
    · simp [hzero]

theorem flagAfter_eq_one_iff {t : Nat} (ht : heartBeatTimeout d.stDevInfo.acPowerType = some t) :
    w.flagAfter stNew p d = 1 ↔ w.overdue stNew p t = false ∧ d.stDevInfo.ucOnline ≤ 1 := by
  simp only [Watched.flagAfter, ht]
  cases w.overdue stNew p t with
  | true => simp
  | false =>
    by_cases hzero : d.stDevInfo.ucOnline = 0
    · simp [hzero]
    · simp only [Bool.false_eq_true, if_false, if_neg hzero, true_and]
      omega

/-- A pass does what it is to do exactly where no device that is offline has its time out and the
time stamps are as good as the additions. -/
theorem exec_follows_iff {last : Nat → UInt32} (hl : Listed w.list)
    (h : w.exec stNew = some (w', os)) :
    (Announces w.list w'.list os ∧ InTime stNew last w'.list) ↔
      ∀ p d t, w.list.device p = some d → heartBeatTimeout d.stDevInfo.acPowerType = some t →
        (w.overdue stNew p t = true → d.stDevInfo.ucOnline ≠ 0) ∧
          ((w.overdue stNew p t = false ∧ d.stDevInfo.ucOnline ≤ 1) ↔
            stNew.toNat ≤ (last p).toNat + t) := by
  obtain ⟨-, -, hsome, hnone⟩ := exec_spec hl h
  constructor
  · rintro ⟨hann, htime⟩ p d t hd ht
    obtain ⟨hd', htold⟩ := hsome p d hd
    refine ⟨(toldAfter_iff ht).mp ?_, (flagAfter_eq_one_iff ht).symm.trans (htime p _ t hd' ht)⟩
    have hp := hann p _ hd' (by rw [Device.setOnline, ht]; rfl)
    rwa [htold, ucOnline_of_device hd, ucOnline_of_device hd'] at hp
  · intro hall
    -- a device behind the pass was there before
    have hback {p : Nat} {e : Device} (he : w'.list.device p = some e) :
        ∃ d, w.list.device p = some d ∧ e = d.setOnline (w.flagAfter stNew p d) ∧
          told p os = w.toldAfter stNew p d := by
      cases hd : w.list.device p with
      | none =>
        rw [hnone p hd] at he
        cases he
      | some d =>
        obtain ⟨hd', htold⟩ := hsome p d hd
        exact ⟨d, rfl, some.inj (he.symm.trans hd'), htold⟩
    constructor
    · intro p e he hpower
      obtain ⟨d, hd, rfl, htold⟩ := hback he
      obtain ⟨t, ht⟩ : ∃ t, heartBeatTimeout d.stDevInfo.acPowerType = some t :=
        isSome_iff_exists.mp hpower
      rw [htold, ucOnline_of_device hd, ucOnline_of_device he]
      exact (toldAfter_iff ht).mpr (hall p d t hd ht).1
    · intro p e t he ht
      obtain ⟨d, hd, rfl, -⟩ := hback he
      have ht : heartBeatTimeout d.stDevInfo.acPowerType = some t := ht
      exact (flagAfter_eq_one_iff ht).trans (hall p d t hd ht).2

/-! ## Whole runs -/

variable {m m' : Monitored} {a : OnlineAct}

/-- What every step keeps. -/
def Monitored.Ready (m : Monitored) : Prop :=
  Listed m.watched.list ∧ m.watched.list.ucInitFlag = false

/-- A step does what it is to do exactly where the condition holds. -/
theorem follows_iff (hr : m.Ready) (h : m.step a = some (m', os)) :
    Follows m a ↔ KeepsFlags m a := by
  have hone : Follows m a ↔ (Announces m.watched.list m'.watched.list os ∧
      ∀ stNew, a = .exec stNew → InTime stNew m'.last m'.watched.list) := by
    refine ⟨fun hf => hf m' os h, fun hf m₁ os₁ h₁ => ?_⟩
    obtain ⟨rfl, rfl⟩ := Prod.mk.inj (some.inj (h.symm.trans h₁))
    exact hf
  rw [hone]
  cases a with
  | add pcDevId i uiSec now =>
    obtain ⟨⟨w', os'⟩, hadd, h⟩ := map_eq_some_iff.mp h
    obtain ⟨rfl, rfl⟩ := Prod.mk.inj h
    rw [KeepsFlags, ← add_announces_iff hr.1 hr.2 hadd]
    exact and_iff_left fun _ hno => OnlineAct.noConfusion hno
  | attrAdd pcDevId x now =>
    obtain ⟨⟨w', os'⟩, hadd, h⟩ := map_eq_some_iff.mp h
    obtain ⟨rfl, rfl⟩ := Prod.mk.inj h
    exact iff_of_true ⟨(attrAdd_announces hr.1 hr.2 hadd).2.2, fun _ hno => by cases hno⟩ trivial
  | exec stNew =>
    obtain ⟨⟨w', os'⟩, hexec, h⟩ := map_eq_some_iff.mp h
    obtain ⟨rfl, rfl⟩ := Prod.mk.inj h
    rw [KeepsFlags, ← exec_follows_iff hr.1 hexec]
    refine and_congr_right fun _ => ⟨fun htime => htime stNew rfl, fun htime stNew' heq => ?_⟩
    cases heq
    exact htime

theorem step_ready (hr : m.Ready) (h : m.step a = some (m', os)) : m'.Ready := by
  cases a with
  | add pcDevId i uiSec now =>
    obtain ⟨⟨w', os'⟩, hadd, h⟩ := map_eq_some_iff.mp h
    obtain ⟨rfl, rfl⟩ := Prod.mk.inj h
    obtain ⟨hflag, hl, -⟩ := add_spec hr.1 hr.2 hadd
    exact ⟨hl, hflag⟩
  | attrAdd pcDevId x now =>
    obtain ⟨⟨w', os'⟩, hadd, h⟩ := map_eq_some_iff.mp h
    obtain ⟨rfl, rfl⟩ := Prod.mk.inj h
    obtain ⟨hflag, hl, -⟩ := attrAdd_announces hr.1 hr.2 hadd
    exact ⟨hl, hflag⟩
  | exec stNew =>
    obtain ⟨⟨w', os'⟩, hexec, h⟩ := map_eq_some_iff.mp h
    obtain ⟨rfl, rfl⟩ := Prod.mk.inj h
    obtain ⟨hflag, hl, -⟩ := exec_spec hr.1 hexec
    exact ⟨hl, hflag.trans hr.2⟩

/-- In a run, every step does what it is to do exactly when every step meets the condition. -/
theorem online_follows_iff {acts : List OnlineAct} (hl : Listed m.watched.list)
    (hflag : m.watched.list.ucInitFlag = false)
    (h : Run.run Monitored.step m acts = some (m', os)) :
    Run.Along Monitored.step Follows m acts ↔ Run.Along Monitored.step KeepsFlags m acts :=
  Run.along_iff_along (R := Monitored.Ready) (fun _ _ _ _ hr hstep => follows_iff hr hstep)
    (fun _ _ _ _ hr _ hstep => step_ready hr hstep) ⟨hl, hflag⟩ h

/-- A battery powered device of which nothing else is known. -/
def batteryInfo : DevInfo :=
  { blankInfo with acPowerType := devPowerTyprBattery }

/-- A list with a battery powered device that was read from the database. -/
def readBack (pcDevId : DevId) : Option Monitored :=
  ((newDevList true).add pcDevId batteryInfo).map fun r =>
    ⟨⟨{ r.1 with ucInitFlag := false }, fun _ => 0⟩, fun _ => 0⟩

/-- The device goes online with its first attribute, and stays so with the second value of it. -/
theorem online_follows_sample :
    ∃ m, readBack ⟨['A'], by decide⟩ = some m ∧ Run.Along Monitored.step Follows m
      [.attrAdd ⟨['A'], by decide⟩ ⟨⟨['k'], by decide⟩, ⟨['1'], by decide⟩⟩ 100,
        .attrAdd ⟨['A'], by decide⟩ ⟨⟨['k'], by decide⟩, ⟨['2'], by decide⟩⟩ 200, .exec 5500] := by
  refine ⟨_, rfl, (online_follows_iff (fun e he => ?_) rfl rfl).mpr (by decide +kernel)⟩
  obtain rfl := mem_singleton.mp he
  exact some_ne_none _

/-- A new battery powered device is told of as offline when it goes online, and goes offline at
the next pass, for it brings a time stamp of its own. -/
theorem online_not_followed :
    ∃ m os, Run.run Monitored.step ⟨⟨newDevList false, fun _ => 0⟩, fun _ => 0⟩
        [.add ⟨['A'], by decide⟩ batteryInfo 0 20000, .exec 20001] = some (m, os) ∧
      told 0 os = [0, 0] ∧ m.watched.list.ucOnline 0 = 0 ∧
        ¬ Run.Along Monitored.step Follows ⟨⟨newDevList false, fun _ => 0⟩, fun _ => 0⟩
          [.add ⟨['A'], by decide⟩ batteryInfo 0 20000, .exec 20001] := by
  refine ⟨_, _, rfl, by decide +kernel, by decide +kernel, fun h => ?_⟩
  have htold := (h.1 _ _ rfl).1 0 _ rfl rfl
  revert htold
  decide +kernel

end Honyar.Devices
