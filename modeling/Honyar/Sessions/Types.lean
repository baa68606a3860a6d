import Honyar.Base.HashMap
import Honyar.Lib.Decimal
import Honyar.Lib.Listing

/-!
# The session service: its data

Sessions stand in the list of the service, and those of the clients of a server in a list of
that session.  All of them are found through one hash map by their ids, which are descriptors.
-/

namespace Honyar.Sessions

open Honyar.Base (HashMap HashKey hashKey)

/-- `int`, for descriptors. -/
abbrev Id := BitVec 32

def noErr : Int := 0

def generalErr : Int := -1

def paraErr : Int := -251

/-- `session_type_t`, of the types that `_session_type_init` gives functions. -/
inductive SessionType where
  | uart
  | i2c
  | gpio
  | sound
  | tcpServer
  | tcpClient
deriving DecidableEq, Repr

/-- `session_type_info_t`. -/
structure SessionTypeInfo where
  iAsyn : Bool
  iSysPollSupport : Bool
  /-- Whether `iWorkMode` is `SESSION_WORK_MODE_WRONLY`. -/
  wronly : Bool

/-- `g_astSessionTypeInfo`. -/
def SessionType.info : SessionType → SessionTypeInfo
  | .uart => ⟨true, true, false⟩
  | .i2c => ⟨false, false, false⟩
  | .gpio => ⟨true, true, false⟩
  | .sound => ⟨false, false, true⟩
  | .tcpServer => ⟨true, true, false⟩
  | .tcpClient => ⟨true, true, false⟩

/-- `data_repeater_t`, as it is made. -/
structure DataRepeater where
  iDataTimeOut : Int
  iMaxResendTime : Int
deriving DecidableEq, Repr

/-- `session_conf_t`, but for the clients.  The parent is a block of the list of the service. -/
structure SessionConf where
  iSessionType : SessionType
  iSessionId : Id
  acSessionAddr : CText
  iActiveFlag : Bool
  iDataTimeOut : Int
  iMaxResendTime : Int
  iDataSpacing : Int
  pstDataRepeater : Option DataRepeater
  pParentSession : Option Nat
deriving DecidableEq, Repr

/-- A session of the list of the service, with the sessions of its clients.  Only a session of
this list is given clients. -/
structure Session where
  conf : SessionConf
  pstClientList : Option (Listing SessionConf)

/-- The block of a session: in the list of the service, or in that of the clients of one there. -/
inductive Place where
  | session (p : Nat)
  | client (p q : Nat)
deriving DecidableEq, Repr

/-- `session_ser_class_t`. -/
structure SessionSer where
  stLinkList : Listing Session
  pstSessionHash : HashMap Place

/-- `new_session_ser`. -/
def SessionSer.new : SessionSer := ⟨.empty, HashMap.newHashMap 0 true⟩

/-- `session_info_t`. -/
structure SessionInfo where
  iSessionType : SessionType
  acSessionAddr : CText
  iDataTimeOut : Int
  iDataSpacing : Int
  iMaxResendTime : Int

/-- The commands a server session is told. -/
inductive Command where
  | connect
  | disconnect
deriving DecidableEq, Repr

/-- What is done outside the lists and the hash map. -/
inductive Effect where
  /-- `_session_report_original_data` to a session. -/
  | report (iSessionId : Id) (command : Command) (addr : CText) (id : Id)
  /-- The open function of a type gave a descriptor. -/
  | opened (iSessionId : Id)
  /-- The close function of a type. -/
  | closed (iSessionId : Id)
  /-- `base_close`. -/
  | baseClose (iSessionId : Id)
  | initEvent (iEventfd : Id)
  | delEvent (iEventfd : Id)
  | destroyDataRepeater (iSessionId : Id)
  /-- What a call returns. -/
  | ret (iRet : Int)
deriving DecidableEq, Repr

/-! ## Keys -/

/-- The key of a session. -/
def key (iSessionId : Id) : HashKey := hashKey [CText.ofInt iSessionId.toInt]

theorem key_injective : Function.Injective key := by
  have hval (id : Id) : (key id).1 = CText.ofInt id.toInt := by
    have hlt := BitVec.toInt_lt (x := id)
    have hle := BitVec.le_toInt id
    have hlen : (CText.ofInt id.toInt).length ≤ 11 :=
      CText.length_ofInt_le (by decide) (by omega)
    rw [key, Base.hashKey_val]
    · simp
    · simp only [List.flatten_cons, List.flatten_nil, List.append_nil]
      exact hlen.trans_lt (by decide)
  intro id id' h
  have htext : CText.ofInt id.toInt = CText.ofInt id'.toInt := by
    rw [← hval, ← hval, h]
  have hint : id.toInt = id'.toInt := by
    rw [← CText.atoi_ofInt id.toInt, htext, CText.atoi_ofInt]
  exact BitVec.eq_of_toInt_eq hint

namespace SessionSer

/-! ## Blocks

Each of these is `none` when the block was given back. -/

def session (s : SessionSer) (p : Nat) : Option Session := s.stLinkList.data p

def setSession (s : SessionSer) (p : Nat) (f : Session → Session) : Option SessionSer := do
  let l ← s.stLinkList.modify p f
  return { s with stLinkList := l }

/-- The list of the clients of a session, if it has one. -/
def clientList (s : SessionSer) (p : Nat) : Option (Option (Listing SessionConf)) :=
  (s.session p).map Session.pstClientList

def client (s : SessionSer) (p q : Nat) : Option SessionConf := do
  let l ← (← s.session p).pstClientList
  l.data q

def conf (s : SessionSer) : Place → Option SessionConf
  | .session p => (s.session p).map Session.conf
  | .client p q => s.client p q

/-- `_session_find`. -/
def sessionFind (s : SessionSer) (iSessionId : Id) : Option Place :=
  s.pstSessionHash.find (key iSessionId)

end SessionSer

end Honyar.Sessions
