import Honyar.Sessions.Types

/-!
# The session service: its calls

Opening and closing a session, the connection of a client, and the part of the service loop that
closes the sessions of clients that were lost.  What the system answers is given with a call: the
descriptors it hands out, and whether memory, an event or an object could be had.

A call is `none` where it touches a block that was given back, or a session that was never set.
-/

namespace Honyar.Sessions

/-- What the system answers `session_open`. -/
structure OpenAnswers where
  /-- What `pOpen` returns. -/
  opened : Id
  repeater : Bool
  watched : Bool
  inserted : Bool
  hashed : Bool

/-- What the system answers `_session_client_connect`. -/
structure ConnectAnswers where
  /-- Whether the text of the server can be parsed. -/
  parsed : Bool
  repeater : Bool
  watched : Bool
  /-- Whether a list for the clients can be made. -/
  listed : Bool
  inserted : Bool
  hashed : Bool

/-- `destroy_data_repeater`, if there is one. -/
def destroyDataRepeater (c : SessionConf) : List Effect :=
  if c.pstDataRepeater.isSome then [.destroyDataRepeater c.iSessionId] else []

/-- The repeater of a session is destroyed, and its events are watched no more. -/
def stopped (c : SessionConf) : List Effect :=
  destroyDataRepeater c ++
    if c.iSessionType.info.iSysPollSupport || !c.iSessionType.info.wronly then
      [.delEvent c.iSessionId]
    else []

namespace SessionSer

/-! ## Opening -/

/-- The session `session_open` makes. -/
def openedConf (info : SessionInfo) (iSessionId : Id) (repeater : Bool) : SessionConf where
  iSessionType := info.iSessionType
  iSessionId := iSessionId
  acSessionAddr := info.acSessionAddr
  iActiveFlag := true
  iDataTimeOut := info.iDataTimeOut
  iMaxResendTime := info.iMaxResendTime
  iDataSpacing := info.iDataSpacing
  pstDataRepeater :=
    if info.iSessionType.info.iAsyn && repeater then
      some ⟨info.iDataTimeOut, info.iMaxResendTime⟩
    else none
  pParentSession := none

/-- What `session_open` does about a session when it fails. -/
def openFailed (c : SessionConf) : List Effect :=
  if 0 < c.iSessionId.toInt then stopped c ++ [.closed c.iSessionId, .ret generalErr]
  else destroyDataRepeater c ++ [.ret generalErr]

/-- `session_open`. -/
def sessionOpen (s : SessionSer) (pSessionInfo : SessionInfo) (os : OpenAnswers) :
    Option (SessionSer × List Effect) := do
  let iSessionId := os.opened
  if iSessionId.toInt < 0 then
    return (s, openFailed
      { openedConf pSessionInfo 0 os.repeater with iActiveFlag := false })
  let stSession := openedConf pSessionInfo iSessionId os.repeater
  let info := stSession.iSessionType.info
  let watch := info.iSysPollSupport && !info.wronly
  if watch && !(0 < iSessionId.toInt && os.watched) then
    return (s, .opened iSessionId :: openFailed stSession)
  let fx := .opened iSessionId :: if watch then [.initEvent iSessionId] else []
  if !os.inserted then return (s, fx ++ openFailed stSession)
  let l ← s.stLinkList.tailInsert ⟨stSession, none⟩
  let s := { s with stLinkList := l }
  match ← l.find fun c => c.conf.iSessionId = iSessionId with
  | none => return (s, fx ++ openFailed stSession)
  | some pstSession =>
    if !os.hashed then return (s, fx ++ openFailed stSession)
    return ({ s with
      pstSessionHash := s.pstSessionHash.inst (key iSessionId) (.session pstSession) },
      fx ++ [.ret iSessionId.toInt])

/-! ## Connections -/

/-- The session `_session_client_connect` makes. -/
def clientConf (iSessionId : Id) (acAddr : CText) (pstServerSession : Nat) (repeater : Bool) :
    SessionConf where
  iSessionType := .tcpClient
  iSessionId := iSessionId
  acSessionAddr := acAddr
  iActiveFlag := true
  iDataTimeOut := 200
  iMaxResendTime := 3
  iDataSpacing := 10
  pstDataRepeater := if repeater then some ⟨200, 3⟩ else none
  pParentSession := some pstServerSession

/-- `_session_client_connect_end` when it fails. -/
def connectFailed (c : SessionConf) : List Effect :=
  .baseClose c.iSessionId :: destroyDataRepeater c

/-- `_session_client_connect`.  Whatever comes of it, it returns 0. -/
def sessionClientConnect (s : SessionSer) (pstServerSession : Nat) (iSessionId : Id)
    (acAddr : CText) (os : ConnectAnswers) : Option (SessionSer × List Effect) := do
  -- The end looks for a repeater in a session that was never set.
  if !os.parsed then none
  let stSession := clientConf iSessionId acAddr pstServerSession os.repeater
  if !(0 < iSessionId.toInt && os.watched) then return (s, connectFailed stSession)
  let fx := [Effect.initEvent iSessionId]
  let failed := fx ++ .delEvent iSessionId :: connectFailed stSession
  let pstClientList ← s.clientList pstServerSession
  if pstClientList.isNone && !os.listed then return (s, failed)
  let l := pstClientList.getD .empty
  let s ← s.setSession pstServerSession fun c => { c with pstClientList := some l }
  if !os.inserted then return (s, failed)
  let l ← l.tailInsert stSession
  let s ← s.setSession pstServerSession fun c => { c with pstClientList := some l }
  match ← l.find fun c => c.iSessionId = iSessionId with
  | none => return (s, failed)
  | some pstFindSession =>
    if !os.hashed then
      let l ← l.del pstFindSession
      let s ← s.setSession pstServerSession fun c => { c with pstClientList := some l }
      return (s, failed)
    return ({ s with pstSessionHash :=
      s.pstSessionHash.inst (key iSessionId) (.client pstServerSession pstFindSession) }, fx)

/-- The service loop on a connection to the session of a server: the client is announced to it. -/
def acceptClient (s : SessionSer) (iFd iSessionId : Id) (acAddr : CText) (os : ConnectAnswers) :
    Option (SessionSer × List Effect) :=
  match s.sessionFind iFd with
  | none => some (s, [])
  | some pstSession => do
    let c ← s.conf pstSession
    if c.iSessionType ≠ .tcpServer then return (s, [])
    match pstSession with
    | .client _ _ => none
    | .session p =>
      let (s, fx) ← s.sessionClientConnect p iSessionId acAddr os
      return (s, fx ++ [.report c.iSessionId .connect acAddr iSessionId])

/-! ## Closing -/

/-- The server session of a client is told that it disconnects. -/
def disconnect (s : SessionSer) (c : SessionConf) : Option (List Effect) :=
  match c.pParentSession with
  | none => some []
  | some p => do
    let server ← s.session p
    return [.report server.conf.iSessionId .disconnect c.acSessionAddr c.iSessionId]

/-- The loop over the clients of the session in `p`, from a block on. -/
def closeFrom (close : SessionSer → Id → Option (SessionSer × List Effect)) (p : Nat) :
    Nat → Option Nat → SessionSer → Option (SessionSer × List Effect)
  | _, none, s => some (s, [])
  | 0, some _, _ => none
  | n + 1, some q, s => do
    let c ← s.client p q
    let (s, fx) ← close s c.iSessionId
    let l ← (← s.session p).pstClientList
    let next ← l.next (some q)
    let (s, fx') ← closeFrom close p n next s
    return (s, fx ++ fx')

/-- The clients of a session are closed, and their list is destroyed. -/
def closeClients (close : SessionSer → Id → Option (SessionSer × List Effect)) (s : SessionSer) :
    Place → Option (SessionSer × List Effect)
  | .client _ _ => some (s, [])
  | .session p => do
    match ← s.clientList p with
    | none => return (s, [])
    | some l => do
      let (s, fx) ← closeFrom close p l.fresh (← l.next none) s
      let l ← (← (← s.session p).pstClientList).clear
      return (← s.setSession p fun c => { c with pstClientList := some l }, fx)

/-- A block is taken out of the list that its parent says; from another list it cannot be. -/
def delNode (s : SessionSer) (pParentSession : Option Nat) (pstSession : Place) :
    Option SessionSer :=
  match pParentSession, pstSession with
  | none, .session p => do return { s with stLinkList := ← s.stLinkList.del p }
  | some p, .client p' q => do
    if p' ≠ p then none
    else
      let l ← (← (← s.session p).pstClientList).del q
      s.setSession p fun c => { c with pstClientList := some l }
  | _, _ => none

/-- `session_close`, with what it calls for the clients.  `created` says whether an object for the
message about a session can be had. -/
def closeWith (close : SessionSer → Id → Option (SessionSer × List Effect)) (created : Id → Bool)
    (s : SessionSer) (iSessionId : Id) : Option (SessionSer × List Effect) :=
  if iSessionId.toInt ≤ 0 then some (s, [.ret paraErr])
  else
    match s.sessionFind iSessionId with
    | none => some (s, [.ret generalErr])
    | some pstSession => do
      let c ← s.conf pstSession
      if c.pParentSession.isSome && !created c.iSessionId then return (s, [.ret generalErr])
      let told ← s.disconnect c
      let (s, fx) ← s.closeClients close pstSession
      let c' ← s.conf pstSession
      let s := { s with pstSessionHash := s.pstSessionHash.del (key iSessionId) }
      let s ← s.delNode c'.pParentSession pstSession
      return (s, told ++ stopped c ++ fx ++ [.closed c'.iSessionId, .ret noErr])

/-- `session_close` of a client, which has none of its own. -/
def closeClient (created : Id → Bool) : SessionSer → Id → Option (SessionSer × List Effect) :=
  closeWith (fun _ _ => none) created

/-- `session_close`. -/
def sessionClose (created : Id → Bool) : SessionSer → Id → Option (SessionSer × List Effect) :=
  closeWith (closeClient created) created

/-! ## The service loop -/

/-- The client that was noted is closed. -/
def closeNoted (created : Id → Bool) (s : SessionSer) (p : Nat) :
    Option Nat → Option (SessionSer × List Effect)
  | none => some (s, [])
  | some q => do s.sessionClose created (← s.client p q).iSessionId

/-- The loop over the clients of the session in `p`, from a block on.  One that is not active is
noted, and closed once the next one was found. -/
def sweepClients (created : Id → Bool) (p : Nat) :
    Nat → Option Nat → Option Nat → SessionSer → Option (SessionSer × List Effect)
  | _, none, pstCloseSession, s => s.closeNoted created p pstCloseSession
  | 0, some _, _, _ => none
  | n + 1, some q, pstCloseSession, s => do
    let (s, fx) ← s.closeNoted created p pstCloseSession
    let c ← s.client p q
    let l ← (← s.session p).pstClientList
    let next ← l.next (some q)
    let (s, fx') ← sweepClients created p n next (if c.iActiveFlag then none else some q) s
    return (s, fx ++ fx')

/-- The loop over the sessions of the service, from a block on. -/
def sweepFrom (created : Id → Bool) :
    Nat → Option Nat → SessionSer → Option (SessionSer × List Effect)
  | _, none, s => some (s, [])
  | 0, some _, _ => none
  | n + 1, some p, s => do
    let (s, fx) ← match ← s.clientList p with
      | none => some (s, [])
      | some l => sweepClients created p l.fresh (← l.next none) none s
    let next ← s.stLinkList.next (some p)
    let (s, fx') ← sweepFrom created n next s
    return (s, fx ++ fx')

/-- The service loop closes the clients that are not active. -/
def sweep (created : Id → Bool) (s : SessionSer) : Option (SessionSer × List Effect) := do
  sweepFrom created s.stLinkList.fresh (← s.stLinkList.next none) s

/-- The service loop notes that nothing can be read from a session or written to it any more. -/
def lose (s : SessionSer) (iSessionId : Id) : Option SessionSer :=
  match s.sessionFind iSessionId with
  | none => some s
  | some (.session p) =>
    s.setSession p fun c => { c with conf := { c.conf with iActiveFlag := false } }
  | some (.client p q) => do
    let l ← (← (← s.session p).pstClientList).modify q fun c => { c with iActiveFlag := false }
    s.setSession p fun c => { c with pstClientList := some l }

end SessionSer

/-! ## The machine -/

inductive Action where
  | open (pSessionInfo : SessionInfo) (os : OpenAnswers)
  | close (created : Id → Bool) (iSessionId : Id)
  | connect (iFd iSessionId : Id) (acAddr : CText) (os : ConnectAnswers)
  | lose (iSessionId : Id)
  | sweep (created : Id → Bool)

def step (s : SessionSer) : Action → Option (SessionSer × List Effect)
  | .open pSessionInfo os => s.sessionOpen pSessionInfo os
  | .close created iSessionId => s.sessionClose created iSessionId
  | .connect iFd iSessionId acAddr os => s.acceptClient iFd iSessionId acAddr os
  | .lose iSessionId => (s.lose iSessionId).map (·, [])
  | .sweep created => s.sweep created

end Honyar.Sessions
