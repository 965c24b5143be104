import PortVpn.Config.Parseline
import PortVpn.Management.ManagementThread
import PortVpn.Service.OpenTun

/-!
# One line of the management interface

`processCommand` takes a line apart and hands its argument to the method for its kind. The methods
index what they have split without a check and change the state of the service, of the thread and of
`VpnStatus` on the way, so a method gives the state it leaves behind also when it throws. The
listeners of `VpnStatus`, the log, and the protection of file descriptors are not modelled.
-/

set_option autoImplicit false

namespace PortVpn.Management

open PortVpn.Lib PortVpn.Service

/-! ## The reported status -/

/-- `VpnStatus.ConnectionStatus`. -/
inductive ConnectionStatus where
  | connected
  | vpnPaused
  | connectingServerReplied
  | connectingNoServerReplyYet
  | noNetwork
  | notConnected
  | start
  | authFailed
  | waitingForUserInput
  | unknownLevel
  deriving DecidableEq, Repr

/-- The string resources that name a state. -/
inductive StateText where
  | noprocess
  | connecting
  | wait
  | auth
  | getConfig
  | assignIp
  | addRoutes
  | connected
  | disconnected
  | reconnecting
  | exiting
  | resolve
  | tcpConnect
  | waitconnectretry
  | nonetwork
  | screenoff
  | userpause
  | authFailed
  | unknownState
  deriving DecidableEq, Repr

/-- The four numbers of `mlastByteCount`. -/
structure ByteCount where
  received : Int := 0
  sent : Int := 0
  diffIn : Int := 0
  diffOut : Int := 0
  deriving DecidableEq, Repr

/-- The last state and the byte counts that `VpnStatus` has been told. -/
structure VpnStatus where
  mLaststate : Text := "NOPROCESS".toList
  mLaststatemsg : Text := []
  mLastStateresid : StateText := .noprocess
  mLastLevel : ConnectionStatus := .notConnected
  mlastByteCount : ByteCount := {}
  deriving DecidableEq, Repr

namespace VpnStatus

def getLocalizedState (state : Text) : StateText :=
  if state = "CONNECTING".toList then .connecting
  else if state = "WAIT".toList then .wait
  else if state = "AUTH".toList then .auth
  else if state = "GET_CONFIG".toList then .getConfig
  else if state = "ASSIGN_IP".toList then .assignIp
  else if state = "ADD_ROUTES".toList then .addRoutes
  else if state = "CONNECTED".toList then .connected
  else if state = "DISCONNECTED".toList then .disconnected
  else if state = "RECONNECTING".toList then .reconnecting
  else if state = "EXITING".toList then .exiting
  else if state = "RESOLVE".toList then .resolve
  else if state = "TCP_CONNECT".toList then .tcpConnect
  else .unknownState

def noreplyet : List Text :=
  ["CONNECTING".toList, "WAIT".toList, "RECONNECTING".toList, "RESOLVE".toList,
    "TCP_CONNECT".toList]

def reply : List Text :=
  ["AUTH".toList, "GET_CONFIG".toList, "ASSIGN_IP".toList, "ADD_ROUTES".toList]

def getLevel (state : Text) : ConnectionStatus :=
  if noreplyet.contains state then .connectingNoServerReplyYet
  else if reply.contains state then .connectingServerReplied
  else if state = "CONNECTED".toList then .connected
  else if state = "DISCONNECTED".toList ∨ state = "EXITING".toList then .notConnected
  else .unknownLevel

/-- A connected process reports `WAIT` and `AUTH` again, which is ignored. -/
def ignores (s : VpnStatus) (state : Text) : Bool :=
  s.mLastLevel == .connected && (state == "WAIT".toList || state == "AUTH".toList)

/-- `updateStateString` with four arguments. -/
def updateStateStringWith (s : VpnStatus) (state msg : Text) (resid : StateText)
    (level : ConnectionStatus) : VpnStatus :=
  if s.ignores state then s
  else { s with
    mLaststate := state
    mLaststatemsg := msg
    mLastStateresid := resid
    mLastLevel := level }

/-- `updateStateString` with two arguments. -/
def updateStateString (s : VpnStatus) (state msg : Text) : VpnStatus :=
  s.updateStateStringWith state msg (getLocalizedState state) (getLevel state)

def updateStatePause (s : VpnStatus) : PauseReason → VpnStatus
  | .noNetwork => s.updateStateStringWith "NONETWORK".toList [] .nonetwork .noNetwork
  | .screenOff => s.updateStateStringWith "SCREENOFF".toList [] .screenoff .vpnPaused
  | .userPause => s.updateStateStringWith "USERPAUSE".toList [] .userpause .vpnPaused

def updateByteCount (s : VpnStatus) (received sent : Int) : VpnStatus :=
  { s with mlastByteCount :=
      { received := received
        sent := sent
        diffIn := max 0 (wrap64 (received - s.mlastByteCount.received))
        diffOut := max 0 (wrap64 (sent - s.mlastByteCount.sent)) } }

end VpnStatus

/-! ## The thread, the service and the status -/

/-- `VpnProfile.mAuthenticationType`, as far as `getPasswordPrivateKey` looks at it. -/
inductive KeyPassword where
  | pkcs12
  | certificates
  | other
  deriving DecidableEq, Repr

/-- The fields of the profile that answer a request for a password. -/
structure Credentials where
  mAuthenticationType : KeyPassword := .other
  mTransientPCKS12PW : Option Text := none
  mTransientPW : Option Text := none
  mPKCS12Password : Option Text := none
  mKeyPassword : Option Text := none
  mUsername : Option Text := none
  mPassword : Option Text := none
  deriving DecidableEq, Repr

namespace Credentials

/-- A transient password is used once. -/
def getPasswordPrivateKey (c : Credentials) : Option Text × Credentials :=
  match c.mTransientPCKS12PW with
  | some pwcopy => (some pwcopy, { c with mTransientPCKS12PW := none })
  | none =>
      match c.mAuthenticationType with
      | .pkcs12 => (c.mPKCS12Password, c)
      | .certificates => (c.mKeyPassword, c)
      | .other => (none, c)

def getPasswordAuth (c : Credentials) : Option Text × Credentials :=
  match c.mTransientPW with
  | some pwcopy => (some pwcopy, { c with mTransientPW := none })
  | none => (c.mPassword, c)

end Credentials

/-- What comes of `VpnProfile.getSignedData`. -/
inductive Signed where
  | signature (signed : Text)
  | null
  | thrown
  deriving DecidableEq, Repr

/-- What comes of the descriptor of the device: it is sent and closed, it is not sent, or it is sent
and cannot be closed. -/
inductive SentFd where
  | closed
  | notSent
  | notClosed
  deriving DecidableEq, Repr

/-- What a line finds outside of the thread: the device and the profile, the answer of
`shouldBeRunning`, the clock, the proxy of the system, the key, what a call of `openTun` meets, and
what comes of the descriptor of the device. -/
structure Surroundings where
  cfg : Setting
  callback : Bool
  now : Int
  detectProxy : Option (Text × Int)
  getSignedData : Text → Signed
  openEnv : OpenEnv
  sendsFd : SentFd

/-- The state that a line may change. `mFDList` counts the received file descriptors. -/
structure Session where
  tun : TunState := {}
  thread : ManagementThread := {}
  status : VpnStatus := {}
  profile : Credentials := {}
  mShuttingDown : Bool := false
  mFDList : Nat := 0
  deriving DecidableEq, Repr

/-- The state after a line, what has been written to the socket, and whether the method threw. -/
structure Processed where
  state : Session
  written : List Text := []
  thrown : Bool := false
  deriving DecidableEq, Repr

namespace Session

/-- `managmentCommand`, for the commands of one method. -/
def managmentCommands (s : Session) (cmds : List Text) : Processed :=
  { state := s, written := if s.thread.mSocket then cmds else [] }

/-- `String.format("needok '%s' %s\n", needed, status)`. -/
def needok (needed status : Text) : Text :=
  "needok '".toList ++ needed ++ "' ".toList ++ status ++ ['\n']

/-! ## Taking an argument apart -/

/-- `String.split` at a character with a limit: at most so many cuts. -/
def splitLimit (sep : Char) : Nat → Text → List Text
  | 0, t => [t]
  | cuts + 1, t =>
      match t.dropWhile (· ≠ sep) with
      | [] => [t]
      | _ :: rest => t.takeWhile (· ≠ sep) :: splitLimit sep cuts rest

/-- The text between the first two quotes and the text behind them. -/
def quoted (t : Text) : Option (Text × Text) :=
  match t.dropWhile (· ≠ '\'') with
  | [] => none
  | _ :: rest =>
      match rest.dropWhile (· ≠ '\'') with
      | [] => none
      | _ :: behind => some (rest.takeWhile (· ≠ '\''), behind)

/-- The command and the argument of a line `>command:argument`. -/
def message (command : Text) : Option (Text × Text) :=
  match command, splitLimit ':' 1 command with
  | '>' :: _, part :: argument :: _ => some (part.drop 1, argument)
  | _, _ => none

example : message ">HOLD:Waiting for hold release:10".toList =
    some ("HOLD".toList, "Waiting for hold release:10".toList) := by decide

/-! ## The kinds of messages -/

/-- An effect of `handleHold` on the status. -/
def reportEffect (status : VpnStatus) : Effect → VpnStatus
  | .connectRetry waittime => status.updateStateStringWith "CONNECTRETRY".toList (decimal waittime)
      .waitconnectretry .connectingNoServerReplyYet
  | .statePause reason => status.updateStatePause reason
  | .write _ => status

/-- `handleHold`, with the wait time read off the argument. -/
def handleHold (env : Surroundings) (s : Session) (argument : Text) : Processed :=
  match (split (· == ':') argument)[1]?.bind parseInt with
  | none => { state := s, thrown := true }
  | some waittime =>
      let r := s.thread.handleHold env.callback waittime env.now
      { state := { s with thread := r.1, status := r.2.foldl reportEffect s.status } }

/-- The answer to a request for the password `needed`: the password, if it is known. -/
def passwordCmd (needed : Text) (pw : Option Text) : List Text :=
  pw.toList.map fun pw =>
    "password '".toList ++ needed ++ "' ".toList ++ Config.openVpnEscape pw ++ ['\n']

/-- The user name, which precedes the password `Auth`. -/
def usernameCmd (s : Session) (needed : Text) : Text :=
  "username '".toList ++ needed ++ "' ".toList ++
    ((s.profile.mUsername.map Config.openVpnEscape).getD "null".toList) ++ ['\n']

/-- `processPWCommand`. A missing quote is logged. -/
def processPWCommand (s : Session) (argument : Text) : Processed :=
  match quoted argument with
  | none => { state := s }
  | some (needed, args) =>
      -- the password that failed is named in the state
      if "Verification Failed".toList.isPrefixOf argument then
        let status := s.status.updateStateStringWith "AUTH_FAILED".toList (needed ++ args)
          .authFailed .authFailed
        { state := { s with status := status } }
      else if needed = "Private Key".toList then
        let r := s.profile.getPasswordPrivateKey
        managmentCommands { s with profile := r.2 } (passwordCmd needed r.1)
      else if needed = "Auth".toList then
        let r := s.profile.getPasswordAuth
        managmentCommands { s with profile := r.2 } (s.usernameCmd needed :: passwordCmd needed r.1)
      else { state := s }

/-- `processByteCount`. -/
def processByteCount (s : Session) (argument : Text) : Processed :=
  match splitLimit ',' 1 argument with
  | received :: sent :: _ =>
      match parseLong received, parseLong sent with
      | some received, some sent =>
          { state := { s with status := s.status.updateByteCount received sent } }
      | _, _ => { state := s, thrown := true }
  | _ => { state := s, thrown := true }

/-- `processState`, unless the thread is shutting down. -/
def processState (s : Session) (argument : Text) : Processed :=
  if s.mShuttingDown then { state := s }
  else
    match splitLimit ',' 2 argument with
    | _ :: currentstate :: msg :: _ =>
        let msg := if msg = ",,".toList then [] else msg
        { state := { s with status := s.status.updateStateString currentstate msg } }
    | _ => { state := s, thrown := true }

/-- `processProxyCMD`. -/
def processProxyCMD (env : Surroundings) (s : Session) (argument : Text) : Processed :=
  let proxyaddr := if (splitLimit ',' 2 argument)[1]? = some "UDP".toList then none
    else env.detectProxy
  match proxyaddr with
  | some (host, port) =>
      s.managmentCommands ["proxy HTTP ".toList ++ host ++ ' ' :: decimal port ++ ['\n']]
  | none => s.managmentCommands ["proxy NONE\n".toList]

/-- `processLogMessage`, without the log. -/
def processLogMessage (s : Session) (argument : Text) : Processed :=
  match splitLimit ',' 3 argument with
  | [_, _, ovpnlevel, _] =>
      if (parseInt ovpnlevel).isSome then { state := s } else { state := s, thrown := true }
  | _ => { state := s, thrown := true }

/-- `processSignCommand`. Without a signature the process is told to stop, and the socket is
closed. -/
def processSignCommand (env : Surroundings) (s : Session) (b64data : Text) : Processed :=
  match env.getSignedData b64data with
  | .thrown => { state := s, thrown := true }
  | .signature signed =>
      s.managmentCommands ["rsa-sig\n".toList, signed, "\nEND\n".toList]
  | .null =>
      let c := s.managmentCommands
        ["rsa-sig\n".toList, "\nEND\n".toList, "signal SIGINT\n".toList]
      { c with state := { s with thread := { s.thread with mSocket := false } } }

/-! ## Requests -/

/-- What the process needs. -/
inductive Need where
  | protectFd
  | push (p : Push)
  | persistTunAction
  | openTun (extra : Text)
  deriving DecidableEq, Repr

/-- The cases of `processNeedCommand`. -/
def needOf (needed extra : Text) : Option Need :=
  if needed = "PROTECTFD".toList then some .protectFd
  else if needed = "DNSSERVER".toList then some (.push (.dnsserver extra))
  else if needed = "DNSDOMAIN".toList then some (.push (.dnsdomain extra))
  else if needed = "ROUTE".toList then some (.push (.route extra))
  else if needed = "ROUTE6".toList then some (.push (.route6 extra))
  else if needed = "IFCONFIG".toList then some (.push (.ifconfig extra))
  else if needed = "IFCONFIG6".toList then some (.push (.ifconfig6 extra))
  else if needed = "PERSIST_TUN_ACTION".toList then some .persistTunAction
  else if needed = "OPENTUN".toList then some (.openTun extra)
  else none

/-- The answers after a device is established. The exception of `close` is caught with those of
sending, so that the request is also cancelled. -/
def sentFdCommands (needed : Text) : SentFd → List Text
  | .closed => [needok needed "ok".toList]
  | .notSent => [needok needed "cancel".toList]
  | .notClosed => [needok needed "ok".toList, needok needed "cancel".toList]

/-- `sendTunFD` and the answer; `none` if the choices for the queues do not last. -/
def sendTunFD (env : Surroundings) (s : Session) (needed extra : Text) : Option Processed :=
  if extra ≠ "tun".toList then
    some (s.managmentCommands [needok needed "cancel".toList])
  else
    (s.tun.openTun env.cfg env.openEnv).map fun o =>
      let s := { s with tun := o.state }
      match o.result with
      | .thrown => { state := s, thrown := true }
      | .null => s.managmentCommands [needok needed "cancel".toList]
      | .established => s.managmentCommands (sentFdCommands needed env.sendsFd)

/-- One request. -/
def processNeed (env : Surroundings) (s : Session) (needed : Text) : Need → Option Processed
  | .protectFd =>
      some (managmentCommands { s with mFDList := s.mFDList - 1 } [needok needed "ok".toList])
  | .push p =>
      let c := s.tun.push env.cfg p
      let s := { s with tun := c.state }
      some (if c.thrown then { state := s, thrown := true }
        else s.managmentCommands [needok needed "ok".toList])
  | .persistTunAction =>
      some (s.managmentCommands [needok needed (s.tun.getTunReopenStatus env.cfg)])
  | .openTun extra => s.sendTunFD env needed extra

/-- The request of an argument: a pair of quotes and a colon are needed. -/
def request (argument : Text) : Option (Text × Text) :=
  match quoted argument, splitLimit ':' 1 argument with
  | some (needed, _), _ :: extra :: _ => some (needed, extra)
  | _, _ => none

/-- `processNeedCommand`. -/
def processNeedCommand (env : Surroundings) (s : Session) (argument : Text) : Option Processed :=
  if argument = [] then some { state := s }
  else
    match request argument with
    | none => some { state := s, thrown := true }
    | some (needed, extra) =>
        match needOf needed extra with
        | none => some { state := s }
        | some need => s.processNeed env needed need

/-! ## Lines -/

/-- The kinds of lines, each with its argument. -/
inductive Line where
  | info
  | password (argument : Text)
  | hold (argument : Text)
  | needOk (argument : Text)
  | bytecount (argument : Text)
  | state (argument : Text)
  | proxy (argument : Text)
  | log (argument : Text)
  | rsaSign (argument : Text)
  | success
  | protectFd
  | unrecognized
  deriving DecidableEq, Repr

/-- The cases of `processCommand`. -/
def lineOf (command : Text) : Line :=
  match message command with
  | some (cmd, argument) =>
      if cmd = "INFO".toList then .info
      else if cmd = "PASSWORD".toList then .password argument
      else if cmd = "HOLD".toList then .hold argument
      else if cmd = "NEED-OK".toList then .needOk argument
      else if cmd = "BYTECOUNT".toList then .bytecount argument
      else if cmd = "STATE".toList then .state argument
      else if cmd = "PROXY".toList then .proxy argument
      else if cmd = "LOG".toList then .log argument
      else if cmd = "RSA_SIGN".toList then .rsaSign argument
      else .unrecognized
  | none =>
      if "SUCCESS:".toList.isPrefixOf command then .success
      else if "PROTECTFD: ".toList.isPrefixOf command then .protectFd
      else .unrecognized

/-- One line. -/
def processLine (env : Surroundings) (s : Session) : Line → Option Processed
  | .info => some { state := s }
  | .password argument => some (s.processPWCommand argument)
  | .hold argument => some (s.handleHold env argument)
  | .needOk argument => s.processNeedCommand env argument
  | .bytecount argument => some (s.processByteCount argument)
  | .state argument => some (s.processState argument)
  | .proxy argument => some (s.processProxyCMD env argument)
  | .log argument => some (s.processLogMessage argument)
  | .rsaSign argument => some (s.processSignCommand env argument)
  | .success => some { state := s }
  | .protectFd => some { state := { s with mFDList := s.mFDList - 1 } }
  | .unrecognized => some { state := s }

/-- `processCommand`; `none` if the choices for the queues of `openTun` do not last. -/
def processCommand (env : Surroundings) (s : Session) (command : Text) : Option Processed :=
  s.processLine env (lineOf command)

end Session

end PortVpn.Management
