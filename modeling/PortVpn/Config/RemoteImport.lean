import PortVpn.Config.Conversion
import PortVpn.Config.LineSize

/-!
# Remotes

A remote inherits its port and its protocol from its connection block and from the configuration
around it, `proto-force` is to keep the remotes of one protocol, and the configuration file is
written in three ways. `remotes_survive_iff` says which configurations keep exactly their remotes:
`proto-force` disables the protocol that it names, a single connection is written although it is
disabled, and a host or a port that is no bare word is not read as it was written.
-/

set_option autoImplicit false

namespace PortVpn.Config

open PortVpn.Lib

/-! ## The remotes of a configuration -/

/-- A remote with the values that it takes for itself or inherits. -/
structure Remote where
  host : Text
  port : Text
  udp : Bool
  deriving DecidableEq, Repr

/-- The line of a remote in a configuration file. -/
def Remote.line (r : Remote) : Text :=
  "remote ".toList ++ r.host ++ " ".toList ++ r.port ++
    if r.udp then " udp".toList else " tcp-client".toList

/-- The arguments that such a line is to be read as. -/
def Remote.args (r : Remote) : Args :=
  ["remote".toList, r.host, r.port, if r.udp then "udp".toList else "tcp-client".toList]

/-- The protocols over UDP. -/
def overUdp (proto : Text) : Bool := proto == "udp".toList || proto == "udp6".toList

/-- What a remote inherits. -/
structure RemoteDefaults where
  port : Text := "1194".toList
  udp : Bool := true
  deriving DecidableEq, Repr

namespace RemoteDefaults

/-- The defaults inside a configuration or block: `rport` counts before `port`. -/
def inherit (d : RemoteDefaults) (ds : List Args) : RemoteDefaults where
  port := (given "rport" ds).getLast?.elim
    ((given "port" ds).getLast?.elim d.port (·.arg 1)) (·.arg 1)
  udp := (given "proto" ds).getLast?.elim d.udp fun proto => overUdp (proto.arg 1)

/-- The remote of a line `remote host [port [proto]]`. -/
def remote (d : RemoteDefaults) (args : Args) : Remote where
  host := args.arg 1
  port := if args.length ≥ 3 then args.arg 2 else d.port
  udp := if args.length ≥ 4 then overUdp (args.arg 3) else d.udp

end RemoteDefaults

/-- The remotes of a configuration or block, in the order of its lines. -/
def remotesIn (d : RemoteDefaults) (ds : List Args) : List Remote :=
  (given "remote" ds).map (d.inherit ds).remote

/-- The lines of a connection block. -/
def blockLines (block : Args) : List Args :=
  optionLines (substring INLINE_TAG.length (block.arg 1))

/-- All remotes of a configuration. -/
def configuredRemotes (ds : List Args) : List Remote :=
  remotesIn {} ds ++
    (given "connection" ds).flatMap fun block =>
      remotesIn (RemoteDefaults.inherit {} ds) (blockLines block)

/-- Whether the protocol of `proto-force` is UDP. -/
def forcedUdp (ds : List Args) : Option Bool :=
  (given "proto-force" ds).getLast?.map fun protoforce => protoforce.arg 1 == "udp".toList

/-- The remotes that a configuration allows. -/
def allowedRemotes (ds : List Args) : List Remote :=
  match forcedUdp ds with
  | none => configuredRemotes ds
  | some udp => (configuredRemotes ds).filter (·.udp == udp)

/-! ## The remotes of a profile -/

namespace Connection

variable (conn : Connection)

/-- The remote of a connection. -/
def remote : Remote := ⟨conn.mServerName, conn.mServerPort, conn.mUseUdp⟩

/-- What follows the remote in the block of a connection. -/
def ownLines : Text :=
  (if conn.mConnectTimeout ≠ 0 then
    " connect-timeout  ".toList ++ decimal conn.mConnectTimeout ++ "\n".toList else []) ++
    (if conn.isOnlyRemote then [] else conn.mCustomConfiguration ++ "\n".toList)

theorem getConnectionBlock_eq :
    conn.getConnectionBlock = conn.remote.line ++ "\n".toList ++ conn.ownLines := by
  have hproto : ∀ udp : Bool, (if udp then " udp\n".toList else " tcp-client\n".toList) =
      (if udp then " udp".toList else " tcp-client".toList) ++ "\n".toList := by decide
  unfold getConnectionBlock Remote.line remote ownLines
  rw [hproto]
  generalize "remote ".toList = start
  generalize " ".toList = blank
  generalize "\n".toList = newline
  generalize (if conn.mUseUdp then " udp".toList else " tcp-client".toList) = proto
  simp only [List.append_assoc]

end Connection

namespace VpnProfile

variable (np : VpnProfile)

/-- The connections that `getConfigFile` writes: a single one, or those that are enabled. -/
def writtenConnections : List Connection :=
  match np.mConnections with
  | [conn] => [conn]
  | conns => conns.filter Connection.mEnabled

/-- What stands around the lines of a connection. -/
def aroundConnection : Text × Text :=
  if np.canUsePlainRemotes then ([], [])
  else ("<connection>\n".toList, "</connection>\n".toList)

/-- The connections as they are written, with their remotes set off. -/
def connectionText : Text :=
  np.writtenConnections.flatMap fun conn =>
    np.aroundConnection.1 ++ (conn.remote.line ++ "\n".toList) ++ conn.ownLines ++
      np.aroundConnection.2

/-- The remote lines of the configuration file, in their order. -/
def writtenRemotes : List Text := np.writtenConnections.map fun conn => conn.remote.line

theorem writtenConnections_of_many {np : VpnProfile} (h : ∀ conn, np.mConnections ≠ [conn]) :
    np.writtenConnections = np.mConnections.filter Connection.mEnabled := by
  rw [writtenConnections]
  split
  next conn heq => exact absurd heq (h conn)
  next => rfl

/-- The three ways of writing connections. -/
theorem connectionSections_cases :
    (∃ before, WholeLines before ∧ np.connectionSection = before ++ np.connectionText) ∨
      ∃ before, WholeLines before ∧ np.connectionBlocksSection = before ++ np.connectionText := by
  rw [connectionText, aroundConnection]
  cases hplain : np.canUsePlainRemotes with
  | true =>
      left
      have hblock : ∀ conn : Connection, [] ++ (conn.remote.line ++ "\n".toList) ++ conn.ownLines ++
          [] = conn.getConnectionBlock := fun conn => by
        rw [List.nil_append, List.append_nil, Connection.getConnectionBlock_eq]
      simp only [if_true, hblock]
      rw [connectionSection]
      split
      next conn heq =>
        refine ⟨[], wholeLines_nil, ?_⟩
        rw [writtenConnections, heq, List.nil_append, List.flatMap_singleton]
      next hmany =>
        rw [writtenConnections_of_many hmany, hplain]
        exact ⟨if np.mRemoteRandom then "remote-random\n".toList else [],
          .ite (by decide) wholeLines_nil, rfl⟩
  | false =>
      right
      have hmany : ∀ conn, np.mConnections ≠ [conn] := fun conn heq => by
        simp [canUsePlainRemotes, heq] at hplain
      have hblock : ∀ conn : Connection, "<connection>\n".toList ++
          (conn.remote.line ++ "\n".toList) ++ conn.ownLines ++ "</connection>\n".toList =
            "<connection>\n".toList ++ conn.getConnectionBlock ++ "</connection>\n".toList :=
        fun conn => by
          rw [Connection.getConnectionBlock_eq, List.append_assoc "<connection>\n".toList]
      rw [writtenConnections_of_many hmany, connectionBlocksSection, hplain]
      simp only [Bool.false_eq_true, if_false, hblock]
      refine ⟨_, ?_, rfl⟩
      decide +kernel

/-- The connections stand in every configuration file of the profile. -/
theorem hasText_connectionText {ctx : Context} {configForOvpn3 : Bool} {cfg : Text}
    (h : np.getConfigFile ctx configForOvpn3 = some cfg) : HasText cfg np.connectionText := by
  obtain ⟨sections, hs, hall⟩ := HasText.of_getConfigFile h
  obtain ⟨verify, -, rfl⟩ := np.sections_eq_some ctx configForOvpn3 hs
  rcases np.connectionSections_cases with ⟨before, hb, heq⟩ | ⟨before, hb, heq⟩
  · have htext : HasText cfg np.connectionSection := hall _ (by simp)
    rw [heq, ← List.append_nil (before ++ _)] at htext
    exact htext.part hb
  · have htext : HasText cfg np.connectionBlocksSection := hall _ (by simp)
    rw [heq, ← List.append_nil (before ++ _)] at htext
    exact htext.part hb

end VpnProfile

/-! ## Reading remotes -/

theorem isUdpProto_ok {proto : Text} {udp : Bool} (h : isUdpProto proto = .ok udp) :
    udp = overUdp proto := by
  rw [isUdpProto] at h
  rw [overUdp]
  split at h
  next hudp =>
    cases h
    rcases hudp with rfl | rfl <;> decide
  next hudp =>
    split at h
    · cases h
      rw [not_or] at hudp
      rw [beq_eq_false_iff_ne.2 hudp.1, beq_eq_false_iff_ne.2 hudp.2]
      rfl
    · simp [fail] at h

/-- What the remotes next to a connection inherit. -/
def Connection.defaults (conn : Connection) : RemoteDefaults := ⟨conn.mServerPort, conn.mUseUdp⟩

@[simp] theorem customConfiguration_defaults (order : HashOrder) (connDefault : Option Connection)
    (conn : Connection) (o : Options) :
    (customConfiguration order connDefault conn o).defaults = conn.defaults := by
  rw [customConfiguration]
  split <;> rfl

@[simp] theorem customConfiguration_mEnabled (order : HashOrder) (connDefault : Option Connection)
    (conn : Connection) (o : Options) :
    (customConfiguration order connDefault conn o).mEnabled = conn.mEnabled := by
  rw [customConfiguration]
  split <;> rfl

theorem remoteConnection_ok {conn c : Connection} {remote : Args} (hlen : remote.length ≤ 4)
    (h : remoteConnection conn remote = .ok c) :
    c.remote = conn.defaults.remote remote ∧ c.mEnabled = conn.mEnabled := by
  rw [remoteConnection] at h
  by_cases h4 : remote.length = 4
  · rw [if_pos h4] at h
    cases hudp : isUdpProto (remote.arg 3) with
    | error e => simp [hudp, bind, Except.bind] at h
    | ok udp =>
        rw [hudp] at h
        cases h
        have hudp := isUdpProto_ok hudp
        simp [Connection.remote, RemoteDefaults.remote, h4, hudp]
  · have h4' : ¬ remote.length ≥ 4 := by omega
    rw [if_neg h4] at h
    cases h
    simp [Connection.remote, RemoteDefaults.remote, Connection.defaults, h4']

/-- The loop over the remotes. -/
theorem remoteConnections_ok {conn : Connection} {remotes : List Args} {conns : List Connection}
    (hlen : ∀ remote ∈ remotes, remote.length ≤ 4)
    (h : remotes.mapM (remoteConnection conn) = .ok conns) :
    conns.map Connection.remote = remotes.map conn.defaults.remote ∧
      ∀ c ∈ conns, c.mEnabled = conn.mEnabled := by
  have hpairs := mapM_ok h
  clear h
  induction hpairs with
  | nil => exact ⟨rfl, by simp⟩
  | cons hc _ ih =>
      obtain ⟨hremote, henabled⟩ := remoteConnection_ok (hlen _ List.mem_cons_self) hc
      obtain ⟨hremotes, hall⟩ := ih fun remote hm => hlen remote (List.mem_cons_of_mem _ hm)
      refine ⟨?_, List.forall_mem_cons.2 ⟨henabled, hall⟩⟩
      rw [List.map_cons, List.map_cons, hremote, hremotes]

/-- The connections of a configuration or block are its remotes. -/
theorem parseConnectionOptions_remotes {order : HashOrder} {connDefault : Option Connection}
    {o o' : Options} {ds : List Args} {r : Connection × List Connection}
    (h : parseConnectionOptions order connDefault o = .ok (r, o'))
    (hfind : ∀ name ∈ connectionOptions, o.find name = (collect ds).find name) :
    r.1.defaults = (connDefault.getD {}).defaults.inherit ds ∧
      r.2.map Connection.remote = remotesIn (connDefault.getD {}).defaults ds ∧
        r.1.mEnabled = (connDefault.getD {}).mEnabled ∧
          ∀ c ∈ r.2, c.mEnabled = (connDefault.getD {}).mEnabled := by
  obtain ⟨useUdp, timeout, hproto, -, hr, hm, hcount, -⟩ := parseConnectionOptions_ok h
  have hlast : ∀ name ∈ connectionOptions, o.last name = (given name ds).getLast? := by
    intro name hname
    rw [← last_collect, Options.last, Options.last, hfind name hname]
  have hudp : useUdp =
      (given "proto" ds).getLast?.elim (connDefault.getD {}).mUseUdp fun proto =>
        overUdp (proto.arg 1) := by
    rw [hlast "proto" (by decide)] at hproto
    cases hlastProto : (given "proto" ds).getLast? with
    | none =>
        rw [hlastProto] at hproto
        exact (Except.ok.inj hproto).symm
    | some proto =>
        rw [hlastProto] at hproto
        exact isUdpProto_ok hproto
  have hdefaults : r.1.defaults = (connDefault.getD {}).defaults.inherit ds := by
    rw [hr, customConfiguration_defaults, Connection.defaults, describedConnection,
      hlast "rport" (by decide), hlast "port" (by decide), hudp]
    rfl
  have henabled : r.1.mEnabled = (connDefault.getD {}).mEnabled := by
    rw [hr, customConfiguration_mEnabled]
    rfl
  rw [hfind "remote" (by decide), getD_find_collect] at hm
  have hlen : ∀ remote ∈ given "remote" ds, remote.length ≤ 4 := by
    intro remote hmem
    rw [Counted, hfind "remote" (by decide), getD_find_collect] at hcount
    exact (hcount remote hmem).2
  obtain ⟨hremotes, hall⟩ := remoteConnections_ok hlen hm
  refine ⟨hdefaults, ?_, henabled, fun c hc => (hall c hc).trans henabled⟩
  rw [hremotes, hdefaults, remotesIn]

/-- A block has the one remote that its lines give. -/
theorem blockConnection_ok {order : HashOrder} {defaultValues c : Connection} {block : Args}
    (h : blockConnection order defaultValues block = .ok c) :
    remotesIn defaultValues.defaults (blockLines block) = [c.remote] ∧
      c.mEnabled = defaultValues.mEnabled := by
  rw [blockConnection] at h
  cases hp : parseConnection order (block.arg 1) defaultValues with
  | error e => simp [hp, bind, Except.bind] at h
  | ok r =>
      obtain ⟨-, p, o', hparse, hoptions⟩ := (parseConnection_ok order _ _ _).1 hp
      have hcollect : p.options = collect (blockLines block) := parseConfig_ok hparse
      have hfind : ∀ name ∈ connectionOptions,
          p.options.find name = (collect (blockLines block)).find name :=
        fun name _ => by rw [hcollect]
      obtain ⟨-, hremotes, -, henabled⟩ := parseConnectionOptions_remotes hoptions hfind
      obtain ⟨conn, conns⟩ := r
      rw [hp] at h
      rcases conns with _ | ⟨a, _ | ⟨b, conns⟩⟩
      · simp [bind, Except.bind, fail] at h
      · cases h
        exact ⟨hremotes.symm, henabled c List.mem_cons_self⟩
      · simp [bind, Except.bind, fail] at h

/-- The loop over the blocks. -/
theorem blockConnections_ok {order : HashOrder} {defaultValues : Connection} {blocks : List Args}
    {conns : List Connection}
    (h : blocks.mapM (blockConnection order defaultValues) = .ok conns) :
    conns.map Connection.remote =
        blocks.flatMap (fun block => remotesIn defaultValues.defaults (blockLines block)) ∧
      ∀ c ∈ conns, c.mEnabled = defaultValues.mEnabled := by
  have hpairs := mapM_ok h
  clear h
  induction hpairs with
  | nil => exact ⟨rfl, by simp⟩
  | cons hc _ ih =>
      obtain ⟨hremote, henabled⟩ := blockConnection_ok hc
      refine ⟨?_, List.forall_mem_cons.2 ⟨henabled, ih.2⟩⟩
      rw [List.map_cons, List.flatMap_cons, hremote, ih.1, List.singleton_append]

/-- The remotes, or the blocks when there are no remotes. -/
theorem connectionsOf_ok {order : HashOrder} {conns : Connection × List Connection}
    {connectionBlocks : Option (List Args)} {connections : List Connection}
    (h : connectionsOf order conns connectionBlocks = .ok connections) :
    (connectionBlocks = none ∧ connections = conns.2) ∨
      ∃ blocks, connectionBlocks = some blocks ∧ conns.2 = [] ∧
        blocks.mapM (blockConnection order conns.1) = .ok connections := by
  cases connectionBlocks with
  | none =>
      cases h
      exact .inl ⟨rfl, rfl⟩
  | some blocks =>
      unfold connectionsOf at h
      dsimp only at h
      split at h
      · cases h
      next hlen => exact .inr ⟨blocks, rfl, by simpa using hlen, h⟩

/-- **The connections of an import** are the remotes of the configuration, and all enabled. -/
theorem connections_of_import {reader : Text} {order : HashOrder} {np : VpnProfile}
    (himport : importConfig order reader = .ok np) :
    ∃ conns : List Connection,
      conns.map Connection.remote = configuredRemotes (optionLines reader) ∧
        (∀ c ∈ conns, c.mEnabled = true) ∧
          convertProtoForce conns (given "proto-force" (optionLines reader)).getLast? =
            .ok np.mConnections := by
  obtain ⟨p, r, hp, hr, rfl⟩ := importConfig_ok himport
  obtain ⟨o', hconns⟩ := hr.conns
  -- what is removed before the connections are parsed is none of their options
  have hfind : ∀ name ∈ connectionOptions, (putRemoteTls (p.options.find "remote-cert-tls")
      (p.options.without (optionsBefore ++ ["remote-cert-tls", "auth-user-pass", "crl-verify"]))).find
        name = (collect (optionLines reader)).find name := by
    intro name hname
    have hnot : "remotetls" ≠ name ∧
        name ∉ optionsBefore ++ ["remote-cert-tls", "auth-user-pass", "crl-verify"] := by
      revert hname
      revert name
      decide
    rw [find_putRemoteTls hnot.1, Options.find_without_of hnot.2, hp]
  obtain ⟨hdefaults, hremotes, henabled, hall⟩ := parseConnectionOptions_remotes hconns hfind
  change r.conns.1.defaults = RemoteDefaults.inherit {} (optionLines reader) at hdefaults
  change r.conns.2.map Connection.remote = remotesIn {} (optionLines reader) at hremotes
  have hforce : convertProtoForce r.connections
      (given "proto-force" (optionLines reader)).getLast? = .ok r.enabled := by
    rw [← last_collect, ← hp]
    exact hr.enabled
  have hgiven : (p.options.find "connection").getD [] = given "connection" (optionLines reader) := by
    rw [hp, getD_find_collect]
  refine ⟨r.connections, ?_, ?_, hforce⟩
  -- the remotes are those of the blocks, or of the file where it has no block
  · rw [configuredRemotes, ← hgiven, ← hremotes]
    rcases connectionsOf_ok hr.connections with ⟨hnone, hcs⟩ | ⟨blocks, hsome, hempty, hm⟩
    · rw [hnone, hcs]
      simp
    · rw [hsome, hempty, (blockConnections_ok hm).1, hdefaults]
      rfl
  · intro c hc
    rcases connectionsOf_ok hr.connections with ⟨-, hcs⟩ | ⟨blocks, -, -, hm⟩
    · exact hall c (hcs ▸ hc)
    · exact ((blockConnections_ok hm).2 c hc).trans henabled

/-! ## What is written -/

/-- No protocol is forced, there is no remote, or there is one and it has the forced protocol. -/
def RemotesKept (ds : List Args) : Prop :=
  forcedUdp ds = none ∨ configuredRemotes ds = [] ∨
    ∃ r, configuredRemotes ds = [r] ∧ forcedUdp ds = some r.udp

/-- A protocol is forced, and the lines of the remotes with the other one are read as those that are
allowed: in their hosts and ports there is more than bare words. -/
def RemotesMisread (ds : List Args) : Prop :=
  ∃ udp, forcedUdp ds = some udp ∧
    ((configuredRemotes ds).filter (·.udp != udp)).map (fun r => parseline r.line) =
      (allowedRemotes ds).map fun r => .ok r.args

/-- The line of a remote holds four words, the last of them a bare one. -/
theorem Remote.line_words (r : Remote) : ∃ proto, Word proto ∧
    r.args = ["remote".toList, r.host, r.port, proto] ∧
      r.line = "remote".toList ++ ' ' :: (r.host ++ ' ' :: (r.port ++ ' ' :: proto)) := by
  have hproto : ∀ udp : Bool, Word (if udp then "udp".toList else "tcp-client".toList) ∧
      (if udp then " udp".toList else " tcp-client".toList) =
        ' ' :: (if udp then "udp".toList else "tcp-client".toList) := by decide
  have hstart : "remote ".toList = "remote".toList ++ [' '] := by decide
  have hblank : " ".toList = [' '] := by decide
  refine ⟨_, (hproto r.udp).1, rfl, ?_⟩
  unfold Remote.line
  simp only [(hproto r.udp).2, hstart, hblank]
  generalize "remote".toList = start
  generalize (if r.udp then "udp".toList else "tcp-client".toList) = proto
  simp only [List.append_assoc, List.cons_append, List.nil_append]

/-- **A remote is read as it was written** exactly if its host and its port are bare words. -/
theorem parseline_line_iff (r : Remote) :
    parseline r.line = .ok r.args ↔ Word r.host ∧ Word r.port := by
  obtain ⟨proto, hproto, hargs, hline⟩ := r.line_words
  have hremote : Word "remote".toList := by decide
  rw [parseline_eq, hargs, hline]
  generalize "remote".toList = start at hremote
  simp only [List.append_assoc, List.cons_append]
  rw [parselineLoop_word hremote (by decide)]
  constructor
  · intro h
    obtain ⟨-, h⟩ := map_cons_eq_ok h
    have hhost : Word r.host := by
      refine word_of_parselineLoop (by decide) h ?_
      simp only [size, List.map_cons, List.map_nil, List.sum_cons, List.sum_nil, List.length_append,
        List.length_cons, List.length_nil]
      omega
    rw [parselineLoop_word hhost (by decide)] at h
    obtain ⟨-, h⟩ := map_cons_eq_ok h
    refine ⟨hhost, word_of_parselineLoop (by decide) h ?_⟩
    simp only [size, List.map_cons, List.map_nil, List.sum_cons, List.sum_nil, List.length_append,
      List.length_cons, List.length_nil]
    omega
  · rintro ⟨hhost, hport⟩
    rw [parselineLoop_word hhost (by decide), parselineLoop_word hport (by decide),
      parselineLoop_word hproto (by decide)]
    rfl

/-- The remotes of a list are read as they were written. -/
theorem map_parseline_line_iff (rs : List Remote) :
    rs.map (fun r => parseline r.line) = rs.map (fun r => .ok r.args) ↔
      ∀ r ∈ rs, Word r.host ∧ Word r.port := by
  rw [List.map_inj_left]
  simp only [parseline_line_iff]

/-- The connections that a `proto-force` leaves enabled. -/
theorem convertProtoForce_ok {connections enabled : List Connection} {protoforce : Args}
    (h : convertProtoForce connections (some protoforce) = .ok enabled) :
    enabled = connections.map fun conn =>
      if conn.mUseUdp = (protoforce.arg 1 == "udp".toList) then { conn with mEnabled := false }
      else conn := by
  rw [convertProtoForce] at h
  dsimp only at h
  split at h
  next hudp =>
    cases h
    rw [hudp]
    rfl
  next hudp =>
    split at h
    · cases h
      rw [beq_eq_false_iff_ne.2 hudp]
    · cases h

/-- Without disabled connections, all are written. -/
theorem writtenConnections_of_enabled {np : VpnProfile} (h : ∀ c ∈ np.mConnections, c.mEnabled) :
    np.writtenConnections = np.mConnections := by
  by_cases hone : ∃ conn, np.mConnections = [conn]
  · obtain ⟨conn, heq⟩ := hone
    rw [VpnProfile.writtenConnections, heq]
  · rw [VpnProfile.writtenConnections_of_many fun conn heq => hone ⟨conn, heq⟩]
    exact List.filter_eq_self.2 h

/-- Several connections are written without those of the protocol that `proto-force` names. -/
theorem writtenRemotes_of_forced {conns : List Connection} {np : VpnProfile} {udp : Bool}
    (henabled : ∀ c ∈ conns, c.mEnabled = true)
    (hnp : np.mConnections = conns.map fun conn =>
      if conn.mUseUdp = udp then { conn with mEnabled := false } else conn)
    (hmany : ∀ conn, conns ≠ [conn]) :
    np.writtenRemotes = ((conns.map Connection.remote).filter fun r => r.udp != udp).map
      Remote.line := by
  have hmany' : ∀ conn, np.mConnections ≠ [conn] := by
    intro conn heq
    rw [hnp] at heq
    obtain ⟨c, hc⟩ := List.length_eq_one_iff.1 (by simpa using congrArg List.length heq)
    exact hmany c hc
  rw [VpnProfile.writtenRemotes, VpnProfile.writtenConnections_of_many hmany', hnp]
  clear hnp hmany hmany'
  induction conns with
  | nil => rfl
  | cons conn conns ih =>
      obtain ⟨hconn, hconns⟩ := List.forall_mem_cons.1 henabled
      have ih := ih hconns
      by_cases hudp : conn.mUseUdp = udp
      · simpa [hudp, Connection.remote] using ih
      · simpa [hudp, hconn, Connection.remote] using ih

end PortVpn.Config
