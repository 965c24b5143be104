import PortVpn.Config.Composition
import PortVpn.Config.LineReading
import PortVpn.Config.RemoteImport

/-!
# Connections that are written and read again

Connections without options of their own are written as plain remotes, and a timeout is written
behind the remote that it belongs to. To the parser it is an option of the whole file, and the last
one counts for all remotes. So the connections of a profile come back from its configuration file
exactly if they agree on the timeout (`connections_reimport_iff`).
-/

set_option autoImplicit false

namespace PortVpn.Config

open PortVpn.Lib

/-! ## The lines of a connection -/

/-- A connection that has no options of its own, and whose server and port are words. -/
structure Connection.Plain (conn : Connection) : Prop where
  host : Word conn.mServerName
  port : Word conn.mServerPort
  custom : conn.mCustomConfiguration = []
  useCustom : conn.mUseCustomConfig = false
  timeout : -2 ^ 31 ≤ conn.mConnectTimeout ∧ conn.mConnectTimeout ≤ 2 ^ 31 - 1

namespace Connection

/-- The arguments of the line of a timeout. -/
def timeoutArgs (timeout : Int) : Args := ["connect-timeout".toList, decimal timeout]

/-- The argument lists of the lines of a connection. -/
def directives (conn : Connection) : List Args :=
  conn.remote.args ::
    if conn.mConnectTimeout ≠ 0 then [timeoutArgs conn.mConnectTimeout] else []

end Connection

theorem Word.unbroken {w : Text} (h : Word w) : Unbroken w := by
  have hspace : ∀ c ∈ w, space c = false := by
    match w, h with
    | c :: w, ⟨hc, hw⟩ =>
        refine List.forall_mem_cons.2 ⟨?_, fun d hd => (hw d hd).1⟩
        simp only [startsBare, Bool.and_eq_true, Bool.not_eq_true'] at hc
        exact hc.1
  exact ⟨fun hn => absurd (hspace _ hn) (by decide), fun hr => absurd (hspace _ hr) (by decide)⟩

theorem startsBare_of_isDigit {c : Char} (h : c.isDigit) : startsBare c := by
  have hdigit : 48 ≤ c.toNat ∧ c.toNat ≤ 57 := by
    simpa [Char.isDigit, UInt32.le_iff_toNat_le] using h
  have hall : ∀ n < 58, 48 ≤ n → startsBare (Char.ofNat n) := by decide
  rw [← Char.ofNat_toNat c]
  exact hall c.toNat (by omega) hdigit.1

theorem word_decimal (n : Int) : Word (decimal n) := by
  have hall : ∀ c ∈ decimal n, startsBare c := fun c hc => by
    rcases mem_decimal hc with rfl | hc
    · decide
    · exact startsBare_of_isDigit hc
  have hne : decimal n ≠ [] := by
    cases n with
    | ofNat n => exact Nat.toDigits_ne_nil
    | negSucc n => exact List.cons_ne_nil _ _
  obtain ⟨c, t, ht⟩ := List.exists_cons_of_ne_nil hne
  rw [ht] at hall ⊢
  obtain ⟨hc, ht⟩ := List.forall_mem_cons.1 hall
  refine ⟨hc, fun d hd => ?_⟩
  have hbare := ht d hd
  simp only [startsBare, Bool.and_eq_true, Bool.not_eq_true', Bool.or_eq_false_iff,
    beq_eq_false_iff_ne] at hbare
  exact ⟨hbare.1, hbare.2.2⟩

theorem entriesIn_remote {conn : Connection} (h : conn.Plain) :
    EntriesIn (conn.remote.line ++ "\n".toList) [.option conn.remote.args] := by
  obtain ⟨proto, hproto, -, hline⟩ := conn.remote.line_words
  have hstart : Unbroken "remote".toList := by decide
  have hspace : Unbroken [' '] := by decide
  have hmeta : ∀ t : Text, metaStart.isPrefixOf ("remote".toList ++ t) = false := fun _ => rfl
  have hunbroken : Unbroken conn.remote.line := by
    rw [hline]
    exact hstart.append (hspace.append (h.host.unbroken.append (hspace.append
      (h.port.unbroken.append (hspace.append hproto.unbroken)))))
  exact .line hunbroken (hline ▸ hmeta _) ((parseline_line_iff _).2 ⟨h.host, h.port⟩) rfl rfl

/-- The line of a timeout has blanks in front and in between. -/
theorem entriesIn_timeout (timeout : Int) :
    EntriesIn (" connect-timeout  ".toList ++ decimal timeout ++ "\n".toList)
      [.option (Connection.timeoutArgs timeout)] := by
  have hunbroken : Unbroken (" connect-timeout  ".toList ++ decimal timeout) :=
    .append (by decide) (word_decimal timeout).unbroken
  have hparse : parseline (" connect-timeout  ".toList ++ decimal timeout) =
      .ok ["connect-timeout".toList, decimal timeout] := by
    have hstart : " connect-timeout  ".toList = ' ' :: ("connect-timeout".toList ++ [' ', ' ']) :=
      rfl
    rw [parseline_eq, hstart, List.cons_append, List.cons_append, parselineLoop_space (by decide),
      List.append_assoc, List.append_assoc, List.cons_append, parselineLoop_word (by decide) (by decide),
      List.singleton_append, parselineLoop_space (by decide),
      parselineLoop_word (word_decimal timeout) (by decide)]
    rfl
  exact .line hunbroken rfl hparse rfl rfl

theorem entriesIn_getConnectionBlock {conn : Connection} (h : conn.Plain) :
    EntriesIn conn.getConnectionBlock (conn.directives.map .option) := by
  have honly : conn.isOnlyRemote = true := by
    rw [Connection.isOnlyRemote, h.custom]
    rfl
  rw [Connection.getConnectionBlock_eq, Connection.ownLines, honly, if_pos rfl, List.append_nil,
    Connection.directives, List.map_cons]
  apply (entriesIn_remote h).append
  split
  · exact entriesIn_timeout conn.mConnectTimeout
  · exact .nil

/-! ## The configuration file around the connections -/

namespace VpnProfile

variable (np : VpnProfile)

/-- The options that `connectionSection` writes for plain connections. -/
def connectionDirectives : List Args :=
  (if np.mConnections.length ≠ 1 ∧ np.mRemoteRandom then [["remote-random".toList]] else []) ++
    np.writtenConnections.flatMap Connection.directives

theorem entriesIn_connectionSection (h : ∀ conn ∈ np.mConnections, conn.Plain) :
    EntriesIn np.connectionSection (np.connectionDirectives.map .option) := by
  have hblocks : ∀ conns : List Connection, (∀ conn ∈ conns, conn ∈ np.mConnections) →
      EntriesIn (conns.flatMap Connection.getConnectionBlock)
        ((conns.flatMap Connection.directives).map .option) := by
    intro conns hconns
    rw [List.map_flatMap]
    exact .flatMap fun conn hc => entriesIn_getConnectionBlock (h conn (hconns conn hc))
  have hplain : np.canUsePlainRemotes = true := by
    rw [canUsePlainRemotes, Bool.or_eq_true]
    refine .inr (List.all_eq_true.2 fun conn hc => ?_)
    rw [Connection.isOnlyRemote, (h conn hc).custom]
    rfl
  rw [connectionSection, connectionDirectives, List.map_append]
  split
  · rename_i conn heq
    have hwritten : np.writtenConnections = [conn] := by
      rw [writtenConnections, heq]
    have hone : ¬ (np.mConnections.length ≠ 1 ∧ np.mRemoteRandom = true) := by
      rw [heq]
      simp
    rw [if_neg hone, hwritten]
    have hone := hblocks [conn] fun c hc => by rw [heq]; exact hc
    rwa [List.flatMap_singleton] at hone
  · rename_i hmany
    have hlen : np.mConnections.length ≠ 1 := fun hlen => by
      obtain ⟨conn, heq⟩ := List.length_eq_one_iff.1 hlen
      exact hmany conn heq
    rw [writtenConnections_of_many hmany, hplain, if_pos rfl]
    refine .append ?_ (hblocks _ fun conn hc => List.mem_of_mem_filter hc)
    by_cases hrandom : np.mRemoteRandom
    · rw [if_pos hrandom, if_pos ⟨hlen, hrandom⟩]
      have hline : "remote-random\n".toList = "remote-random".toList ++ "\n".toList := rfl
      rw [hline]
      exact .line (by decide) rfl (by decide) rfl rfl
    · rw [if_neg hrandom, if_neg fun hand => hrandom hand.2]
      exact .nil

/-- The configuration file before the connections. -/
def preamble (ctx : Context) (configForOvpn3 : Bool) : Text :=
  managementSection ctx configForOvpn3 ++ np.clientSection ++ np.retrySection

/-- The configuration file behind the connections, with the section for the server's name. -/
def remainder (ctx : Context) (configForOvpn3 : Bool) (verify : Text) : Text :=
  [np.authenticationSection ctx configForOvpn3, np.crlSection, np.tlsAuthSection,
    np.addressSection, np.routeSection, np.dnsSection, np.linkSection, verify,
    np.expectTLSCertSection, np.cipherSection, np.obscureSection ctx, np.customSection,
    np.connectionBlocksSection].flatten

theorem getConfigFile_eq (ctx : Context) (configForOvpn3 : Bool) :
    np.getConfigFile ctx configForOvpn3 = np.verifySection.map fun verify =>
      np.preamble ctx configForOvpn3 ++
        (np.connectionSection ++ np.remainder ctx configForOvpn3 verify) := by
  rw [getConfigFile, sections]
  cases np.verifySection with
  | none => rfl
  | some verify =>
      have hflatten : ∀ (a b c d : Text) (rest : List Text),
          (a :: b :: c :: d :: rest).flatten = a ++ b ++ c ++ (d ++ rest.flatten) := by
        intro a b c d rest
        simp
      exact congrArg some (hflatten _ _ _ _ _)

end VpnProfile

/-- The options that are about connections. -/
def connectionNames : List String :=
  connectionOptions ++ ["connection", "proto-force", "remote-random"]

/-- A text with these entries can be read, and none of its options is about connections. -/
def Silent : Except Thrown (List Entry) → Prop
  | .ok es => ∀ args ∈ directives es, ∀ name ∈ connectionNames, optionname args ≠ name.toList
  | .error _ => False

instance : DecidablePred Silent
  | .ok _ => inferInstanceAs (Decidable (∀ args ∈ _, _))
  | .error _ => inferInstanceAs (Decidable False)

theorem Silent.entries {entries : Except Thrown (List Entry)} (h : Silent entries) :
    ∃ es, entries = .ok es ∧
      ∀ args ∈ directives es, ∀ name ∈ connectionNames, optionname args ≠ name.toList := by
  cases entries with
  | ok es => exact ⟨es, rfl, h⟩
  | error e => exact h.elim

/-! ## Reading the connections back -/

section Given

variable {conns : List Connection}

theorem given_flatMap {α : Type} (name : String) (l : List α) (f : α → List Args) :
    given name (l.flatMap f) = l.flatMap fun x => given name (f x) :=
  List.filter_flatMap

theorem given_remote (conns : List Connection) :
    given "remote" (conns.flatMap Connection.directives) = conns.map (·.remote.args) := by
  rw [given_flatMap, ← List.flatMap_singleton' (conns.map _), List.flatMap_map]
  refine List.flatMap_congr fun conn _ => ?_
  rw [Connection.directives]
  split <;> rfl

theorem given_timeout (conns : List Connection) :
    given "connect-timeout" (conns.flatMap Connection.directives) =
      (conns.filter (·.mConnectTimeout ≠ 0)).map fun conn =>
        Connection.timeoutArgs conn.mConnectTimeout := by
  induction conns with
  | nil => rfl
  | cons conn conns ih =>
      rw [given_flatMap] at ih ⊢
      rw [List.flatMap_cons, ih, Connection.directives, List.filter_cons]
      by_cases h : conn.mConnectTimeout = 0
      · rw [if_neg (not_not_intro h), if_neg (by simpa using h)]
        rfl
      · rw [if_pos h, if_pos (by simpa using h)]
        rfl

theorem given_other {name : String}
    (h : name ∈ ["port", "rport", "proto", "connection", "proto-force", "remote-random"]) :
    given name (conns.flatMap Connection.directives) = [] := by
  rw [given_flatMap, List.flatMap_eq_nil_iff]
  intro conn _
  rw [Connection.directives]
  simp only [List.mem_cons, List.not_mem_nil, or_false] at h
  rcases h with rfl | rfl | rfl | rfl | rfl | rfl <;> split <;> rfl

end Given

/-- The timeout that counts for all remotes: the last one that is written. -/
def lastTimeout (conns : List Connection) : Int :=
  (conns.filter (·.mConnectTimeout ≠ 0)).getLast?.elim 0 Connection.mConnectTimeout

theorem lastTimeout_eq_iff {conns : List Connection} :
    (∀ conn ∈ conns, conn.mConnectTimeout = lastTimeout conns) ↔
      ∀ c ∈ conns, ∀ d ∈ conns, c.mConnectTimeout = d.mConnectTimeout := by
  constructor
  · intro h c hc d hd
    rw [h c hc, h d hd]
  · intro h conn hconn
    rw [lastTimeout]
    cases hlast : (conns.filter (·.mConnectTimeout ≠ 0)).getLast? with
    | none =>
        have hnone := List.filter_eq_nil_iff.1 (List.getLast?_eq_none_iff.1 hlast) conn hconn
        simpa using hnone
    | some last => exact h conn hconn last (List.mem_of_mem_filter (List.mem_of_getLast? hlast))

/-- The connection that comes back from the line of a remote. -/
def Connection.reread (timeout : Int) (conn : Connection) : Connection :=
  { mServerName := conn.mServerName
    mServerPort := conn.mServerPort
    mUseUdp := conn.mUseUdp
    mConnectTimeout := timeout }

theorem remoteConnection_args (d conn : Connection) :
    remoteConnection d conn.remote.args = .ok { d with
      mServerName := conn.mServerName
      mServerPort := conn.mServerPort
      mUseUdp := conn.mUseUdp } := by
  obtain ⟨host, port, udp, _, _, _, _⟩ := conn
  cases udp <;> rfl

theorem given_connectionDirectives (np : VpnProfile) {name : String} (h : name ≠ "remote-random") :
    given name np.connectionDirectives =
      given name (np.writtenConnections.flatMap Connection.directives) := by
  rw [VpnProfile.connectionDirectives, given_append]
  split
  · have hname : (optionname ["remote-random".toList] == name.toList) = false :=
      beq_false_of_ne fun heq => h (String.toList_inj.1 heq.symm)
    rw [given, List.filter_cons_of_neg (by rw [hname]; exact Bool.false_ne_true)]
    rfl
  · rfl

theorem given_random (np : VpnProfile) : (given "remote-random" np.connectionDirectives).isEmpty =
    decide (¬ (np.mConnections.length ≠ 1 ∧ np.mRemoteRandom)) := by
  rw [VpnProfile.connectionDirectives, given_append, given_other (by decide), List.append_nil]
  by_cases h : np.mConnections.length ≠ 1 ∧ np.mRemoteRandom = true
  · rw [if_pos h, decide_eq_false (not_not_intro h)]
    rfl
  · rw [if_neg h, decide_eq_true h]
    rfl

/-- A time that is written can be read. -/
theorem convertConnectTimeout_last {conns : List Connection} (h : ∀ conn ∈ conns, conn.Plain) :
    convertConnectTimeout {} (given "connect-timeout" (conns.flatMap Connection.directives)).getLast? =
      .ok (lastTimeout conns) := by
  rw [given_timeout, List.getLast?_map, lastTimeout]
  cases hlast : (conns.filter (·.mConnectTimeout ≠ 0)).getLast? with
  | none => rfl
  | some last =>
      have hrange := (h last (List.mem_of_mem_filter (List.mem_of_getLast? hlast))).timeout
      have hparse : parseInt (decimal last.mConnectTimeout) = some last.mConnectTimeout :=
        parseSigned_decimal hrange.1 hrange.2
      have harg : (Connection.timeoutArgs last.mConnectTimeout).arg 1 =
          decimal last.mConnectTimeout := rfl
      rw [Option.map_some, convertConnectTimeout, harg, hparse]
      rfl

/-- What an import makes of plain connections, if no other option is about connections. -/
theorem connections_of_directives {reader : Text} {order : HashOrder} {np np' : VpnProfile}
    (hplain : ∀ conn ∈ np.writtenConnections, conn.Plain)
    (hgiven : ∀ name ∈ connectionNames,
      given name (optionLines reader) = given name np.connectionDirectives)
    (himport : importConfig order reader = .ok np') :
    np'.mConnections = np.writtenConnections.map (·.reread (lastTimeout np.writtenConnections)) ∧
      np'.mRemoteRandom = decide (np.mConnections.length ≠ 1 ∧ np.mRemoteRandom) := by
  obtain ⟨p, r, hp, hr, rfl⟩ := importConfig_ok himport
  obtain ⟨o', hconns⟩ := hr.conns
  -- what is removed before the connections are parsed is none of their options
  have hfind : ∀ name ∈ connectionOptions, (putRemoteTls (p.options.find "remote-cert-tls")
      (p.options.without (optionsBefore ++ ["remote-cert-tls", "auth-user-pass", "crl-verify"]))).find
        name = (collect (np.writtenConnections.flatMap Connection.directives)).find name := by
    intro name hname
    have hnot : "remotetls" ≠ name ∧ name ∈ connectionNames ∧ name ≠ "remote-random" ∧
        name ∉ optionsBefore ++ ["remote-cert-tls", "auth-user-pass", "crl-verify"] := by
      revert hname
      revert name
      decide
    rw [find_putRemoteTls hnot.1, Options.find_without_of hnot.2.2.2, hp, find_collect, find_collect,
      hgiven name hnot.2.1, given_connectionDirectives np hnot.2.2.1]
  obtain ⟨useUdp, timeout, hproto, htimeout, hdefaults, hremotes, -, -⟩ :=
    parseConnectionOptions_ok hconns
  have hlast : ∀ name ∈ connectionOptions, (putRemoteTls (p.options.find "remote-cert-tls")
      (p.options.without (optionsBefore ++ ["remote-cert-tls", "auth-user-pass", "crl-verify"]))).last
        name = (given name (np.writtenConnections.flatMap Connection.directives)).getLast? := by
    intro name hname
    rw [Options.last, hfind name hname, ← Options.last, last_collect]
  rw [hlast _ (by decide), given_other (by decide)] at hproto
  rw [hlast _ (by decide), Option.getD_none, convertConnectTimeout_last hplain] at htimeout
  obtain rfl := Except.ok.inj hproto
  obtain rfl := Except.ok.inj htimeout
  rw [hfind _ (by decide), getD_find_collect, given_remote] at hremotes
  -- no default is set but the timeout
  have hconn : r.conns.1 = { mConnectTimeout := lastTimeout np.writtenConnections } := by
    rw [hdefaults, describedConnection, hlast _ (by decide), hlast _ (by decide),
      given_other (by decide), given_other (by decide)]
    rfl
  have hconnections : r.conns.2 =
      np.writtenConnections.map (·.reread (lastTimeout np.writtenConnections)) := by
    have hpairs := mapM_ok hremotes
    rw [List.forall₂_map_left_iff, hconn] at hpairs
    generalize lastTimeout np.writtenConnections = timeout at hpairs ⊢
    generalize np.writtenConnections = written at hpairs ⊢
    generalize r.conns.2 = read at hpairs ⊢
    induction hpairs with
    | nil => rfl
    | cons h _ ih =>
        rw [remoteConnection_args] at h
        rw [List.map_cons, ← ih, ← Except.ok.inj h]
        rfl
  have hnone : ∀ name ∈ ["connection", "proto-force"], p.options.find name = none := by
    intro name hname
    have hmem : name ∈ connectionNames ∧ name ≠ "remote-random" ∧
        name ∈ ["port", "rport", "proto", "connection", "proto-force", "remote-random"] := by
      revert hname
      revert name
      decide
    rw [hp, find_collect, hgiven name hmem.1, given_connectionDirectives np hmem.2.1,
      given_other hmem.2.2, if_pos rfl]
  have hread := hr.connections
  rw [hnone _ (by decide), connectionsOf, hconnections] at hread
  have henabled := hr.enabled
  rw [Options.last, hnone _ (by decide), ← Except.ok.inj hread] at henabled
  refine ⟨(Except.ok.inj henabled).symm, ?_⟩
  have hrandom : (r.profile order p).mRemoteRandom =
      ((p.options.last "remote-random").isSome || false) := rfl
  rw [hrandom, Bool.or_false, hp, last_collect, hgiven _ (by decide)]
  have hempty := given_random np
  cases hlines : given "remote-random" np.connectionDirectives with
  | nil =>
      rw [hlines] at hempty
      exact (decide_eq_false (of_decide_eq_true hempty.symm)).symm
  | cons args rest =>
      rw [hlines] at hempty
      rw [List.getLast?_cons]
      exact (decide_eq_true (not_not.1 (of_decide_eq_false hempty.symm))).symm

theorem given_of_silent {ds : List Args} {name : String}
    (h : ∀ args ∈ ds, ∀ name ∈ connectionNames, optionname args ≠ name.toList)
    (hname : name ∈ connectionNames) : given name ds = [] := by
  rw [given, List.filter_eq_nil_iff]
  intro args hargs heq
  exact h args hargs name hname (beq_iff_eq.1 heq)

theorem directives_options (ds : List Args) : directives (ds.map .option) = ds := by
  rw [directives, List.filterMap_map]
  exact List.filterMap_some

/-- The options of the configuration file that are about connections. -/
theorem given_getConfigFile {np : VpnProfile} {ctx : Context} {configForOvpn3 : Bool}
    {verify cfg : Text} (hplain : ∀ conn ∈ np.mConnections, conn.Plain)
    (hverify : np.verifySection = some verify)
    (hbefore : Silent (entriesOf (np.preamble ctx configForOvpn3)))
    (hbehind : Silent (readEntries (readLines (np.remainder ctx configForOvpn3 verify)).length
      (readLines (np.remainder ctx configForOvpn3 verify))))
    (hcfg : np.getConfigFile ctx configForOvpn3 = some cfg) {name : String}
    (hname : name ∈ connectionNames) :
    given name (optionLines cfg) = given name np.connectionDirectives := by
  obtain ⟨es₁, hes₁, hsilent₁⟩ := hbefore.entries
  obtain ⟨es₂, hes₂, hsilent₂⟩ := hbehind.entries
  have hwhole : WholeLines (np.preamble ctx configForOvpn3) := by
    obtain ⟨sections, hs, -⟩ := Option.map_eq_some_iff.1 hcfg
    have hall := np.wholeLines_of_mem_sections ctx configForOvpn3 hs
    obtain ⟨_, -, rfl⟩ := np.sections_eq_some ctx configForOvpn3 hs
    exact .append (.append (hall _ (by simp)) (hall _ (by simp))) (hall _ (by simp))
  have hne : np.preamble ctx configForOvpn3 ≠ [] := by
    have hhead : (np.preamble ctx configForOvpn3).head? = some '#' := rfl
    intro hnil
    rw [hnil] at hhead
    exact nomatch hhead
  have hsection := np.entriesIn_connectionSection hplain
  rw [np.getConfigFile_eq, hverify] at hcfg
  obtain rfl := Option.some.inj hcfg
  have hentries : entriesOf (np.preamble ctx configForOvpn3 ++
      (np.connectionSection ++ np.remainder ctx configForOvpn3 verify)) =
        .ok (es₁ ++ (np.connectionDirectives.map .option ++ es₂)) := by
    rw [entriesOf_append hwhole hne hes₁, readLines_append hsection.wholeLines, List.length_append,
      readEntries_append (Nat.le_refl _) hsection.read, hes₂]
    rfl
  have hlines : directives (es₁ ++ (np.connectionDirectives.map .option ++ es₂)) =
      directives es₁ ++ (np.connectionDirectives ++ directives es₂) := by
    conv_rhs => rw [← directives_options np.connectionDirectives]
    rw [directives, List.filterMap_append, List.filterMap_append]
    rfl
  rw [optionLines, hentries]
  dsimp only
  rw [hlines, given_append, given_append, given_of_silent hsilent₁ hname,
    given_of_silent hsilent₂ hname, List.append_nil, List.nil_append]

/-- **When the connections come back.** Of the configuration file of a profile with plain
connections, in which no other option is about connections, an import brings back the connections
that have been written, with their servers, ports and protocols in order, and the choice of a random
one among several. It brings them back as they were exactly if they agree on the timeout and all of
them were enabled. -/
theorem connections_reimport_iff {np np' : VpnProfile} {ctx : Context} {configForOvpn3 : Bool}
    {verify cfg : Text} {order : HashOrder} (hplain : ∀ conn ∈ np.mConnections, conn.Plain)
    (hverify : np.verifySection = some verify)
    (hbefore : Silent (entriesOf (np.preamble ctx configForOvpn3)))
    (hbehind : Silent (readEntries (readLines (np.remainder ctx configForOvpn3 verify)).length
      (readLines (np.remainder ctx configForOvpn3 verify))))
    (hcfg : np.getConfigFile ctx configForOvpn3 = some cfg)
    (himport : importConfig order cfg = .ok np') :
    np'.mConnections.map Connection.remote = np.writtenConnections.map Connection.remote ∧
      np'.mRemoteRandom = decide (np.mConnections.length ≠ 1 ∧ np.mRemoteRandom) ∧
      (np'.mConnections = np.writtenConnections ↔
        (∀ c ∈ np.writtenConnections, ∀ d ∈ np.writtenConnections,
          c.mConnectTimeout = d.mConnectTimeout) ∧
        ∀ c ∈ np.writtenConnections, c.mEnabled) := by
  have hwritten : ∀ conn ∈ np.writtenConnections, conn.Plain := by
    intro conn hc
    refine hplain conn ?_
    rw [VpnProfile.writtenConnections] at hc
    split at hc
    · rename_i heq
      rw [heq]
      exact hc
    · exact List.mem_of_mem_filter hc
  obtain ⟨hconns, hrandom⟩ := connections_of_directives hwritten
    (fun _ hname => given_getConfigFile hplain hverify hbefore hbehind hcfg hname) himport
  refine ⟨?_, hrandom, ?_⟩
  · rw [hconns, List.map_map]
    rfl
  · have hsame : np'.mConnections = np.writtenConnections ↔
        ∀ conn ∈ np.writtenConnections, conn.reread (lastTimeout np.writtenConnections) = conn := by
      have hmap := List.map_inj_left (l := np.writtenConnections)
        (f := (·.reread (lastTimeout np.writtenConnections))) (g := id)
      rwa [List.map_id, ← hconns] at hmap
    rw [hsame, ← lastTimeout_eq_iff]
    constructor
    · intro h
      refine ⟨fun conn hc => ?_, fun conn hc => ?_⟩
      · rw [← h conn hc]
        rfl
      · rw [← h conn hc]
        rfl
    · rintro ⟨htimeout, henabled⟩ conn hc
      have hplain := hwritten conn hc
      have htimeout := htimeout conn hc
      have henabled := henabled conn hc
      obtain ⟨host, port, udp, custom, useCustom, enabled, timeout⟩ := conn
      obtain rfl : custom = [] := hplain.custom
      obtain rfl : useCustom = false := hplain.useCustom
      obtain rfl : enabled = true := henabled
      rw [Connection.reread, ← htimeout]

/-- A profile with two servers that have timeouts of their own. -/
def twoTimeouts : VpnProfile :=
  { convertedProfile with
    mAuthenticationType := TYPE_USERPASS
    mUsePull := true
    mCaFilename := some "[[INLINE]]x".toList
    mConnections := [{ mServerName := "a.example".toList, mConnectTimeout := 5 },
      { mServerName := "b.example".toList, mConnectTimeout := 9 }] }

/-- **The first timeout is lost.** -/
theorem connections_reimport_timeouts :
    ∃ cfg np', twoTimeouts.getConfigFile exampleContext false = some cfg ∧
      importConfig insertionOrder cfg = .ok np' ∧
      np'.mConnections ≠ twoTimeouts.writtenConnections := by
  have haccepted : ((twoTimeouts.getConfigFile exampleContext false).map fun cfg =>
      (importConfig insertionOrder cfg).toBool) = some true := by decide +kernel
  obtain ⟨cfg, hcfg, hok⟩ := Option.map_eq_some_iff.1 haccepted
  cases himport : importConfig insertionOrder cfg with
  | error e =>
      rw [himport] at hok
      exact nomatch hok
  | ok np' =>
      refine ⟨cfg, np', hcfg, himport, fun hsame => ?_⟩
      have hplain : ∀ conn ∈ twoTimeouts.mConnections, conn.Plain :=
        List.forall_mem_cons.2 ⟨⟨by decide, by decide, rfl, rfl, by decide⟩,
          List.forall_mem_singleton.2 ⟨by decide, by decide, rfl, rfl, by decide⟩⟩
      have hagree := (connections_reimport_iff hplain rfl (by decide +kernel) (by decide +kernel)
        hcfg himport).2.2.1 hsame
      exact absurd (hagree.1 _ List.mem_cons_self _ (List.mem_cons_of_mem _ List.mem_cons_self))
        (by decide)

end PortVpn.Config
