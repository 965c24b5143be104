import PortVpn.Config.Conversion
import PortVpn.Config.LineSize

/-!
# Name servers

The import distributes the servers of the lines `dhcp-option DNS` over two fields, and recognises
the first field as free by the server that it holds by default. The fields are written as they are,
so that a server that is no bare word is read as another one. `dns_survive_iff` says for which lists
of servers the lines written for the fields name what was configured.
-/

set_option autoImplicit false

namespace PortVpn.Config

open PortVpn.Lib

/-- The servers among arguments of `dhcp-option`. -/
def dnsArguments (all : List Args) : List Text :=
  all.filterMap fun args => if args.arg 1 = "DNS".toList then some (args.arg 2) else none

/-- The servers of the lines `dhcp-option DNS`. -/
def dnsServers (ds : List Args) : List Text := dnsArguments (given "dhcp-option" ds)

/-- The line that `getConfigFile` writes for a server. -/
def dnsLine (server : Text) : Text := "dhcp-option DNS ".toList ++ server

/-- The server that such a line names when it is read. -/
def namedServer (line : Text) : Option Text :=
  match parseline line with
  | .ok (_ :: _ :: server :: _) => some server
  | _ => none

/-- The servers that the lines for the fields with name servers name. -/
def namedServers (np : VpnProfile) : List Text := np.dnsLines.filterMap namedServer

/-- Only configured servers are named, and up to two of them are named exactly. -/
def DnsSurvive (servers : List Text) (np : VpnProfile) : Prop :=
  (∀ s ∈ namedServers np, s ∈ servers) ∧
    (servers.length ≤ 2 → namedServers np = servers)

instance (servers : List Text) (np : VpnProfile) : Decidable (DnsSurvive servers np) := by
  rw [DnsSurvive]
  infer_instance

/-- The line of a server names one of the servers, or none. -/
def NamesOneOf (servers : List Text) (server : Text) : Prop :=
  ∀ s ∈ namedServer (dnsLine server), s ∈ servers

/-- The servers that the two fields can hold: two bare words of which the first is not the default;
or more, where the first one before the last that is not the default takes the first field, and the
last takes the second, or is the default of the second. -/
def FieldsHold : List Text → Prop
  | [] => True
  | [_] => False
  | [s, t] => s ≠ DEFAULT_DNS1 ∧ Word s ∧ Word t
  | servers =>
      match servers.dropLast.find? (· ≠ DEFAULT_DNS1) with
      | some s => NamesOneOf servers s ∧ ∀ t ∈ servers.getLast?, NamesOneOf servers t
      | none => servers.getLast? = some DEFAULT_DNS2

/-! ## The loop over the options -/

/-- The two fields after some servers. -/
def assign (dns1 dns2 : Text) : List Text → Text × Text
  | [] => (dns1, dns2)
  | s :: servers =>
      if dns1 = DEFAULT_DNS1 then assign s dns2 servers else assign dns1 s servers

theorem foldl_setDhcpOption (all : List Args) (np : DhcpFields) :
    ((all.foldl setDhcpOption np).mDNS1, (all.foldl setDhcpOption np).mDNS2) =
        assign np.mDNS1 np.mDNS2 (dnsArguments all) ∧
      (all.foldl setDhcpOption np).mOverrideDNS =
        (np.mOverrideDNS || !(dnsArguments all).isEmpty) := by
  induction all generalizing np with
  | nil => simp [assign, dnsArguments]
  | cons args all ih =>
      have h := ih (setDhcpOption np args)
      rw [List.foldl_cons, h.1, h.2, dnsArguments, dnsArguments, List.filterMap_cons,
        setDhcpOption]
      by_cases hdns : args.arg 1 = "DNS".toList
      · have hdomain : args.arg 1 ≠ "DOMAIN".toList := by rw [hdns]; decide
        rw [if_neg hdomain, if_pos hdns, if_pos hdns, assign]
        split <;> simp
      · rw [if_neg hdns, if_neg hdns]
        split <;> simp

/-- A first field that is taken stays, and the last server is in the second. -/
theorem assign_of_ne {dns1 : Text} (h : dns1 ≠ DEFAULT_DNS1) (dns2 : Text) (servers : List Text) :
    assign dns1 dns2 servers = (dns1, servers.getLast?.getD dns2) := by
  induction servers generalizing dns2 with
  | nil => rfl
  | cons s servers ih =>
      rw [assign, if_neg h, ih]
      cases servers with
      | nil => rfl
      | cons t servers => simp [List.getLast?_cons]

/-- Defaults leave the first field free. -/
theorem assign_default {pre : List Text} (h : ∀ s ∈ pre, s = DEFAULT_DNS1) (dns2 : Text)
    (servers : List Text) :
    assign DEFAULT_DNS1 dns2 (pre ++ servers) = assign DEFAULT_DNS1 dns2 servers := by
  induction pre with
  | nil => rfl
  | cons s pre ih =>
      rw [List.cons_append, assign, if_pos rfl, h s List.mem_cons_self,
        ih fun t ht => h t (List.mem_cons_of_mem _ ht)]

/-- The first server before the last that is not the default takes the first field. -/
theorem assign_of_find {dns2 s : Text} {servers : List Text}
    (h : servers.dropLast.find? (· ≠ DEFAULT_DNS1) = some s) :
    assign DEFAULT_DNS1 dns2 servers = (s, servers.getLast?.getD dns2) := by
  induction servers with
  | nil => cases h
  | cons t servers ih =>
      cases servers with
      | nil => cases h
      | cons u servers =>
          rw [List.dropLast_cons_cons] at h
          rw [assign, if_pos rfl, List.getLast?_cons_cons]
          by_cases ht : t = DEFAULT_DNS1
          · subst ht
            rw [List.find?_cons_of_neg (by simp)] at h
            exact ih h
          · rw [List.find?_cons_of_pos (by simpa using ht)] at h
            obtain rfl := Option.some.inj h
            exact assign_of_ne ht dns2 (u :: servers)

/-- Otherwise the last server takes it. -/
theorem assign_of_find_none {dns2 : Text} {servers : List Text} (hne : servers ≠ [])
    (h : servers.dropLast.find? (· ≠ DEFAULT_DNS1) = none) :
    assign DEFAULT_DNS1 dns2 servers = (servers.getLast hne, dns2) := by
  have hall : ∀ s ∈ servers.dropLast, s = DEFAULT_DNS1 := by
    intro s hs
    simpa using List.find?_eq_none.1 h s hs
  conv_lhs => rw [← List.dropLast_append_getLast hne]
  rw [assign_default hall, assign, if_pos rfl, assign]

/-! ## What is named -/

/-- What is read of the line of a server is what is read behind its first two words. -/
theorem parseline_dnsLine (server : Text) : parseline (dnsLine server) =
    (parseline server).map (["dhcp-option".toList, "DNS".toList] ++ ·) := by
  have hline : dnsLine server ++ ['\x00'] =
      "dhcp-option".toList ++ ' ' :: ("DNS".toList ++ ' ' :: (server ++ ['\x00'])) := rfl
  rw [parseline_eq, parseline_eq, hline, parselineLoop_word (by decide) (by decide),
    parselineLoop_word (by decide) (by decide)]
  cases parselineLoop {} (server ++ ['\x00']) <;> rfl

/-- **A server is named by its line** exactly if it is a bare word. -/
theorem namedServer_eq_self_iff (server : Text) :
    namedServer (dnsLine server) = some server ↔ Word server := by
  rw [namedServer, parseline_dnsLine, parseline_eq]
  constructor
  · intro h
    cases hread : parselineLoop {} (server ++ ['\x00']) with
    | error e =>
        rw [hread] at h
        cases h
    | ok words =>
        cases words with
        | nil =>
            rw [hread] at h
            cases h
        | cons word words =>
            rw [hread] at h
            obtain rfl := Option.some.inj h
            exact word_of_parselineLoop (by decide) hread (Nat.zero_le _)
  · intro hword
    rw [parselineLoop_word hword (by decide)]
    rfl

theorem namedServer_default : namedServer (dnsLine DEFAULT_DNS2) = some DEFAULT_DNS2 :=
  (namedServer_eq_self_iff _).2 (by decide)

/-- The servers that the lines of the two fields name. An empty field has no line. -/
def named (fields : Text × Text) : List Text :=
  (namedServer (dnsLine fields.1)).toList ++ (namedServer (dnsLine fields.2)).toList

theorem namedServers_eq {np : VpnProfile} (h : np.mOverrideDNS) :
    namedServers np = named (np.mDNS1, np.mDNS2) := by
  have hline : ∀ server : Text, (if server.isEmpty then [] else [dnsLine server]).filterMap
      namedServer = (namedServer (dnsLine server)).toList := by
    intro server
    cases server with
    | nil => decide
    | cons c server =>
        rw [List.isEmpty_cons, if_neg Bool.false_ne_true]
        cases hnamed : namedServer (dnsLine (c :: server)) with
        | none => rw [List.filterMap_cons_none hnamed]; rfl
        | some s => rw [List.filterMap_cons_some hnamed]; rfl
  rw [namedServers, VpnProfile.dnsLines, if_pos (.inl h), List.filterMap_append]
  exact congrArg₂ List.append (hline np.mDNS1) (hline np.mDNS2)

theorem mem_named {s : Text} {fields : Text × Text} : s ∈ named fields ↔
    namedServer (dnsLine fields.1) = some s ∨ namedServer (dnsLine fields.2) = some s := by
  simp [named]

theorem default_ne : DEFAULT_DNS2 ≠ DEFAULT_DNS1 := by decide

/-- Both fields name what they hold exactly if they hold bare words. -/
theorem named_eq_iff (s t : Text) : named (s, t) = [s, t] ↔ Word s ∧ Word t := by
  rw [← namedServer_eq_self_iff, ← namedServer_eq_self_iff, named]
  cases namedServer (dnsLine s) with
  | none => cases namedServer (dnsLine t) <;> simp
  | some s' => cases namedServer (dnsLine t) <;> simp

/-- One server leaves the default in the second field. -/
theorem named_assign_one (s : Text) : named (assign DEFAULT_DNS1 DEFAULT_DNS2 [s]) ≠ [s] := by
  intro h
  have hassign : assign DEFAULT_DNS1 DEFAULT_DNS2 [s] = (s, DEFAULT_DNS2) := by simp [assign]
  rw [hassign] at h
  have hmem : DEFAULT_DNS2 ∈ named (s, DEFAULT_DNS2) := mem_named.2 (.inr namedServer_default)
  rw [h, List.mem_singleton] at hmem
  subst hmem
  exact absurd h (by decide)

/-- Two servers are named exactly if the first is not the default and both are bare words. -/
theorem named_assign_two (s t : Text) :
    named (assign DEFAULT_DNS1 DEFAULT_DNS2 [s, t]) = [s, t] ↔
      s ≠ DEFAULT_DNS1 ∧ Word s ∧ Word t := by
  by_cases hs : s = DEFAULT_DNS1
  · refine iff_of_false ?_ fun h => h.1 hs
    intro h
    have hassign : assign DEFAULT_DNS1 DEFAULT_DNS2 [s, t] = (t, DEFAULT_DNS2) := by
      simp [assign, hs]
    -- the second server would be the default of the second field, and the first one too
    rw [hassign, named, namedServer_default] at h
    cases ht : namedServer (dnsLine t) with
    | none =>
        rw [ht] at h
        cases (List.cons.inj h).2
    | some t' =>
        rw [ht] at h
        obtain ⟨hfirst, hsecond⟩ : t' = s ∧ DEFAULT_DNS2 = t := by simpa using h
        rw [← hsecond, namedServer_default] at ht
        exact default_ne ((Option.some.inj ht).trans (hfirst.trans hs))
  · have hassign : assign DEFAULT_DNS1 DEFAULT_DNS2 [s, t] = (s, t) := by
      simp [assign, hs]
    rw [hassign, named_eq_iff, and_iff_right hs]

/-- More servers are named without a default between them exactly if the fields hold them. -/
theorem named_assign_subset {servers : List Text} (hne : servers ≠ []) :
    (∀ s ∈ named (assign DEFAULT_DNS1 DEFAULT_DNS2 servers), s ∈ servers) ↔
      match servers.dropLast.find? (· ≠ DEFAULT_DNS1) with
      | some s => NamesOneOf servers s ∧ ∀ t ∈ servers.getLast?, NamesOneOf servers t
      | none => servers.getLast? = some DEFAULT_DNS2 := by
  have hlast := List.getLast?_eq_some_getLast hne
  cases hfind : servers.dropLast.find? (· ≠ DEFAULT_DNS1) with
  | some s =>
      rw [assign_of_find hfind, hlast]
      simp only [Option.getD_some, Option.mem_def, Option.some.injEq, forall_eq', mem_named,
        NamesOneOf]
      constructor
      · intro hsub
        exact ⟨fun x hx => hsub x (.inl hx), fun x hx => hsub x (.inr hx)⟩
      · rintro ⟨hfirst, hsecond⟩ x (hx | hx)
        · exact hfirst x hx
        · exact hsecond x hx
  | none =>
      rw [assign_of_find_none hne hfind]
      dsimp only
      rw [hlast, Option.some.injEq]
      constructor
      · intro hsub
        have hmem := hsub DEFAULT_DNS2 (mem_named.2 (.inr namedServer_default))
        rw [← List.dropLast_append_getLast hne] at hmem
        rcases List.mem_append.1 hmem with hmem | hmem
        -- before the last there are defaults of the first field only
        · have hdefault := List.find?_eq_none.1 hfind _ hmem
          exact absurd (by simpa using hdefault) default_ne
        · exact (List.mem_singleton.1 hmem).symm
      · intro heq x hx
        rw [heq, mem_named, or_self, namedServer_default] at hx
        rw [← Option.some.inj hx, ← heq]
        exact List.getLast_mem hne

/-- The two fields that a list of servers fills name what was configured exactly when the list is
one that they can hold. -/
theorem named_assign_iff {servers : List Text} (hne : servers ≠ []) :
    ((∀ s ∈ named (assign DEFAULT_DNS1 DEFAULT_DNS2 servers), s ∈ servers) ∧
      (servers.length ≤ 2 → named (assign DEFAULT_DNS1 DEFAULT_DNS2 servers) = servers)) ↔
      FieldsHold servers := by
  match servers, hne with
  | [s], _ =>
      refine iff_of_false ?_ (by simp [FieldsHold])
      rintro ⟨-, h⟩
      exact named_assign_one s (h (by simp))
  | [s, t], _ =>
      constructor
      · rintro ⟨-, h⟩
        exact (named_assign_two s t).1 (h (by simp))
      · intro h
        have heq := (named_assign_two s t).2 h
        refine ⟨fun x hx => ?_, fun _ => heq⟩
        rwa [heq] at hx
  | s :: t :: u :: servers, _ =>
      have hlen : ¬ (s :: t :: u :: servers).length ≤ 2 := by simp
      constructor
      · rintro ⟨hsub, -⟩
        exact (named_assign_subset (by simp)).1 hsub
      · intro h
        exact ⟨(named_assign_subset (by simp)).2 h, fun hle => absurd hle hlen⟩

/-! ## The import -/

/-- The fields with name servers after an import. -/
theorem dnsFields_of_import {reader : Text} {order : HashOrder} {np : VpnProfile}
    (himport : importConfig order reader = .ok np) :
    (np.mDNS1, np.mDNS2) = assign DEFAULT_DNS1 DEFAULT_DNS2 (dnsServers (optionLines reader)) ∧
      np.mOverrideDNS = !(dnsServers (optionLines reader)).isEmpty := by
  obtain ⟨p, r, hp, -, rfl⟩ := importConfig_ok himport
  have h := foldl_setDhcpOption ((p.options.find "dhcp-option").getD [])
    ⟨convertedProfile.mSearchDomain, false, DEFAULT_DNS1, DEFAULT_DNS2⟩
  rw [dnsServers, ← getD_find_collect, ← hp]
  exact h

end PortVpn.Config
