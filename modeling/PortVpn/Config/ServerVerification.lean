import PortVpn.Config.LineSize
import PortVpn.Config.PassThrough
import PortVpn.Config.RemoteImport

/-!
# The verification of the server

`ca`, `crl-verify`, `verify-x509-name` and `remote-cert-tls` say how the server is verified. Each of
them takes a way of its own through a conversion: three through fields of the profile, and the
directory of a `crl-verify` through the custom options, without being escaped. `verification_iff`
says for which configurations all of them can be read again from what is written for them.
-/

set_option autoImplicit false

namespace PortVpn.Config

open PortVpn.Lib

/-! ## Lines of directives -/

section Lines

variable {t rest arg : Text} {args : Args}

/-- What is read from a line with a name in front. -/
theorem optionLines_tagLine (ht : TagName t) (hrest : Unbroken rest) (hne : args ≠ []) :
    optionLines (customComment ++ (t ++ ' ' :: rest ++ "\n".toList)) = [args] ↔
      ∃ words, parselineLoop {} (rest ++ ['\x00']) = .ok words ∧ args = t :: words := by
  obtain ⟨-, hdash, htag⟩ := ht.passes
  have hunbroken : Unbroken (t ++ ' ' :: rest) :=
    ht.unbroken.append (Unbroken.append (s := [' ']) (by decide) hrest)
  have hlength : (t ++ ' ' :: rest).length ≠ 0 := by simp
  have hstrip : ∀ words, stripDashes (t :: words) = t :: words := by
    intro words
    unfold stripDashes
    split
    · rename_i x tail heq
      rw [(List.cons.inj heq).1] at hdash
      cases hdash
    · rfl
  rw [optionLines_line hunbroken (ht.metaStart _) hne, parseline, if_neg hlength,
    List.append_assoc, List.cons_append, parselineLoop_word ht.word (by decide)]
  constructor
  · rintro ⟨read, hread, hargs, -⟩
    obtain ⟨words, hwords, rfl⟩ := map_eq_ok hread
    exact ⟨words, hwords, by rw [← hargs, hstrip]⟩
  · rintro ⟨words, hwords, rfl⟩
    refine ⟨t :: words, ?_, hstrip words, htag⟩
    rw [hwords]
    rfl

theorem tagName_of_mem {name : String} (h : name ∈ ["ca", "crl-verify", "verify-x509-name"]) :
    TagName name.toList := by
  simp only [List.mem_cons, List.not_mem_nil, or_false] at h
  rcases h with rfl | rfl | rfl
  · exact ⟨by unfold OneWord; decide, by decide, by decide, by decide, by decide, by decide,
      by unfold PassesAsLine OneLine; decide⟩
  · exact ⟨by unfold OneWord; decide, by decide, by decide, by decide, by decide, by decide,
      by unfold PassesAsLine OneLine; decide⟩
  · exact ⟨by unfold OneWord; decide, by decide, by decide, by decide, by decide, by decide,
      by unfold PassesAsLine OneLine; decide⟩

end Lines

/-! ## Directives -/

/-- The directives that say how the server is verified. -/
inductive Verification where
  | ca
  | crlVerify
  | verifyX509Name
  | remoteCertTls
  deriving DecidableEq, Repr

/-- The directive that counts: the last of its name, or the first if it asks for a server. -/
def Verification.directive (ds : List Args) : Verification → Option Args
  | ca => (given "ca" ds).getLast?
  | crlVerify => (given "crl-verify" ds).getLast?
  | verifyX509Name => (given "verify-x509-name" ds).getLast?
  | remoteCertTls => (given "remote-cert-tls" ds).head?.filter
      (· == ["remote-cert-tls".toList, "server".toList])

/-- What `getConfigFile` writes for a directive. -/
def Verification.text (np : VpnProfile) (d : Args) : Verification → Text
  | ca => insertFileData "ca".toList np.mCaFilename
  | crlVerify =>
      if isCrlDir d then
        if np.mUseCustomConfig then List.intercalate " ".toList d ++ "\n".toList else []
      else np.crlSection
  | verifyX509Name => np.remoteCNSection.getD []
  | remoteCertTls => np.expectTLSCertSection

/-- The arguments of a `verify-x509-name`, where no type counts as `subject`. -/
def subjectForm : List Text → List Text
  | [name, type] => if type = "subject".toList then [name] else [name, type]
  | arguments => arguments

/-- What a directive says. -/
def meaning (d : Args) : Text × List Text :=
  (optionname d, if optionname d = "verify-x509-name".toList then subjectForm d.tail else d.tail)

/-- A text from which one directive is read, that says the same as the given one. -/
def Gives (t : Text) (d : Args) : Prop :=
  ∃ read, optionLines (customComment ++ t) = [read] ∧ meaning read = meaning d

/-- A file whose name, or whose contents, can be read again. -/
def FileSurvives (t arg : Text) : Prop :=
  if isEmbedded arg then
    INLINE_TAG.isPrefixOf arg ∧ ∀ l ∈ (getEmbeddedContent arg).splitOn '\n', trim l ≠ endtag t
  else RoundTrips arg

/-- Some option is left for the custom options: one that the conversion does not read, or
`remote-cert-tls` options that ask for no server. -/
def LeavesOptions (ds : List Args) : Prop :=
  (∃ args ∈ ds, ∀ name ∈ takenOptions, optionname args ≠ name.toList) ∨
    given "remote-cert-tls" ds ≠ [] ∧ asksServer (given "remote-cert-tls" ds) = false

/-- The name of the server can be read again. Two names are replaced by that of the first remote. -/
def NameSurvives (ds : List Args) (d : Args) : Prop :=
  if d.arg 1 = [] ∨ d.arg 1 = "unknown".toList then
    ∃ r, (configuredRemotes ds).head? = some r ∧
      (parseline (openVpnEscape r.host ++ " name".toList)).map subjectForm =
        .ok (subjectForm d.tail)
  else OneLine (d.arg 1) ∧ RoundTrips (d.arg 1)

/-- When a directive survives the conversion and the writing. -/
def Verification.Survives (ds : List Args) (d : Args) : Verification → Prop
  | ca => FileSurvives "ca".toList (d.arg 1)
  | crlVerify =>
      if isCrlDir d then LeavesOptions ds ∧ Word (d.arg 1)
      else d.length = 2 ∧ d.arg 1 ≠ [] ∧ FileSurvives "crl-verify".toList (d.arg 1)
  | verifyX509Name => NameSurvives ds d
  | remoteCertTls => True

section Given

variable {d args : Args}

theorem of_mem_given {ds : List Args} {name : String} (h : d ∈ given name ds) :
    d ∈ ds ∧ optionname d = name.toList := by
  obtain ⟨hmem, hname⟩ := List.mem_filter.1 h
  exact ⟨hmem, eq_of_beq hname⟩

/-- The names that are kept as they are, with arguments that are compared as they are. -/
def Literal (name : Text) : Prop :=
  name ≠ [] ∧ name ≠ "timeout-connect".toList ∧ name ≠ "verify-x509-name".toList

instance : DecidablePred Literal := fun _ => inferInstanceAs (Decidable (_ ∧ _ ∧ _))

theorem eq_cons_of_optionname {key : Text} (hkey : key ≠ [] ∧ key ≠ "timeout-connect".toList)
    (h : optionname d = key) : d = key :: d.tail := by
  rw [optionname] at h
  split at h
  · exact absurd h.symm hkey.2
  · cases d with
    | nil => exact absurd h.symm hkey.1
    | cons arg0 rest => rw [← h]; rfl

theorem gives_iff_of_literal {key t : Text} (hkey : Literal key)
    (h : optionname (key :: args) = key) :
    Gives t (key :: args) ↔ optionLines (customComment ++ t) = [key :: args] := by
  obtain ⟨hnil, htimeout, hverify⟩ := hkey
  constructor
  · rintro ⟨read, hread, hmeaning⟩
    obtain ⟨hname, htail⟩ := Prod.mk.inj hmeaning
    rw [h] at hname
    rw [hname, h, if_neg hverify, if_neg hverify] at htail
    rw [hread, eq_cons_of_optionname ⟨hnil, htimeout⟩ hname, htail]
    rfl
  · intro hread
    exact ⟨_, hread, rfl⟩

end Given

/-! ## The text of every directive -/

section Texts

variable {arg : Text}

theorem gives_insertFileData {name : String} (hname : name ∈ ["ca", "crl-verify"])
    (hwell : WellRead [name.toList, arg]) :
    Gives (insertFileData name.toList (some arg)) [name.toList, arg] ↔
      FileSurvives name.toList arg := by
  have hliteral : Literal name.toList ∧ optionname [name.toList, arg] = name.toList := by
    simp only [List.mem_cons, List.not_mem_nil, or_false] at hname
    rcases hname with rfl | rfl
    · exact ⟨by decide, rfl⟩
    · exact ⟨by decide, rfl⟩
  have htag : TagName name.toList := tagName_of_mem (List.mem_of_mem_dropLast hname)
  rw [gives_iff_of_literal hliteral.1 hliteral.2, optionLines_insertFileData htag hwell,
    FileSurvives]
  by_cases hembedded : isEmbedded arg
  · rw [if_pos hembedded, if_pos hembedded]
  · rw [if_neg hembedded, if_neg hembedded]
    cases hwell with
    | line _ hone => exact htag.passesAsLine_iff (hone arg (by simp))
    | inlinefile _ _ => exact absurd (isEmbedded_inline _) hembedded

/-- A second argument is lost. -/
theorem not_gives_insertFileData {x : Text} (hwell : WellRead ["crl-verify".toList, arg, x]) :
    ¬ Gives (insertFileData "crl-verify".toList (some arg)) ["crl-verify".toList, arg, x] := by
  have htag : TagName "crl-verify".toList := tagName_of_mem (by decide)
  have hone : OneLine arg := by
    cases hwell with
    | line _ hone => exact hone arg (by simp)
  have hreturn : '\r' ∉ arg := fun hmem => (hone _ hmem).2.2 rfl
  rw [gives_iff_of_literal (by decide) rfl]
  by_cases hembedded : isEmbedded arg
  · rw [insertFileData_embedded hembedded]
    intro h
    obtain ⟨lines, -, hargs⟩ := args_of_optionLines_block htag
      (fun hmem => hreturn ((getEmbeddedContent_suffix arg).mem hmem)) h
    cases hargs
  · rw [insertFileData, if_neg hembedded]
    intro h
    have hline := (optionLines_tagLine htag (unbroken_openVpnEscape hreturn)
      (List.cons_ne_nil _ _)).1 (by simpa using h)
    obtain ⟨words, hwords, hargs⟩ := hline
    rw [← (List.cons.inj hargs).2] at hwords
    cases eq_nil_of_parselineLoop hone hwords

/-- A directory, without being escaped. -/
theorem gives_directory (hone : OneLine arg) :
    Gives (List.intercalate " ".toList ["crl-verify".toList, arg, "dir".toList] ++ "\n".toList)
      ["crl-verify".toList, arg, "dir".toList] ↔ Word arg := by
  have htag : TagName "crl-verify".toList := tagName_of_mem (by decide)
  have hrest : Unbroken (arg ++ " dir".toList) :=
    Unbroken.append ⟨fun hmem => (hone _ hmem).2.1 rfl, fun hmem => (hone _ hmem).2.2 rfl⟩
      (by decide)
  have htext : List.intercalate " ".toList ["crl-verify".toList, arg, "dir".toList] =
      "crl-verify".toList ++ ' ' :: (arg ++ " dir".toList) := by
    simp [List.intercalate]
  have hloop : (arg ++ " dir".toList) ++ ['\x00'] = arg ++ ' ' :: "dir\x00".toList := by
    rw [List.append_assoc]
    rfl
  rw [gives_iff_of_literal (by decide) rfl, htext,
    optionLines_tagLine htag hrest (List.cons_ne_nil _ _), hloop]
  constructor
  · rintro ⟨words, hwords, hargs⟩
    rw [← (List.cons.inj hargs).2] at hwords
    exact word_of_parselineLoop (by decide) hwords (by decide)
  · intro hword
    refine ⟨[arg, "dir".toList], ?_, rfl⟩
    rw [parselineLoop_word hword (by decide)]
    rfl

theorem subjectForm_eq_cons {words tail : List Text} (h : subjectForm words = arg :: tail) :
    ∃ xs, words = arg :: xs ∧ (xs = tail ∨ xs = ["subject".toList] ∧ tail = []) := by
  unfold subjectForm at h
  split at h
  · split at h
    · rename_i name type htype
      obtain ⟨rfl, rfl⟩ := List.cons.inj h
      exact ⟨_, rfl, .inr ⟨by rw [htype], rfl⟩⟩
    · obtain ⟨rfl, rfl⟩ := List.cons.inj h
      exact ⟨_, rfl, .inl rfl⟩
  · exact ⟨tail, h, .inl rfl⟩

theorem gives_verifyX509Name {rest : Text} {d : Args} (hrest : Unbroken rest)
    (hd : optionname d = "verify-x509-name".toList) :
    Gives (VpnProfile.field "verify-x509-name ".toList rest) d ↔
      (parseline rest).map subjectForm = .ok (subjectForm d.tail) := by
  have htag : TagName "verify-x509-name".toList := tagName_of_mem (by decide)
  have hfield : VpnProfile.field "verify-x509-name ".toList rest =
      "verify-x509-name".toList ++ ' ' :: rest ++ "\n".toList := rfl
  have hmeaning : ∀ words, meaning ("verify-x509-name".toList :: words) = meaning d ↔
      subjectForm words = subjectForm d.tail := by
    intro words
    have hname : optionname ("verify-x509-name".toList :: words) = "verify-x509-name".toList := rfl
    rw [meaning, meaning, hname, hd, if_pos rfl, if_pos rfl, Prod.mk.injEq, List.tail_cons]
    exact and_iff_right rfl
  rw [parseline_eq, hfield]
  constructor
  · rintro ⟨read, hread, hsame⟩
    have hne : read ≠ [] := by
      rintro rfl
      have hname := (Prod.mk.inj hsame).1
      rw [hd] at hname
      cases hname
    obtain ⟨words, hwords, rfl⟩ := (optionLines_tagLine htag hrest hne).1 hread
    rw [hwords, ← (hmeaning words).1 hsame]
    rfl
  · intro h
    obtain ⟨words, hwords, hsame⟩ := map_eq_ok h
    exact ⟨_, (optionLines_tagLine htag hrest (List.cons_ne_nil _ _)).2 ⟨words, hwords, rfl⟩,
      (hmeaning words).2 hsame⟩

/-- The name and its type behind it. -/
theorem parseline_name_iff {tail : List Text} (hreturn : '\r' ∉ arg)
    (htail : tail = [] ∨ ∃ word, tail = [word] ∧ Word word ∧ Unbroken word ∧
      word ≠ "subject".toList) :
    (parseline (openVpnEscape arg ++ tail.flatMap (' ' :: ·))).map subjectForm =
        .ok (arg :: tail) ↔ OneLine arg ∧ RoundTrips arg := by
  have hescape := unbroken_openVpnEscape hreturn
  rw [parseline_eq]
  rcases htail with rfl | ⟨word, rfl, hword, hunbroken, hsubject⟩
  -- the escaped name alone
  · rw [List.flatMap_nil, List.append_nil]
    constructor
    · intro h
      obtain ⟨words, hwords, hsame⟩ := map_eq_ok h
      obtain ⟨xs, rfl, -⟩ := subjectForm_eq_cons hsame
      have hone : OneLine arg :=
        oneLine_of_parseline hescape (by rw [parseline_eq, hwords]) arg List.mem_cons_self
      exact ⟨hone, roundTrips_of_parselineLoop (by decide) hone hwords (Nat.zero_le _)⟩
    · rintro ⟨hone, htrips⟩
      rw [parselineLoop_escape_end hone, parselineLoop_escape hone htrips]
      rfl
  -- the name and a word behind it, which is read as it stands
  · have hloop : openVpnEscape arg ++ [word].flatMap (' ' :: ·) ++ ['\x00'] =
        openVpnEscape arg ++ ' ' :: (word ++ ['\x00']) := by simp
    have hline : Unbroken (openVpnEscape arg ++ [word].flatMap (' ' :: ·)) := by
      rw [List.flatMap_singleton]
      exact hescape.append (Unbroken.append (s := [' ']) (by decide) hunbroken)
    constructor
    · intro h
      obtain ⟨words, hwords, hsame⟩ := map_eq_ok h
      obtain ⟨xs, rfl, hxs⟩ := subjectForm_eq_cons hsame
      have hone : OneLine arg :=
        oneLine_of_parseline hline (by rw [parseline_eq, hwords]) arg List.mem_cons_self
      rw [hloop] at hwords
      refine ⟨hone, roundTrips_of_parselineLoop (by decide) hone hwords ?_⟩
      rcases hxs with rfl | ⟨-, hnone⟩
      · rw [List.length_append]
        exact le_refl _
      · cases hnone
    · rintro ⟨hone, htrips⟩
      rw [hloop, parselineLoop_escape hone htrips, parselineLoop_word hword (by decide)]
      have hform : subjectForm [arg, word] = [arg, word] := if_neg hsubject
      exact congrArg Except.ok hform

end Texts

/-! ## What an import makes of the directives -/

section Import

variable {order : HashOrder} {reader : Text} {np : VpnProfile}

/-- What the fields of a profile have to do with the directives. -/
structure VerificationFields (ds : List Args) (np : VpnProfile) : Prop where
  ca : ∀ d, (given "ca" ds).getLast? = some d → d.length = 2 ∧ np.mCaFilename = some (d.arg 1)
  crl : ∀ d, (given "crl-verify" ds).getLast? = some d → 2 ≤ d.length ∧ d.length ≤ 3 ∧
    np.mCrlFilename = if isCrlDir d then none else some (d.arg 1)
  name : ∀ d, (given "verify-x509-name" ds).getLast? = some d → 2 ≤ d.length ∧ d.length ≤ 3 ∧
    np.mCheckRemoteCN = true ∧ verifyX509Type d = .ok np.mX509AuthType ∧
      np.mRemoteCN = if d.arg 1 = "unknown".toList then [] else d.arg 1
  server : given "remote-cert-tls" ds ≠ [] → asksServer (given "remote-cert-tls" ds) = true →
    np.mExpectTLSCert = true
  custom : np.mUseCustomConfig = decide ((customOptions (collect ds)).length > 0)
  directory : 0 < (customOptions (collect ds)).length → ∃ rest, np.mCustomConfigOptions =
    customComment ++ crlDirectory (given "crl-verify" ds).getLast? ++ rest

theorem counted_of_getLast? {ds : List Args} {name : String} {minarg maxarg : Nat} {d : Args}
    (h : Counted (collect ds) name minarg maxarg) (hd : (given name ds).getLast? = some d) :
    minarg + 1 ≤ d.length ∧ d.length ≤ maxarg + 1 := by
  rw [Counted, getD_find_collect] at h
  exact h d (List.mem_of_getLast? hd)

theorem verificationFields (himport : importConfig order reader = .ok np) :
    VerificationFields (optionLines reader) np := by
  obtain ⟨p, r, hp, hr, rfl⟩ := importConfig_ok himport
  obtain ⟨huse, hcustom⟩ := r.mCustomConfigOptions order p
  have hca := hr.caCount
  have hcrl := hr.crlCount
  have hverify := hr.verifyCount
  have hremoteCN := hr.remoteCN
  have hlast : ∀ name, p.options.last name = (given name (optionLines reader)).getLast? := by
    intro name
    rw [hp, last_collect]
  rw [hp] at hca hcrl hverify huse
  have hfind : p.options.find "remote-cert-tls" =
      if given "remote-cert-tls" (optionLines reader) = [] then none
      else some (given "remote-cert-tls" (optionLines reader)) := by rw [hp, find_collect]
  constructor
  -- the fields of `ca`, `crl-verify` and `verify-x509-name` depend on the last option of the name
  · intro d hd
    obtain ⟨hmin, hmax⟩ := counted_of_getLast? hca hd
    refine ⟨by omega, ?_⟩
    have hfield : (r.profile order p).mCaFilename =
        (p.options.last "ca").elim none fun ca => some (ca.arg 1) := rfl
    rw [hfield, hlast, hd]
    rfl
  · intro d hd
    obtain ⟨hmin, hmax⟩ := counted_of_getLast? hcrl hd
    refine ⟨hmin, hmax, ?_⟩
    have hfield : (r.profile order p).mCrlFilename = (p.options.last "crl-verify").elim none
        fun crlfile => if isCrlDir crlfile then none else some (crlfile.arg 1) := rfl
    rw [hfield, hlast, hd]
    rfl
  · intro d hd
    obtain ⟨hmin, hmax⟩ := counted_of_getLast? hverify hd
    refine ⟨hmin, hmax, ?_⟩
    rw [hlast "verify-x509-name", hd] at hremoteCN
    obtain ⟨type, htype, hfields⟩ := map_eq_ok hremoteCN
    have hcheck : (r.profile order p).mCheckRemoteCN = ((p.options.last "tls-remote").isSome ||
        (p.options.last "verify-x509-name").isSome || false) := rfl
    have hauth : (r.profile order p).mX509AuthType = r.remoteCN.2 := rfl
    have hname : (r.profile order p).mRemoteCN =
        if r.remoteCN.1 = "unknown".toList then [] else r.remoteCN.1 := rfl
    rw [hcheck, hauth, hname, ← hfields, hlast "verify-x509-name", hd]
    exact ⟨by simp, htype, rfl⟩
  -- `remote-cert-tls` is looked for among all options of the name
  · intro hne hasks
    have hfield : (r.profile order p).mExpectTLSCert =
        ((p.options.find "remote-cert-tls").any asksServer || false) := rfl
    rw [hfield, hfind, if_neg hne, Option.any_some, hasks]
    rfl
  · exact huse
  · intro hpos
    rw [← hp] at hpos
    rw [hcustom, if_pos hpos, hlast]
    exact ⟨_, rfl⟩

theorem exists_entry_iff (ds : List Args) :
    (∃ e, e ∈ (collect ds).without takenOptions) ↔
      ∃ args ∈ ds, ∀ name ∈ takenOptions, optionname args ≠ name.toList := by
  constructor
  · rintro ⟨e, he⟩
    obtain ⟨hmem, hnot⟩ := Options.mem_without.1 he
    have hkey : (String.ofList e.1).toList = e.1 := String.toList_ofList
    have hfind : (collect ds).find (String.ofList e.1) ≠ none := by
      intro hnone
      exact Options.find_eq_none_iff.1 hnone e hmem hkey.symm
    have hgiven : given (String.ofList e.1) ds ≠ [] := by
      intro hnil
      rw [find_collect, if_pos hnil] at hfind
      exact hfind rfl
    obtain ⟨args, hargs⟩ := List.exists_mem_of_ne_nil _ hgiven
    obtain ⟨hds, hname⟩ := of_mem_given hargs
    rw [hkey] at hname
    exact ⟨args, hds, fun name hm => hname ▸ hnot name hm⟩
  · rintro ⟨args, hargs, hnot⟩
    have hkey : (String.ofList (optionname args)).toList = optionname args := String.toList_ofList
    have hmem : args ∈ given (String.ofList (optionname args)) ds := by
      refine List.mem_filter.2 ⟨hargs, ?_⟩
      rw [hkey]
      exact beq_self_eq_true _
    have hfind := find_collect (String.ofList (optionname args)) ds
    rw [if_neg (List.ne_nil_of_mem hmem)] at hfind
    refine ⟨_, Options.mem_without.2 ⟨Options.mem_of_find hfind, ?_⟩⟩
    rw [hkey]
    exact hnot

/-- When the text of custom options is written. -/
theorem leavesOptions_iff (ds : List Args) :
    LeavesOptions ds ↔ 0 < (customOptions (collect ds)).length := by
  rw [LeavesOptions, ← exists_entry_iff, customOptions, find_collect]
  by_cases hgiven : given "remote-cert-tls" ds = []
  · rw [if_pos hgiven, putRemoteTls, List.length_pos_iff_exists_mem]
    simp [hgiven]
  · rw [if_neg hgiven, putRemoteTls]
    cases hasks : asksServer (given "remote-cert-tls" ds) with
    | true =>
        rw [if_pos rfl, List.length_pos_iff_exists_mem]
        simp
    | false =>
        rw [if_neg Bool.false_ne_true]
        refine iff_of_true (.inr ⟨hgiven, rfl⟩) ?_
        generalize (collect ds).without takenOptions = o
        cases o with
        | nil => exact Nat.succ_pos _
        | cons e o =>
            rw [Options.put]
            split
            · exact Nat.succ_pos _
            · exact Nat.succ_pos _

/-- No host contains a carriage return. -/
theorem host_ne_return {ds : List Args} (hwell : ∀ args ∈ ds, WellRead args)
    {d : RemoteDefaults} {r : Remote} (hr : r ∈ remotesIn d ds) : '\r' ∉ r.host := by
  obtain ⟨args, hargs, rfl⟩ := List.mem_map.1 hr
  have hmem := (of_mem_given hargs).1
  rcases Args.arg_mem args 1 with hnil | harg
  · change '\r' ∉ args.arg 1
    rw [hnil]
    exact List.not_mem_nil
  · exact (hwell args hmem).ne_return harg

theorem configuredHost_ne_return {r : Remote}
    (hr : r ∈ configuredRemotes (optionLines reader)) : '\r' ∉ r.host := by
  rcases List.mem_append.1 hr with hr | hr
  · exact host_ne_return wellRead_of_mem_optionLines hr
  · obtain ⟨block, -, hr⟩ := List.mem_flatMap.1 hr
    exact host_ne_return wellRead_of_mem_optionLines hr

/-- The first connection is the first remote. -/
theorem head?_connections (himport : importConfig order reader = .ok np) :
    np.mConnections.head?.map Connection.mServerName =
      (configuredRemotes (optionLines reader)).head?.map Remote.host := by
  obtain ⟨conns, hremotes, -, hforce⟩ := connections_of_import himport
  rw [← hremotes]
  cases hlast : (given "proto-force" (optionLines reader)).getLast? with
  | none =>
      rw [hlast] at hforce
      cases hforce
      cases np.mConnections with
      | nil => rfl
      | cons conn conns => rfl
  | some protoforce =>
      rw [hlast] at hforce
      rw [convertProtoForce_ok hforce]
      cases conns with
      | nil => rfl
      | cons conn conns =>
          simp only [List.map_cons, List.head?_cons, Option.map_some]
          split
          · rfl
          · rfl

/-! ## Which directives survive -/

variable {d : Args}

/-- A directive is a line, or an inline file, with its name in front. -/
theorem directive_eq_cons {name : String} {ds : List Args}
    (hkey : name.toList ≠ [] ∧ name.toList ≠ "timeout-connect".toList)
    (hd : (given name ds).getLast? = some d) :
    d ∈ ds ∧ optionname d = name.toList ∧ d = name.toList :: d.tail := by
  obtain ⟨hmem, hname⟩ := of_mem_given (List.mem_of_getLast? hd)
  exact ⟨hmem, hname, eq_cons_of_optionname hkey hname⟩

theorem gives_ca (himport : importConfig order reader = .ok np)
    (hd : (given "ca" (optionLines reader)).getLast? = some d) :
    Gives (insertFileData "ca".toList np.mCaFilename) d ↔
      FileSurvives "ca".toList (d.arg 1) := by
  obtain ⟨hlength, hfile⟩ := (verificationFields himport).ca d hd
  obtain ⟨hmem, -, hcons⟩ := directive_eq_cons (by decide) hd
  have hwell := wellRead_of_mem_optionLines d hmem
  obtain ⟨arg, harg⟩ : ∃ arg, d.tail = [arg] := by
    apply List.length_eq_one_iff.1
    rw [List.length_tail]
    omega
  rw [harg] at hcons
  subst hcons
  rw [hfile]
  exact gives_insertFileData (by decide) hwell

/-- Nothing is read from nothing. -/
theorem not_gives_nil : ¬ Gives [] d := by
  rintro ⟨read, hread, -⟩
  have hnone : optionLines (customComment ++ []) = [] := by decide +kernel
  rw [hnone] at hread
  cases hread

theorem gives_crlVerify (himport : importConfig order reader = .ok np)
    (hd : (given "crl-verify" (optionLines reader)).getLast? = some d) :
    Gives (Verification.crlVerify.text np d) d ↔
      Verification.crlVerify.Survives (optionLines reader) d := by
  have hf := verificationFields himport
  obtain ⟨hmin, hmax, hfile⟩ := hf.crl d hd
  obtain ⟨hmem, -, hcons⟩ := directive_eq_cons (by decide) hd
  have hwell := wellRead_of_mem_optionLines d hmem
  have htail : d.tail.length = d.length - 1 := List.length_tail
  have hlast : d.length = 2 ∨ d.length = 3 := by omega
  rw [Verification.text, Verification.Survives]
  rcases hlast with hlength | hlength
  -- one argument: a file, written again as a section of its own
  · obtain ⟨arg, harg⟩ := List.length_eq_one_iff.1 (htail.trans (by omega))
    rw [harg] at hcons
    subst hcons
    have hdir : isCrlDir ["crl-verify".toList, arg] = false := rfl
    rw [hdir, if_neg Bool.false_ne_true] at hfile ⊢
    rw [if_neg Bool.false_ne_true, VpnProfile.crlSection, hfile]
    dsimp only
    cases arg with
    | nil =>
        refine iff_of_false (not_gives_nil) ?_
        rintro ⟨-, hne, -⟩
        exact hne rfl
    | cons c w =>
        rw [show (Args.arg ["crl-verify".toList, c :: w] 1) = c :: w from rfl, List.isEmpty_cons,
          if_neg Bool.false_ne_true, gives_insertFileData (by decide) hwell]
        exact ⟨fun h => ⟨rfl, List.cons_ne_nil c w, h⟩, fun h => h.2.2⟩
  -- two arguments: a directory, which is left to the custom options, or another word
  · obtain ⟨arg, x, harg⟩ := List.length_eq_two.1 (htail.trans (by omega))
    rw [harg] at hcons
    subst hcons
    have hone : OneLine arg := by
      cases hwell with
      | line _ hone => exact hone arg (by simp)
    have harg1 : Args.arg ["crl-verify".toList, arg, x] 1 = arg := rfl
    have hdir : isCrlDir ["crl-verify".toList, arg, x] = (x == "dir".toList) := rfl
    rw [hdir, harg1] at hfile ⊢
    by_cases hx : x = "dir".toList
    · subst hx
      rw [beq_self_eq_true, if_pos rfl, if_pos rfl, hf.custom, leavesOptions_iff]
      by_cases hleft : 0 < (customOptions (collect (optionLines reader))).length
      · rw [decide_eq_true hleft, if_pos rfl, gives_directory hone]
        exact (and_iff_right hleft).symm
      · rw [decide_eq_false hleft, if_neg Bool.false_ne_true]
        exact iff_of_false (not_gives_nil) fun h => hleft h.1
    -- another word is dropped, and what is written has one argument
    · rw [beq_false_of_ne hx, if_neg Bool.false_ne_true] at hfile
      rw [beq_false_of_ne hx, if_neg Bool.false_ne_true, if_neg Bool.false_ne_true,
        VpnProfile.crlSection, hfile]
      dsimp only
      refine iff_of_false ?_ (fun h => absurd h.1 (by simp))
      cases arg with
      | nil => exact not_gives_nil
      | cons c w => exact not_gives_insertFileData hwell

/-- What is written behind the name of the server, and what is compared with it. -/
theorem remoteCNSection_eq {N : Text} {arguments : List Text} (hN : N ≠ [])
    (hlength : arguments.length ≤ 1) (hremoteCN : np.mRemoteCN = N)
    (htype : verifyX509Type ("verify-x509-name".toList :: N :: arguments) =
      .ok np.mX509AuthType) :
    ∃ tail : List Text, subjectForm (N :: arguments) = N :: tail ∧
      np.remoteCNSection = some (VpnProfile.field "verify-x509-name ".toList
        (openVpnEscape N ++ tail.flatMap (' ' :: ·))) ∧
      (tail = [] ∨ ∃ word, tail = [word] ∧ Word word ∧ Unbroken word ∧
        word ≠ "subject".toList) := by
  rw [VpnProfile.remoteCNSection, hremoteCN, if_neg hN]
  cases arguments with
  -- without a type the name is a subject
  | nil =>
      obtain htype : X509_VERIFY_TLSREMOTE_DN = np.mX509AuthType := Except.ok.inj htype
      rw [← htype]
      refine ⟨[], rfl, ?_, .inl rfl⟩
      rw [List.flatMap_nil, List.append_nil]
  -- the writer leaves out `subject` and names the other two types
  | cons type arguments =>
      obtain rfl : arguments = [] := by
        rw [List.length_cons] at hlength
        exact List.length_eq_zero_iff.1 (by omega)
      have harg2 : Args.arg ["verify-x509-name".toList, N, type] 2 = type := rfl
      have hlong : ["verify-x509-name".toList, N, type].length > 2 := by simp
      rw [verifyX509Type, if_pos hlong, harg2] at htype
      by_cases hname : type = "name".toList
      · rw [if_pos hname] at htype
        subst hname
        obtain htype : X509_VERIFY_TLSREMOTE_RDN = np.mX509AuthType := Except.ok.inj htype
        rw [← htype]
        exact ⟨["name".toList], rfl, rfl, .inr ⟨_, rfl, by decide, by decide, by decide⟩⟩
      · rw [if_neg hname] at htype
        by_cases hsubject : type = "subject".toList
        · rw [if_pos hsubject] at htype
          obtain htype : X509_VERIFY_TLSREMOTE_DN = np.mX509AuthType := Except.ok.inj htype
          rw [← htype]
          refine ⟨[], if_pos hsubject, ?_, .inl rfl⟩
          rw [List.flatMap_nil, List.append_nil]
        · rw [if_neg hsubject] at htype
          by_cases hlead : type = "name-prefix".toList
          · rw [if_pos hlead] at htype
            subst hlead
            obtain htype : X509_VERIFY_TLSREMOTE_RDN_PREFIX = np.mX509AuthType :=
              Except.ok.inj htype
            rw [← htype]
            exact ⟨["name-prefix".toList], rfl, rfl,
              .inr ⟨_, rfl, by decide, by decide, by decide⟩⟩
          -- any other type is rejected on import
          · rw [if_neg hlead] at htype
            cases htype

theorem gives_remoteCN (himport : importConfig order reader = .ok np)
    (hd : (given "verify-x509-name" (optionLines reader)).getLast? = some d) :
    Gives (np.remoteCNSection.getD []) d ↔ NameSurvives (optionLines reader) d := by
  obtain ⟨hmin, hmax, -, htype, hremoteCN⟩ := (verificationFields himport).name d hd
  obtain ⟨hmem, hname, hcons⟩ := directive_eq_cons (by decide) hd
  have hwell := wellRead_of_mem_optionLines d hmem
  have htail : d.tail.length = d.length - 1 := List.length_tail
  obtain ⟨N, arguments, harguments⟩ : ∃ N arguments, d.tail = N :: arguments := by
    apply List.exists_cons_of_length_pos
    omega
  rw [harguments] at hcons
  have harg1 : d.arg 1 = N := by rw [hcons]; rfl
  rw [harg1] at hremoteCN
  rw [NameSurvives, harg1]
  by_cases hreplaced : N = [] ∨ N = "unknown".toList
  · -- the name of the first connection is written instead
    have hempty : np.mRemoteCN = [] := by
      rcases hreplaced with rfl | rfl
      · exact hremoteCN
      · exact hremoteCN
    have hhost := head?_connections himport
    rw [if_pos hreplaced, VpnProfile.remoteCNSection, if_pos hempty]
    cases hfirst : (configuredRemotes (optionLines reader)).head? with
    | none =>
        rw [hfirst, Option.map_none, Option.map_eq_none_iff] at hhost
        rw [hhost]
        refine iff_of_false not_gives_nil ?_
        rintro ⟨r, hr, -⟩
        cases hr
    | some r =>
        rw [hfirst] at hhost
        obtain ⟨conn, hconn, hsame⟩ := Option.map_eq_some_iff.1 hhost
        have hreturn := configuredHost_ne_return (List.mem_of_head? hfirst)
        have hunbroken : Unbroken (openVpnEscape r.host ++ " name".toList) :=
          (unbroken_openVpnEscape hreturn).append (by decide)
        rw [hconn, Option.map_some, Option.getD_some, hsame, gives_verifyX509Name hunbroken hname]
        constructor
        · intro h
          exact ⟨r, rfl, h⟩
        · rintro ⟨r', hr', h⟩
          cases hr'
          exact h
  -- the name is written in the form that the type asks for, as one line
  · obtain ⟨hne, hunknown⟩ := not_or.1 hreplaced
    rw [if_neg hunknown] at hremoteCN
    rw [hcons] at htype
    have hlength : arguments.length ≤ 1 := by
      rw [harguments, List.length_cons] at htail
      omega
    obtain ⟨tail, hform, hsection, htails⟩ := remoteCNSection_eq hne hlength hremoteCN htype
    have hreturn : '\r' ∉ N := hwell.ne_return (by rw [hcons]; simp)
    have hunbroken : Unbroken (openVpnEscape N ++ tail.flatMap (' ' :: ·)) := by
      apply (unbroken_openVpnEscape hreturn).append
      rcases htails with rfl | ⟨word, rfl, -, hword, -⟩
      · exact ⟨List.not_mem_nil, List.not_mem_nil⟩
      · rw [List.flatMap_singleton]
        exact Unbroken.append (s := [' ']) (by decide) hword
    rw [if_neg hreplaced, hsection, Option.getD_some, gives_verifyX509Name hunbroken hname,
      harguments, hform, parseline_name_iff hreturn htails]

theorem gives_remoteCertTls (himport : importConfig order reader = .ok np)
    (htype : np.mAuthenticationType ≠ TYPE_STATICKEYS)
    (hd : Verification.remoteCertTls.directive (optionLines reader) = some d) :
    Gives np.expectTLSCertSection d := by
  obtain ⟨hfirst, hserver⟩ := Option.filter_eq_some_iff.1 hd
  obtain rfl := eq_of_beq hserver
  have hne : given "remote-cert-tls" (optionLines reader) ≠ [] :=
    List.ne_nil_of_mem (List.mem_of_head? hfirst)
  have hasks : asksServer (given "remote-cert-tls" (optionLines reader)) = true := by
    rw [asksServer, List.headD_eq_head?_getD, hfirst]
    rfl
  have hexpect := (verificationFields himport).server hne hasks
  have hread : optionLines (customComment ++ "remote-cert-tls server\n".toList) =
      [["remote-cert-tls".toList, "server".toList]] := by decide +kernel
  rw [VpnProfile.expectTLSCertSection, if_pos ⟨htype, hexpect⟩]
  exact ⟨_, hread, rfl⟩

/-- The types of authentication with a certificate of the server. -/
def VerifiesServer (type : AuthenticationType) : Prop :=
  type = TYPE_CERTIFICATES ∨ type = TYPE_USERPASS ∨ type = TYPE_USERPASS_CERTIFICATES

theorem VerifiesServer.ne_staticKeys {type : AuthenticationType} (h : VerifiesServer type) :
    type ≠ TYPE_STATICKEYS := by
  rintro rfl
  rcases h with h | h | h
  · cases h
  · cases h
  · cases h

/-- The text of every directive stands in the configuration file. -/
theorem hasText_verification (himport : importConfig order reader = .ok np)
    (htype : VerifiesServer np.mAuthenticationType) {v : Verification}
    (hd : v.directive (optionLines reader) = some d) {ctx : Context} {configForOvpn3 : Bool}
    {cfg : Text} (hcfg : np.getConfigFile ctx configForOvpn3 = some cfg) :
    HasText cfg (v.text np d) := by
  have hf := verificationFields himport
  obtain ⟨sections, hsections, htext⟩ := HasText.of_getConfigFile hcfg
  obtain ⟨verify, hverify, rfl⟩ := np.sections_eq_some ctx configForOvpn3 hsections
  cases v with
  | ca =>
      -- the file is the first of the certificates, or the only one
      have hsection := htext (np.authenticationSection ctx configForOvpn3) (by simp)
      have hcerts : np.certificatesSection = insertFileData "ca".toList np.mCaFilename ++
          (insertFileData "key".toList np.mClientKeyFilename ++
            insertFileData "cert".toList np.mClientCertFilename) := List.append_assoc _ _ _
      rw [VpnProfile.authenticationSection] at hsection
      rcases htype with htype | htype | htype
      · rw [htype, hcerts] at hsection
        exact @HasText.part cfg [] _ _ hsection wholeLines_nil
      · rw [htype] at hsection
        dsimp only at hsection
        rw [← List.append_nil ("auth-user-pass\n".toList ++ _)] at hsection
        exact hsection.part (by decide)
      · rw [htype, hcerts] at hsection
        dsimp only at hsection
        rw [← List.append_assoc] at hsection
        exact hsection.part (by decide)
  | crlVerify =>
      rw [Verification.text]
      by_cases hdir : isCrlDir d
      · rw [if_pos hdir]
        cases huse : np.mUseCustomConfig with
        | false => exact ⟨[], cfg, wholeLines_nil, rfl⟩
        | true =>
            have hpos : 0 < (customOptions (collect (optionLines reader))).length := by
              rw [hf.custom] at huse
              exact of_decide_eq_true huse
            obtain ⟨rest, hcustom⟩ := hf.directory hpos
            have hd : (given "crl-verify" (optionLines reader)).getLast? = some d := hd
            have hsection := htext np.customSection (by simp)
            rw [hd, crlDirectory, if_pos hdir] at hcustom
            rw [VpnProfile.customSection, huse, if_pos rfl, hcustom] at hsection
            have hassoc : ∀ a b c s t : Text,
                a ++ (b ++ c ++ s) ++ t = (a ++ b) ++ c ++ (s ++ t) := by simp
            rw [hassoc] at hsection
            rw [if_pos rfl]
            exact hsection.part (by decide)
      · rw [if_neg hdir]
        exact htext np.crlSection (by simp)
  | verifyX509Name =>
      obtain ⟨-, -, hcheck, -, -⟩ := hf.name d hd
      have hsection := htext verify (by simp)
      rw [VpnProfile.verifySection, if_neg htype.ne_staticKeys, hcheck, if_pos rfl] at hverify
      obtain ⟨name, hname, rfl⟩ := Option.map_eq_some_iff.1 hverify
      rw [Verification.text, hname, Option.getD_some]
      exact @HasText.part cfg [] _ _ hsection wholeLines_nil
  | remoteCertTls => exact htext np.expectTLSCertSection (by simp)

end Import

end PortVpn.Config
