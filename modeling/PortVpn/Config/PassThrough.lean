import Mathlib.Data.List.Nodup
import PortVpn.Config.Conversion
import PortVpn.Config.EscapeRoundTrip
import PortVpn.Config.InlineFile

/-!
# Options that a conversion does not read

`checkIgnoreAndInvalidOptions` writes what is left in the map as custom options: two inline files as
blocks, everything else as lines of escaped arguments. `passThrough_iff` says which options are read
from that text as they were given. An inline file under another name is written as an argument, with
its newlines escaped, and is not.
-/

set_option autoImplicit false

namespace PortVpn.Config

open PortVpn.Lib

/-! ## Which options are written -/

namespace Options

variable {o : Options} {name : String} {key : Text} {args : Args} {e : Text × List Args}

/-- The names in a map are different. -/
def Distinct (o : Options) : Prop := (o.map Prod.fst).Nodup

theorem distinct_nil : Distinct [] := List.nodup_nil

theorem map_fst_add : (add key args o).map Prod.fst =
    if key ∈ o.map Prod.fst then o.map Prod.fst else o.map Prod.fst ++ [key] := by
  induction o with
  | nil => simp [add]
  | cons e o ih =>
      obtain ⟨k, v⟩ := e
      rw [add]
      by_cases hk : k = key
      · simp [hk]
      · have hiff : key ∈ ((k, v) :: o).map Prod.fst ↔ key ∈ o.map Prod.fst := by
          simp [Ne.symm hk]
        rw [if_neg hk, List.map_cons, ih, if_congr hiff rfl rfl]
        split
        · rfl
        · rfl

theorem Distinct.add (h : o.Distinct) : (add key args o).Distinct := by
  rw [Distinct, map_fst_add]
  split
  · exact h
  · rename_i hmem
    apply List.nodup_append.2
    refine ⟨h, List.nodup_singleton _, ?_⟩
    intro a ha b hb hab
    rw [List.mem_singleton.1 hb] at hab
    exact hmem (hab ▸ ha)

theorem distinct_collect (ds : List Args) : (collect ds).Distinct := by
  have hfold : ∀ o : Options, o.Distinct →
      (ds.foldl (fun o args => o.add (optionname args) args) o).Distinct := by
    induction ds with
    | nil => exact fun o ho => ho
    | cons args ds ih => exact fun o ho => ih _ ho.add
  exact hfold [] distinct_nil

theorem mem_put_iff {v : List Args} (h : o.Distinct) :
    e ∈ put name v o ↔ e = (name.toList, v) ∨ e ∈ o ∧ e.1 ≠ name.toList := by
  induction o with
  | nil => simp [put]
  | cons a o ih =>
      obtain ⟨k, w⟩ := a
      obtain ⟨hnot, ho⟩ := List.nodup_cons.1 h
      rw [put]
      split
      · rename_i hk
        subst hk
        rw [List.mem_cons, List.mem_cons]
        constructor
        · rintro (rfl | hmem)
          · exact .inl rfl
          · refine .inr ⟨.inr hmem, ?_⟩
            intro hname
            apply hnot
            rw [← hname]
            exact List.mem_map.2 ⟨e, hmem, rfl⟩
        · rintro (rfl | ⟨rfl | hmem, hname⟩)
          · exact .inl rfl
          · exact absurd rfl hname
          · exact .inr hmem
      · rename_i hk
        rw [List.mem_cons, ih ho, List.mem_cons]
        constructor
        · rintro (rfl | rfl | ⟨hmem, hname⟩)
          · exact .inr ⟨.inl rfl, hk⟩
          · exact .inl rfl
          · exact .inr ⟨.inr hmem, hname⟩
        · rintro (rfl | ⟨rfl | hmem, hname⟩)
          · exact .inr (.inl rfl)
          · exact .inl rfl
          · exact .inr (.inr ⟨hmem, hname⟩)

theorem Distinct.without (h : o.Distinct) (names : List String) : (o.without names).Distinct := by
  rw [Options.without]
  induction names generalizing o with
  | nil => exact h
  | cons n names ih =>
      rw [List.foldl_cons]
      apply ih
      exact h.sublist (List.filter_sublist.map _)

end Options

/-- The argument lists that become custom options, in the order of the map's values. -/
def emittedOptions (order : HashOrder) (reader : Text) : List Args :=
  (order.values (customOptions (collect (optionLines reader)))).flatten

/-- The options under this name give way to `remote-cert-tls` options that ask for no server. -/
def Displaced (reader : Text) (args : Args) : Prop :=
  optionname args = "remotetls".toList ∧ given "remote-cert-tls" (optionLines reader) ≠ [] ∧
    asksServer (given "remote-cert-tls" (optionLines reader)) = false

theorem mem_emittedOptions {order : HashOrder} {reader : Text} {args : Args} :
    args ∈ emittedOptions order reader ↔
      ∃ e ∈ customOptions (collect (optionLines reader)), args ∈ e.2 := by
  rw [emittedOptions, List.mem_flatten]
  constructor
  · rintro ⟨v, hv, hargs⟩
    obtain ⟨e, he, rfl⟩ := List.mem_map.1 ((order.perm _).mem_iff.1 hv)
    exact ⟨e, he, hargs⟩
  · rintro ⟨e, he, hargs⟩
    exact ⟨e.2, (order.perm _).mem_iff.2 (List.mem_map_of_mem he), hargs⟩

/-- An option that the conversion does not read stays in the map, unless it is displaced. -/
theorem mem_emittedOptions_iff (order : HashOrder) {reader : Text} {args : Args}
    (hargs : args ∈ optionLines reader)
    (hname : ∀ name ∈ takenOptions, optionname args ≠ name.toList) :
    args ∈ emittedOptions order reader ↔ ¬ Displaced reader args := by
  have hkey : (String.ofList (optionname args)).toList = optionname args := String.toList_ofList
  -- the entry under the name of the option
  have hmem : args ∈ given (String.ofList (optionname args)) (optionLines reader) := by
    refine List.mem_filter.2 ⟨hargs, ?_⟩
    rw [hkey]
    exact beq_self_eq_true _
  have hentry : (optionname args, given (String.ofList (optionname args)) (optionLines reader)) ∈
      (collect (optionLines reader)).without takenOptions := by
    refine Options.mem_without.2 ⟨?_, hname⟩
    have hfind := find_collect (String.ofList (optionname args)) (optionLines reader)
    rw [if_neg (List.ne_nil_of_mem hmem)] at hfind
    have hentry := Options.mem_of_find hfind
    rwa [hkey] at hentry
  have hkeys : "remote-cert-tls".toList ≠ "remotetls".toList := by decide
  have hdistinct := (Options.distinct_collect (optionLines reader)).without takenOptions
  rw [mem_emittedOptions, customOptions, find_collect]
  by_cases hgiven : given "remote-cert-tls" (optionLines reader) = []
  · rw [if_pos hgiven]
    refine iff_of_true ⟨_, hentry, hmem⟩ ?_
    exact fun h => h.2.1 hgiven
  · rw [if_neg hgiven]
    dsimp only [putRemoteTls]
    by_cases hasks : asksServer (given "remote-cert-tls" (optionLines reader))
    · rw [if_pos hasks]
      refine iff_of_true ⟨_, hentry, hmem⟩ ?_
      intro h
      have hnot := h.2.2
      rw [hasks] at hnot
      cases hnot
    · rw [if_neg hasks]
      constructor
      · rintro ⟨e, he, hin⟩ ⟨hremote, -, -⟩
        rcases (Options.mem_put_iff hdistinct).1 he with rfl | ⟨he, hne⟩
        · -- the options put under the name were given under another one
          have hother : optionname args = "remote-cert-tls".toList :=
            eq_of_beq (List.mem_filter.1 hin).2
          exact hkeys (hother.symm.trans hremote)
        · have hown := (mem_collect (Options.mem_without.1 he).1 hin).2
          exact hne (hown.symm.trans hremote)
      · intro hdisplaced
        refine ⟨_, (Options.mem_put_iff hdistinct).2 (.inr ⟨hentry, ?_⟩), hmem⟩
        intro hremote
        exact hdisplaced ⟨hremote, hgiven, by simpa using hasks⟩

/-! ## Where they stand in the configuration file -/

theorem wholeLines_optionString (args : Args) : WholeLines (optionString args) := by
  rw [optionString]
  exact .ite wholeLines_nil (.ite (wholeLines_insertFileData _ _) (wholeLines_newline _))

/-- The line for a directory of revoked certificates, in front of the custom options. -/
def crlDirectory : Option Args → Text
  | none => []
  | some crlfile =>
      if isCrlDir crlfile then List.intercalate " ".toList crlfile ++ "\n".toList else []

theorem wholeLines_crlDirectory (crlfile : Option Args) : WholeLines (crlDirectory crlfile) := by
  cases crlfile with
  | none => exact wholeLines_nil
  | some crlfile => exact .ite (wholeLines_newline _) wholeLines_nil

theorem Readings.mCustomConfigOptions (r : Readings) (order : HashOrder) (p : ConfigParser) :
    (r.profile order p).mUseCustomConfig = decide ((customOptions p.options).length > 0) ∧
    (r.profile order p).mCustomConfigOptions =
      if (customOptions p.options).length > 0 then
        customComment ++ crlDirectory (p.options.last "crl-verify") ++
          (order.values (customOptions p.options)).flatMap getOptionStrings
      else crlDirectory (p.options.last "crl-verify") := by
  refine ⟨Bool.or_false _, ?_⟩
  cases hcrl : p.options.last "crl-verify" with
  | none =>
      rw [Readings.profile, hcrl]
      rfl
  | some crlfile =>
      rw [Readings.profile, hcrl]
      rfl

theorem flatMap_getOptionStrings (values : List (List Args)) :
    values.flatMap getOptionStrings = values.flatten.flatMap optionString := by
  induction values with
  | nil => rfl
  | cons v values ih =>
      rw [List.flatMap_cons, ih, List.flatten_cons, List.flatMap_append, getOptionStrings]

/-- Every option that is written stands in every configuration file of the profile. -/
theorem hasText_optionString {order : HashOrder} {reader : Text} {np : VpnProfile}
    (himport : importConfig order reader = .ok np) {args : Args}
    (hargs : args ∈ emittedOptions order reader) {ctx : Context} {configForOvpn3 : Bool}
    {cfg : Text} (hcfg : np.getConfigFile ctx configForOvpn3 = some cfg) :
    HasText cfg (optionString args) := by
  obtain ⟨p, r, hp, -, rfl⟩ := importConfig_ok himport
  obtain ⟨huse, hcustom⟩ := r.mCustomConfigOptions order p
  obtain ⟨sections, hsections, htext⟩ := HasText.of_getConfigFile hcfg
  obtain ⟨verify, -, rfl⟩ := VpnProfile.sections_eq_some ctx configForOvpn3 _ hsections
  rw [emittedOptions, ← hp] at hargs
  generalize customOptions p.options = options at hargs hcustom huse
  have hne : options.length > 0 := by
    obtain ⟨v, hv, -⟩ := List.mem_flatten.1 hargs
    have hlen := (order.perm options).length_eq
    have hpos := List.length_pos_of_mem hv
    rw [List.length_map] at hlen
    omega
  rw [if_pos hne] at hcustom
  have huse : (r.profile order p).mUseCustomConfig = true := by rw [huse, decide_eq_true hne]
  have hsection := htext (r.profile order p).customSection (by simp)
  rw [VpnProfile.customSection, if_pos huse, hcustom, flatMap_getOptionStrings] at hsection
  obtain ⟨pre, post, hsplit⟩ := List.append_of_mem hargs
  rw [hsplit, List.flatMap_append, List.flatMap_cons] at hsection
  have hassoc : ∀ a b c s t u v : Text,
      a ++ (b ++ c ++ (s ++ (t ++ u))) ++ v = (a ++ b ++ c ++ s) ++ t ++ (u ++ v) := by simp
  rw [hassoc] at hsection
  apply hsection.part
  refine .append (.append (.append (by decide) (by decide)) (wholeLines_crlDirectory _)) ?_
  exact .flatMap fun args _ => wholeLines_optionString args

/-! ## What is read from a text of custom options -/

/-- The argument lists of a text that can be read, none otherwise. -/
def directivesOf : Except Thrown (List Entry) → List Args
  | .ok entries => directives entries
  | .error _ => []

/-- The line of the comment in front of the custom options. -/
def commentLine : Text :=
  "# These options found in the config file do not map to config settings:".toList

/-- The text after the comment is read from its first line on. -/
theorem optionLines_customComment (t : Text) :
    optionLines (customComment ++ t) =
      directivesOf (readEntries (readLines t).length (readLines t)) := by
  have hcomment : customComment ++ t = commentLine ++ '\n' :: t := by
    have hline : customComment = commentLine ++ ['\n'] := by decide
    rw [hline, List.append_assoc, List.singleton_append]
  have hlines : readLines (customComment ++ t) = commentLine :: readLines t := by
    rw [hcomment, readLines_line (by decide)]
  have hfirst : firstLine commentLine = .ok commentLine := by decide
  have hmeta : metaStart.isPrefixOf commentLine = false := by decide
  have hparse : parseline commentLine = .ok [] := by decide
  have hentries : entriesOf (customComment ++ t) =
      readEntries (readLines t).length (readLines t) := by
    rw [entriesOf, hlines]
    dsimp only
    rw [hfirst]
    dsimp only
    rw [readEntries, hmeta, if_neg Bool.false_ne_true, hparse]
  rw [optionLines, hentries]
  rfl

theorem stripDashes_ne_nil {read : Args} (h : read ≠ []) : stripDashes read ≠ [] := by
  unfold stripDashes
  split
  · exact List.cons_ne_nil _ _
  · exact h

/-- When a line that is not followed by others is read as given arguments. -/
theorem optionLines_line {l : Text} (hl : Unbroken l) (hmeta : metaStart.isPrefixOf l = false)
    {args : Args} (hne : args ≠ []) :
    optionLines (customComment ++ (l ++ "\n".toList)) = [args] ↔
      ∃ read, parseline l = .ok read ∧ stripDashes read = args ∧
        starttag (trim (args.headD [])) = none := by
  have hlines : readLines (l ++ "\n".toList) = [l] := readLines_line hl []
  rw [optionLines_customComment, hlines, List.length_singleton, readEntries, hmeta,
    if_neg Bool.false_ne_true]
  cases hparse : parseline l with
  | error e => simp [directivesOf]
  | ok read =>
      cases read with
      | nil =>
          have hnil : stripDashes [] = [] := rfl
          simp [readEntries, directivesOf, directives, hnil, Ne.symm hne]
      | cons arg0 rest =>
          have hread := stripDashes_ne_nil (List.cons_ne_nil arg0 rest)
          generalize hstrip : stripDashes (arg0 :: rest) = strip at hread
          simp only [Except.ok.injEq, exists_eq_left', hstrip]
          rw [checkinlinefile]
          cases htag : starttag (trim (strip.headD [])) with
          | none =>
              simp only [readEntries, Except.map, directivesOf, directives, List.filterMap_cons,
                List.filterMap_nil, List.cons.injEq, and_true]
              constructor
              · rintro rfl
                exact ⟨rfl, htag⟩
              · exact fun h => h.1
          | some argname =>
              refine iff_of_false (fun h => ?_) ?_
              · cases h
              · rintro ⟨rfl, hnone⟩
                rw [htag] at hnone
                cases hnone

/-! ## Options written as lines -/

theorem mem_escapedString {c : Char} {w : Text} (h : c ∈ escapedString w) :
    c = '\\' ∨ c = '"' ∨ c = 'n' ∨ c ∈ w ∧ c ≠ '\n' := by
  induction w with
  | nil => exact absurd h List.not_mem_nil
  | cons d w ih =>
      rw [escapedString_cons, List.mem_append] at h
      rcases h with h | h
      · split at h
        · rcases List.mem_pair.1 h with rfl | rfl <;> simp
        · split at h
          · rcases List.mem_pair.1 h with rfl | rfl <;> simp
          · split at h
            · rcases List.mem_pair.1 h with rfl | rfl <;> simp
            · rename_i hn
              rw [List.mem_singleton] at h
              subst h
              exact .inr (.inr (.inr ⟨List.mem_cons_self, hn⟩))
      · exact (ih h).imp_right (.imp_right (.imp_right (.imp_left (List.mem_cons_of_mem _))))

theorem unbroken_openVpnEscape {arg : Text} (h : '\r' ∉ arg) : Unbroken (openVpnEscape arg) := by
  by_cases hbare : Bare arg
  · rw [openVpnEscape_of_bare hbare]
    refine ⟨fun hmem => ?_, h⟩
    exact absurd (hbare.2 _ hmem) (by decide)
  · have hesc : ∀ c ∈ openVpnEscape arg, c = '\\' ∨ c = '"' ∨ c = 'n' ∨ c ∈ arg ∧ c ≠ '\n' := by
      intro c hc
      rw [openVpnEscape_of_not_bare hbare] at hc
      rcases List.mem_append.1 hc with hc | hc
      · rcases List.mem_cons.1 hc with hc | hc
        · exact .inr (.inl hc)
        · exact mem_escapedString hc
      · exact .inr (.inl (List.mem_singleton.1 hc))
    constructor
    · intro hmem
      rcases hesc _ hmem with h | h | h | ⟨-, h⟩
      · exact absurd h (by decide)
      · exact absurd h (by decide)
      · exact absurd h (by decide)
      · exact h rfl
    · intro hmem
      rcases hesc _ hmem with h' | h' | h' | ⟨h', -⟩
      · exact absurd h' (by decide)
      · exact absurd h' (by decide)
      · exact absurd h' (by decide)
      · exact h h'

theorem unbroken_escapedLine {args : Args} (h : ∀ arg ∈ args, '\r' ∉ arg) :
    Unbroken (escapedLine args) := by
  induction args with
  | nil => exact ⟨List.not_mem_nil, List.not_mem_nil⟩
  | cons arg args ih =>
      obtain ⟨harg, hargs⟩ := List.forall_mem_cons.1 h
      exact ((unbroken_openVpnEscape harg).append (by decide)).append (ih hargs)

/-- An escaped argument does not start a comment. -/
theorem exists_openVpnEscape (arg : Text) : ∃ c t, openVpnEscape arg = c :: t ∧ c ≠ '#' := by
  by_cases hbare : Bare arg
  · obtain ⟨c, w, rfl⟩ := List.exists_cons_of_ne_nil hbare.1
    refine ⟨c, w, openVpnEscape_of_bare hbare, ?_⟩
    rintro rfl
    exact absurd (hbare.2 _ List.mem_cons_self) (by decide)
  · exact ⟨'"', _, openVpnEscape_of_not_bare hbare, by decide⟩

theorem metaStart_escapedLine {args : Args} (hne : args ≠ []) :
    metaStart.isPrefixOf (escapedLine args) = false := by
  obtain ⟨arg, args, rfl⟩ := List.exists_cons_of_ne_nil hne
  obtain ⟨c, t, hc, hhash⟩ := exists_openVpnEscape arg
  have hstart : metaStart = '#' :: " OVPN_ACCESS_SERVER_".toList := rfl
  have hbeq : ('#' == c) = false := beq_false_of_ne (Ne.symm hhash)
  rw [escapedLine, List.flatMap_cons, hc, hstart]
  simp only [List.cons_append, List.isPrefixOf_cons_cons, hbeq, Bool.false_and]

/-- An argument list that its line of escaped arguments gives back. -/
def PassesAsLine (args : Args) : Prop :=
  (∀ arg ∈ args, OneLine arg ∧ RoundTrips arg) ∧ "--".toList.isPrefixOf (args.headD []) = false ∧
    starttag (trim (args.headD [])) = none

/-- What is read from a line, for a line that is read as its escaped arguments would be. -/
theorem optionLines_line_escaped {l : Text} (hl : Unbroken l)
    (hmeta : metaStart.isPrefixOf l = false) {args : Args} (hne : args ≠ [])
    (hparse : parseline l = parseline (escapedLine args)) :
    optionLines (customComment ++ (l ++ "\n".toList)) = [args] ↔ PassesAsLine args := by
  rw [optionLines_line hl hmeta hne]
  constructor
  · rintro ⟨read, hread, hstrip, htag⟩
    have hone := oneLine_of_parseline hl hread
    rw [hparse] at hread
    unfold stripDashes at hstrip
    split at hstrip
    · rename_i x rest
      subst hstrip
      obtain ⟨hx, hrest⟩ := List.forall_mem_cons.1 hone
      have hx' : OneLine x := fun c hc =>
        hx c (List.mem_cons_of_mem _ (List.mem_cons_of_mem _ hc))
      exact absurd hread (parseline_escapedLine_ne_dashes hx' hrest)
    · rename_i hdash
      subst hstrip
      refine ⟨fun arg harg => ⟨hone arg harg, ?_⟩, ?_, htag⟩
      · exact (parseline_escape_iff read hone).1 hread arg harg
      · obtain ⟨arg0, rest, rfl⟩ := List.exists_cons_of_ne_nil hne
        rw [Bool.eq_false_iff]
        intro hpre
        obtain ⟨x, hx⟩ := List.isPrefixOf_iff_prefix.1 hpre
        exact hdash x rest (congrArg (· :: rest) hx.symm)
  · rintro ⟨hall, hdash, htag⟩
    refine ⟨args, ?_, ?_, htag⟩
    · rw [hparse]
      exact (parseline_escape_iff args fun arg h => (hall arg h).1).2 fun arg h => (hall arg h).2
    · unfold stripDashes
      split
      · rename_i x rest
        cases hdash
      · rfl

theorem optionLines_escapedLine {args : Args} (hne : args ≠ [])
    (hret : ∀ arg ∈ args, '\r' ∉ arg) :
    optionLines (customComment ++ (escapedLine args ++ "\n".toList)) = [args] ↔
      PassesAsLine args :=
  optionLines_line_escaped (unbroken_escapedLine hret) (metaStart_escapedLine hne) hne rfl

/-! ## Options written as files -/

/-- The names of the options that are written as files. -/
def IsFileName (t : Text) : Prop := t = "extra-certs".toList ∨ t = "http-proxy-user-pass".toList

instance (t : Text) : Decidable (IsFileName t) := inferInstanceAs (Decidable (_ ∨ _))

/-- A name that is read as it was written, in front of a line and in the tags of a block. -/
structure TagName (t : Text) : Prop where
  oneWord : OneWord t
  word : Word t
  bare : Bare t
  unbroken : Unbroken t
  startLine : Unbroken (startLine t)
  endtag : Unbroken (endtag t)
  passes : PassesAsLine [t]

theorem IsFileName.tagName {t : Text} (h : IsFileName t) : TagName t := by
  rcases h with rfl | rfl
  · exact ⟨by unfold OneWord; decide, by decide, by decide, by decide, by decide, by decide,
      by unfold PassesAsLine OneLine; decide⟩
  · exact ⟨by unfold OneWord; decide, by decide, by decide, by decide, by decide, by decide,
      by unfold PassesAsLine OneLine; decide⟩

theorem TagName.metaStart {t : Text} (ht : TagName t) (u : Text) :
    metaStart.isPrefixOf (t ++ u) = false := by
  obtain ⟨c, w, hc, hhash⟩ := exists_openVpnEscape t
  have hstart : Config.metaStart = '#' :: " OVPN_ACCESS_SERVER_".toList := rfl
  have hbeq : ('#' == c) = false := beq_false_of_ne (Ne.symm hhash)
  rw [openVpnEscape_of_bare ht.bare] at hc
  rw [hc, hstart]
  simp only [List.cons_append, List.isPrefixOf_cons_cons, hbeq, Bool.false_and]

theorem TagName.passesAsLine_iff {t arg : Text} (ht : TagName t) (harg : OneLine arg) :
    PassesAsLine [t, arg] ↔ RoundTrips arg := by
  obtain ⟨hall, hdash, htag⟩ := ht.passes
  rw [List.forall_mem_singleton] at hall
  constructor
  · intro h
    exact (h.1 arg (List.mem_cons_of_mem _ List.mem_cons_self)).2
  · intro h
    refine ⟨List.forall_mem_cons.2 ⟨hall, ?_⟩, hdash, htag⟩
    exact List.forall_mem_singleton.2 ⟨harg, h⟩

/-- A file name is written after the name of the option, without a blank behind it. -/
theorem optionLines_fileLine {t arg : Text} (ht : TagName t) (harg : OneLine arg) :
    optionLines (customComment ++ (t ++ ' ' :: openVpnEscape arg ++ "\n".toList)) = [[t, arg]] ↔
      PassesAsLine [t, arg] := by
  have hret : '\r' ∉ arg := fun h => (harg _ h).2.2 rfl
  have hunbroken : Unbroken (t ++ ' ' :: openVpnEscape arg) :=
    ht.unbroken.append (Unbroken.append (s := [' ']) (by decide) (unbroken_openVpnEscape hret))
  exact optionLines_line_escaped hunbroken (ht.metaStart _) (List.cons_ne_nil _ _)
    (parseline_word_escape ht.word ht.bare harg)

/-- What is read first from the lines of a block is the block up to its first end tag. -/
theorem readEntries_startLine {t : Text} (ht : OneWord t) {n : Nat} {br : List Text} {args : Args}
    (h : directivesOf (readEntries (n + 1) (startLine t :: br)) = [args]) :
    ∃ lines, (∀ l ∈ lines, l ∈ br ∧ trim l ≠ endtag t) ∧
      args = [t, INLINE_TAG ++ joinLines lines] := by
  have hstrip : stripDashes [startLine t] = [startLine t] := rfl
  have htag : starttag (trim (List.headD [startLine t] [])) = some t := starttag_startLine t
  rw [readEntries, metaStart_startLine, if_neg Bool.false_ne_true, parseline_startLine ht] at h
  dsimp only at h
  rw [hstrip, checkinlinefile, htag] at h
  dsimp only at h
  cases hloop : inlineLoop t INLINE_TAG br with
  | none =>
      rw [hloop] at h
      cases h
  | some r =>
      obtain ⟨inlinefile, br'⟩ := r
      obtain ⟨lines, last, rfl, hall, rfl⟩ := inlineLoop_eq_some hloop
      rw [hloop] at h
      dsimp only at h
      rw [dropLast_lines (by decide)] at h
      refine ⟨lines, fun l hl => ⟨List.mem_append_left _ hl, hall l hl⟩, ?_⟩
      cases hrest : readEntries n br' with
      | error e =>
          rw [hrest] at h
          cases h
      | ok entries =>
          rw [hrest] at h
          exact (List.cons.inj h).1.symm

section Block

variable {t body : Text}

/-- The text of a block. -/
def blockText (t body : Text) : Text :=
  startLine t ++ '\n' :: (body ++ '\n' :: (endtag t ++ ['\n']))

theorem readLines_blockText (ht : TagName t) (hbody : '\r' ∉ body) :
    readLines (blockText t body) = startLine t :: (body.splitOn '\n' ++ [endtag t]) := by
  rw [blockText, readLines_line ht.startLine, readLines_body hbody, readLines_line ht.endtag]
  rfl

/-- Only an embedded file is read from a block. -/
theorem args_of_optionLines_block (ht : TagName t) (hbody : '\r' ∉ body) {args : Args}
    (h : optionLines (customComment ++ blockText t body) = [args]) :
    ∃ lines, (∀ l ∈ lines, l ∈ body.splitOn '\n' ++ [endtag t] ∧ trim l ≠ endtag t) ∧
      args = [t, INLINE_TAG ++ joinLines lines] := by
  rw [optionLines_customComment, readLines_blockText ht hbody, List.length_cons] at h
  exact readEntries_startLine ht.oneWord h

/-- **When a block is read as it was written**: when no line of its body is an end tag. -/
theorem optionLines_block (ht : TagName t) (hbody : '\r' ∉ body) :
    optionLines (customComment ++ blockText t body) = [[t, INLINE_TAG ++ body]] ↔
      ∀ l ∈ body.splitOn '\n', trim l ≠ endtag t := by
  constructor
  · intro h
    obtain ⟨lines, hlines, hargs⟩ := args_of_optionLines_block ht hbody h
    have hjoin : body = joinLines lines :=
      List.append_cancel_left (List.cons.inj (List.cons.inj hargs).2).1
    cases lines with
    | nil =>
        -- an empty body has one empty line
        have hempty : body = [] := hjoin
        intro l hl
        rw [hempty, List.splitOn_nil, List.mem_singleton] at hl
        rw [hl]
        exact fun htrim => List.cons_ne_nil _ _ htrim.symm
    | cons l ls =>
        have hnewline : ∀ l' ∈ l :: ls, '\n' ∉ l' := by
          intro l' hl'
          rcases List.mem_append.1 (hlines l' hl').1 with hmem | hmem
          · exact newline_notMem_of_mem_splitOn hmem
          · rw [List.mem_singleton.1 hmem]
            exact ht.endtag.1
        have hsplit : body.splitOn '\n' = l :: ls := by
          rw [hjoin]
          exact List.splitOn_intercalate '\n' hnewline (List.cons_ne_nil l ls)
        rw [hsplit]
        exact fun l' hl' => (hlines l' hl').2
  · intro hall
    rw [optionLines_customComment, readLines_blockText ht hbody, List.length_cons,
      readEntries_block ht.oneWord hall, joinLines_splitOn]
    cases (body.splitOn '\n' ++ [endtag t]).length with
    | zero => rfl
    | succ n => rfl

end Block

/-! ## Options that pass through a conversion -/

/-- **What is read from the file of an option**: the file, if it has the marker of an inline file and
no line of its body is its end tag, or if its name survives as a line. -/
theorem optionLines_insertFileData {t arg : Text} (ht : TagName t) (hwell : WellRead [t, arg]) :
    optionLines (customComment ++ insertFileData t (some arg)) = [[t, arg]] ↔
      if isEmbedded arg then
        INLINE_TAG.isPrefixOf arg ∧
          ∀ l ∈ (getEmbeddedContent arg).splitOn '\n', trim l ≠ endtag t
      else PassesAsLine [t, arg] := by
  have hretarg : '\r' ∉ arg := hwell.ne_return (by simp)
  by_cases hembedded : isEmbedded arg
  · rw [if_pos hembedded, insertFileData_embedded hembedded]
    have hbody : '\r' ∉ getEmbeddedContent arg :=
      fun hmem => hretarg ((getEmbeddedContent_suffix arg).mem hmem)
    by_cases hpre : INLINE_TAG.isPrefixOf arg
    · obtain ⟨body, rfl⟩ := List.isPrefixOf_iff_prefix.1 hpre
      rw [getEmbeddedContent_inline] at hbody ⊢
      rw [← blockText, optionLines_block ht hbody, and_iff_right hpre]
    · refine iff_of_false (fun h => ?_) (fun h => hpre h.1)
      obtain ⟨lines, -, hargs⟩ := args_of_optionLines_block ht hbody h
      apply hpre
      rw [(List.cons.inj (List.cons.inj hargs).2).1]
      exact List.isPrefixOf_iff_prefix.2 (List.prefix_append INLINE_TAG _)
  · rw [if_neg hembedded, insertFileData, if_neg hembedded]
    have hone : OneLine arg := by
      cases hwell with
      | line _ hall => exact hall arg (by simp)
      | inlinefile _ _ => exact absurd (isEmbedded_inline _) hembedded
    have htext := optionLines_fileLine ht hone
    simpa using htext

/-- The options that are read as they were given: a file if it has the marker of an inline file and
no line of its body is its end tag, everything else if it survives as a line. -/
def Passes (args : Args) : Prop :=
  if args.length = 2 ∧ IsFileName (args.arg 0) ∧ isEmbedded (args.arg 1) then
    INLINE_TAG.isPrefixOf (args.arg 1) ∧
      ∀ l ∈ (getEmbeddedContent (args.arg 1)).splitOn '\n', trim l ≠ endtag (args.arg 0)
  else PassesAsLine args

/-- **What is read from the text of one option.** -/
theorem optionLines_optionString {args : Args} (hwell : WellRead args)
    (hignore : ignoreThisOption args = false) :
    optionLines (customComment ++ optionString args) = [args] ↔ Passes args := by
  have hne : args ≠ [] := by
    cases hwell with
    | line hne _ => exact hne
    | inlinefile _ _ => exact List.cons_ne_nil _ _
  have hret : ∀ arg ∈ args, '\r' ∉ arg := fun arg harg => hwell.ne_return harg
  rw [Passes]
  by_cases hfile : args.length = 2 ∧ IsFileName (args.arg 0)
  · have htext : optionString args = insertFileData (args.arg 0) (some (args.arg 1)) := by
      rw [optionString, hignore, if_neg Bool.false_ne_true]
      exact if_pos hfile
    rw [htext]
    obtain ⟨hlen, hname⟩ := hfile
    obtain ⟨t, arg, rfl⟩ := List.length_eq_two.1 hlen
    have harg0 : Args.arg [t, arg] 0 = t := rfl
    have harg1 : Args.arg [t, arg] 1 = arg := rfl
    rw [harg0] at hname ⊢
    rw [harg1, optionLines_insertFileData hname.tagName hwell]
    by_cases hembedded : isEmbedded arg
    · rw [if_pos hembedded, if_pos ⟨hlen, hname, hembedded⟩]
    · rw [if_neg hembedded, if_neg (fun h => hembedded h.2.2)]
  · have htext : optionString args = escapedLine args ++ "\n".toList := by
      rw [optionString, hignore, if_neg Bool.false_ne_true]
      exact if_neg hfile
    rw [htext, if_neg (fun h => hfile ⟨h.1, h.2.1⟩)]
    exact optionLines_escapedLine hne hret

/-- **Which options pass through a conversion.** Every option that becomes a custom option stands in
the configuration file; an option that the conversion does not read becomes one and is read from its
text as it was given exactly if it is not displaced and survives being written. -/
theorem passThrough_iff {order : HashOrder} {reader : Text} {np : VpnProfile}
    (himport : importConfig order reader = .ok np) {args : Args}
    (hargs : args ∈ optionLines reader)
    (hname : ∀ name ∈ takenOptions, optionname args ≠ name.toList)
    (hignore : ignoreThisOption args = false) :
    (∀ emitted ∈ emittedOptions order reader, ∀ ctx configForOvpn3 cfg,
      np.getConfigFile ctx configForOvpn3 = some cfg → HasText cfg (optionString emitted)) ∧
    (args ∈ emittedOptions order reader ∧
        optionLines (customComment ++ optionString args) = [args] ↔
      ¬ Displaced reader args ∧ Passes args) := by
  refine ⟨?_, ?_⟩
  · intro emitted hemitted ctx configForOvpn3 cfg hcfg
    exact hasText_optionString himport hemitted hcfg
  · rw [mem_emittedOptions_iff order hargs hname,
      optionLines_optionString (wellRead_of_mem_optionLines args hargs) hignore]

/-- An inline file that is written as a block. -/
theorem passThrough_iff_file :
    ∃ np, importConfig insertionOrder "<extra-certs>\na\nb\n</extra-certs>\n".toList = .ok np ∧
      ["extra-certs".toList, "[[INLINE]]a\nb".toList] ∈
        emittedOptions insertionOrder "<extra-certs>\na\nb\n</extra-certs>\n".toList ∧
      optionLines (customComment ++
        optionString ["extra-certs".toList, "[[INLINE]]a\nb".toList]) =
          [["extra-certs".toList, "[[INLINE]]a\nb".toList]] := by
  have haccepts : Accepts "<extra-certs>\na\nb\n</extra-certs>\n".toList
      fun _ _ => true := by decide +kernel
  obtain ⟨np, -, hnp, -, -⟩ := exists_of_accepts haccepts
  have hnot : ¬ Displaced "<extra-certs>\na\nb\n</extra-certs>\n".toList
      ["extra-certs".toList, "[[INLINE]]a\nb".toList] :=
    fun h => absurd h.1 (by decide)
  have hpasses : Passes ["extra-certs".toList, "[[INLINE]]a\nb".toList] := by
    rw [Passes, if_pos (by decide)]
    decide
  exact ⟨np, hnp, ((passThrough_iff hnp (by decide +kernel) (by decide +kernel)
    (by decide)).2.2 ⟨hnot, hpasses⟩)⟩

/-- **An inline file under another name** is written as an argument that cannot be read. -/
theorem passThrough_counterexample :
    ∃ (order : HashOrder) (reader : Text) (np : VpnProfile) (args : Args),
      importConfig order reader = .ok np ∧ args ∈ optionLines reader ∧
      (∀ name ∈ takenOptions, optionname args ≠ name.toList) ∧ ignoreThisOption args = false ∧
      args ∈ emittedOptions order reader ∧
      optionLines (customComment ++ optionString args) ≠ [args] := by
  have haccepts : Accepts "<foo>\na\nb\n</foo>\n".toList fun _ _ => true := by decide +kernel
  obtain ⟨np, -, hnp, -, -⟩ := exists_of_accepts haccepts
  exact ⟨insertionOrder, _, np, ["foo".toList, "[[INLINE]]a\nb".toList], hnp, by decide +kernel,
    by decide +kernel, by decide, by decide +kernel, by decide⟩

end PortVpn.Config
