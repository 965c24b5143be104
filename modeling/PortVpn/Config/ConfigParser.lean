import PortVpn.Config.Parseline

/-!
# Reading a configuration

`parseConfig` reads a configuration line by line into a map from option names to the argument lists
given under that name, with the body of an inline file as the only argument of its option. The
lemmas on the map say what `getAllOption` and `getOption` find in it in terms of the lines of the
input (`find_collect`), and what an argument list can contain (`wellRead_of_mem_optionLines`).
-/

set_option autoImplicit false

namespace PortVpn.Config

open PortVpn.Lib

/-- How `parseConfig` and `convertProfile` end other than by a return: with a `ConfigParseError`,
with an index that the Java library rejects, or not at all. -/
inductive Thrown where
  | configParseError (e : ConfigParseError)
  | indexOutOfBounds
  | endlessLoop
  deriving DecidableEq, Repr

/-- `throw new ConfigParseError(msg)`. -/
def fail {α : Type} (msg : Text) : Except Thrown α := .error (.configParseError ⟨msg⟩)

theorem map_eq_ok {ε α β : Type} {f : α → β} {x : Except ε α} {b : β} (h : x.map f = .ok b) :
    ∃ a, x = .ok a ∧ f a = b := by
  cases x with
  | error e => exact nomatch h
  | ok a => exact ⟨a, rfl, Except.ok.inj h⟩

/-- `VpnProfile.INLINE_TAG`. -/
def INLINE_TAG : Text := "[[INLINE]]".toList

/-- The name of an option and its arguments. -/
abbrev Args := List Text

/-- One line or inline file of a configuration that `parseConfig` keeps. -/
inductive Entry where
  | metaarg (parts : List Text)
  | option (args : Args)
  deriving DecidableEq, Repr

/-! ## Lines -/

/-- The start of a comment in which OpenVPN Access Server keeps information. -/
def metaStart : Text := "# OVPN_ACCESS_SERVER_".toList

/-- `ConfigParser.parsemeta`: what follows the start of the comment, in two parts around the first
equals sign. -/
def parsemeta (line : Text) : List Text :=
  let info := line.drop metaStart.length
  if '=' ∈ info then [info.takeWhile (· ≠ '='), (info.dropWhile (· ≠ '=')).drop 1] else [info]

/-- The end tag of an inline file. -/
def endtag (argname : Text) : Text := "</".toList ++ argname ++ ">".toList

/-- The loop of `checkinlinefile`: the inline file, and the lines after its end tag. -/
def inlineLoop (argname inlinefile : Text) : List Text → Option (Text × List Text)
  | [] => none
  | line :: br =>
      if trim line = endtag argname then some (inlinefile, br)
      else inlineLoop argname (inlinefile ++ line ++ ['\n']) br

/-- The name in a start tag. -/
def starttag (arg0 : Text) : Option Text :=
  if arg0.head? = some '<' ∧ arg0.getLast? = some '>' then some (arg0.drop 1).dropLast else none

/-- `ConfigParser.checkinlinefile`: the arguments, and the lines that are left. -/
def checkinlinefile (args : Args) (br : List Text) : Except Thrown (Args × List Text) :=
  match starttag (trim (args.headD [])) with
  | none => .ok (args, br)
  | some argname =>
      match inlineLoop argname INLINE_TAG br with
      | none =>
          fail ("No endtag </".toList ++ argname ++ "> for starttag <".toList ++ argname ++
            "> found".toList)
      | some (inlinefile, br) =>
          .ok ([argname,
            if inlinefile.getLast? = some '\n' then inlinefile.dropLast else inlinefile], br)

/-- An option may be written as on a command line. -/
def stripDashes (args : Args) : Args :=
  match args with
  | ('-' :: '-' :: arg0) :: rest => arg0 :: rest
  | _ => args

/-- The loop of `parseConfig`. Every round takes a line, so that the number of lines bounds the
rounds. -/
def readEntries : Nat → List Text → Except Thrown (List Entry)
  | _, [] => .ok []
  | 0, _ :: _ => .ok []
  | n + 1, line :: br =>
      if metaStart.isPrefixOf line then
        (readEntries n br).map (.metaarg (parsemeta line) :: ·)
      else
        match parseline line with
        | .error e => .error (.configParseError e)
        | .ok [] => readEntries n br
        | .ok (arg0 :: rest) =>
            match checkinlinefile (stripDashes (arg0 :: rest)) br with
            | .error e => .error e
            | .ok (args, br) => (readEntries n br).map (.option args :: ·)

/-- The checks of the first line: an archive is refused, and a byte order mark is removed. Of the
source's second signature, the octal escapes are `\007` and `\00`, with an `8` behind. -/
def firstLine (line : Text) : Except Thrown Text :=
  if "PK\x03\x04".toList.isPrefixOf line ∨ "PK\x07\x008".toList.isPrefixOf line then
    fail ("Input looks like a ZIP Archive. Import is only possible for OpenVPN config files " ++
      "(.ovpn/.conf)").toList
  else .ok (if line.head? = some '\uFEFF' then line.drop 1 else line)

/-- The entries of a configuration, in the order of its lines. -/
def entriesOf (reader : Text) : Except Thrown (List Entry) :=
  match readLines reader with
  | [] => .ok []
  | line :: br =>
      match firstLine line with
      | .error e => .error e
      | .ok line => readEntries (br.length + 1) (line :: br)

/-! ## The map of options -/

/-- A `HashMap<String, Vector<Vector<String>>>`, as the list of its entries. -/
abbrev Options := List (Text × List Args)

namespace Options

/-- `HashMap.get`. -/
def find (name : String) : Options → Option (List Args)
  | [] => none
  | (key, v) :: o => if key = name.toList then some v else find name o

/-- `HashMap.remove`. -/
def remove (name : String) (o : Options) : Options := List.filter (fun e => e.1 ≠ name.toList) o

/-- `HashMap.put`. -/
def put (name : String) (v : List Args) : Options → Options
  | [] => [(name.toList, v)]
  | (key, w) :: o => if key = name.toList then (key, v) :: o else (key, w) :: put name v o

/-- Appends to the vector under a name, which is made when there is none. -/
def add (name : Text) (args : Args) : Options → Options
  | [] => [(name, [args])]
  | (key, v) :: o => if key = name then (key, v ++ [args]) :: o else (key, v) :: add name args o

end Options

/-- The name under which `parseConfig` keeps an argument list; one option has an alias. -/
def optionname (args : Args) : Text :=
  if args.headD [] = "server-poll-timeout".toList then "timeout-connect".toList else args.headD []

/-- The options and the server information that a parser has read. -/
structure ConfigParser where
  options : Options := []
  metaargs : List (Text × List Text) := []
  deriving DecidableEq, Repr

/-- `parseConfig`'s treatment of one entry. -/
def ConfigParser.keep (p : ConfigParser) : Entry → ConfigParser
  | .metaarg parts => { p with metaargs := (parts.headD [], parts) :: p.metaargs }
  | .option args => { p with options := Options.add (optionname args) args p.options }

/-- `meta.get`: the last information put under a name. -/
def ConfigParser.metaGet (p : ConfigParser) (name : Text) : Option (List Text) :=
  p.metaargs.lookup name

/-- `ConfigParser.parseConfig`. -/
def parseConfig (reader : Text) : Except Thrown ConfigParser :=
  (entriesOf reader).map fun entries => entries.foldl ConfigParser.keep {}

/-! ## What the map holds -/

/-- The argument lists among the entries, in the order of the input. -/
def directives (entries : List Entry) : List Args :=
  entries.filterMap fun
    | .metaarg _ => none
    | .option args => some args

/-- The option lines and inline files of a configuration, in the order of the input; none when the
configuration cannot be read. -/
def optionLines (reader : Text) : List Args :=
  match entriesOf reader with
  | .ok entries => directives entries
  | .error _ => []

/-- The argument lists given under a name. -/
def given (name : String) (ds : List Args) : List Args :=
  ds.filter fun args => optionname args == name.toList

namespace Options

variable {o : Options} {name other : String} {key : Text} {args : Args} {e : Text × List Args}

theorem find_eq_none_iff : find name o = none ↔ ∀ e ∈ o, e.1 ≠ name.toList := by
  induction o with
  | nil => simp [find]
  | cons e o ih =>
      obtain ⟨key, v⟩ := e
      by_cases h : key = name.toList <;> simp [find, h, ih]

theorem mem_of_find {v : List Args} (h : find name o = some v) : (name.toList, v) ∈ o := by
  induction o with
  | nil => simp [find] at h
  | cons e o ih =>
      obtain ⟨key, w⟩ := e
      simp only [find] at h
      split at h
      · simp_all
      · exact List.mem_cons_of_mem _ (ih h)

theorem find_remove : find other (remove name o) = if name = other then none else find other o := by
  induction o with
  | nil => simp [find, remove]
  | cons e o ih =>
      obtain ⟨key, v⟩ := e
      rw [remove, List.filter_cons, ← remove]
      by_cases hk : key = name.toList
      · subst hk
        rw [if_neg (by simp), ih]
        by_cases ho : name = other
        · simp [ho]
        · rw [if_neg ho, if_neg ho, find, if_neg (by simpa [String.toList_inj] using ho)]
      · rw [if_pos (by simpa using hk), find, find, ih]
        by_cases ho : name = other
        · subst ho
          simp [hk]
        · simp [ho]

theorem mem_remove : e ∈ remove name o ↔ e ∈ o ∧ e.1 ≠ name.toList := by
  simp [remove]

theorem find_put {v : List Args} :
    find other (put name v o) = if name = other then some v else find other o := by
  induction o with
  | nil => by_cases h : name = other <;> simp [find, put, h, String.toList_inj]
  | cons e o ih =>
      obtain ⟨key, w⟩ := e
      rw [put]
      by_cases hk : key = name.toList
      · subst hk
        by_cases ho : name = other <;> simp [ho, find, String.toList_inj]
      · rw [if_neg hk, find, find, ih]
        by_cases ho : name = other
        · subst ho
          simp [hk]
        · simp [ho]

theorem find_add :
    find other (add key args o) =
      if key = other.toList then some ((find other o).getD [] ++ [args]) else find other o := by
  induction o with
  | nil => by_cases h : key = other.toList <;> simp [find, add, h]
  | cons e o ih =>
      obtain ⟨k, v⟩ := e
      by_cases hk : k = key <;> by_cases ho : key = other.toList <;> simp_all [find, add]

theorem mem_add (h : e ∈ add key args o) :
    e ∈ o ∨ (e.1 = key ∧ ∃ v, e.2 = v ++ [args] ∧ (v = [] ∨ (key, v) ∈ o)) := by
  induction o with
  | nil => simp_all [add]
  | cons a o ih =>
      obtain ⟨k, v⟩ := a
      simp only [add] at h
      split at h
      · rcases List.mem_cons.1 h with rfl | h
        · rename_i hk
          exact .inr ⟨hk, v, rfl, .inr (hk ▸ List.mem_cons_self)⟩
        · exact .inl (List.mem_cons_of_mem _ h)
      · rcases List.mem_cons.1 h with rfl | h
        · exact .inl List.mem_cons_self
        · rcases ih h with h | ⟨hn, v, hv, hm⟩
          · exact .inl (List.mem_cons_of_mem _ h)
          · exact .inr ⟨hn, v, hv, hm.imp_right (List.mem_cons_of_mem _)⟩

end Options

/-- The map that `parseConfig` makes of argument lists. -/
def collect (ds : List Args) : Options :=
  ds.foldl (fun o args => o.add (optionname args) args) []

theorem foldl_keep_options (entries : List Entry) (p : ConfigParser) :
    (entries.foldl ConfigParser.keep p).options =
      (directives entries).foldl (fun o args => o.add (optionname args) args) p.options := by
  induction entries generalizing p with
  | nil => rfl
  | cons e entries ih =>
      rw [List.foldl_cons, ih]
      cases e with
      | metaarg parts => rfl
      | option args => rfl

/-- The options of a parser are those of the input's argument lists. -/
theorem parseConfig_ok {reader : Text} {p : ConfigParser} (h : parseConfig reader = .ok p) :
    p.options = collect (optionLines reader) := by
  rw [parseConfig] at h
  obtain ⟨entries, he, rfl⟩ := map_eq_ok h
  rw [optionLines, he]
  exact foldl_keep_options entries {}

theorem find_foldl_add (name : String) (ds : List Args) (o : Options) :
    Options.find name (ds.foldl (fun o args => o.add (optionname args) args) o) =
      if given name ds = [] then o.find name
      else some ((o.find name).getD [] ++ given name ds) := by
  induction ds generalizing o with
  | nil => simp [given]
  | cons args ds ih =>
      rw [List.foldl_cons, ih, Options.find_add]
      by_cases hn : optionname args = name.toList
      · have hg : given name (args :: ds) = args :: given name ds := by simp [given, hn]
        rw [hg, if_pos hn]
        split
        · rename_i h
          simp [h]
        · simp
      · have hg : given name (args :: ds) = given name ds := by simp [given, hn]
        rw [hg, if_neg hn]

/-- **What the map holds under a name**: the argument lists given under it, in the order of the
input, and nothing when there is none. -/
theorem find_collect (name : String) (ds : List Args) :
    (collect ds).find name = if given name ds = [] then none else some (given name ds) := by
  rw [collect, find_foldl_add]
  rfl

theorem mem_foldl_add {ds : List Args} {o : Options} {e : Text × List Args}
    (h : e ∈ ds.foldl (fun o args => o.add (optionname args) args) o) :
    ∀ args ∈ e.2, (∃ v, (e.1, v) ∈ o ∧ args ∈ v) ∨ (args ∈ ds ∧ optionname args = e.1) := by
  induction ds generalizing o with
  | nil => exact fun args ha => .inl ⟨e.2, h, ha⟩
  | cons d ds ih =>
      intro args ha
      rcases ih h args ha with ⟨v, hv, hav⟩ | ⟨hm, hn⟩
      · rcases Options.mem_add hv with hv | ⟨hname, w, rfl, hw⟩
        · exact .inl ⟨v, hv, hav⟩
        · rcases List.mem_append.1 hav with haw | had
          · rcases hw with rfl | hw
            · simp at haw
            · exact .inl ⟨w, by rw [hname]; exact hw, haw⟩
          · obtain rfl := List.mem_singleton.1 had
            exact .inr ⟨List.mem_cons_self, hname.symm⟩
      · exact .inr ⟨List.mem_cons_of_mem _ hm, hn⟩

/-- Every argument list in the map was given under its name. -/
theorem mem_collect {ds : List Args} {e : Text × List Args} (h : e ∈ collect ds) {args : Args}
    (ha : args ∈ e.2) : args ∈ ds ∧ optionname args = e.1 := by
  rcases mem_foldl_add h args ha with ⟨v, hv, -⟩ | h
  · exact absurd hv List.not_mem_nil
  · exact h

/-! ## What an argument list contains -/

/-- The characters that the loop of `parseline` has taken satisfy `P`, and no argument has a zero
byte. -/
structure Parse.From (P : Char → Prop) (s : Parse) : Prop where
  out : s.out = '\x00' ∨ P s.out
  currentarg : ∀ c ∈ s.currentarg, c ≠ '\x00' ∧ P c
  parameters : ∀ arg ∈ s.parameters, ∀ c ∈ arg, c ≠ '\x00' ∧ P c

namespace Parse.From

variable {P : Char → Prop} {s s' : Parse} {c : Char}

theorem interpret (hs : s.From P) (hc : c = '\x00' ∨ P c) (h : s.interpret c = some s') :
    s'.From P := by
  rw [Parse.interpret] at h
  repeat' split at h
  all_goals
    cases h <;> exact ⟨by first | exact hc | exact hs.out, hs.currentarg, hs.parameters⟩

theorem finish (hs : s.From P) : s.finish.From P := by
  rw [Parse.finish]
  split
  · refine ⟨.inl rfl, by simp, ?_⟩
    intro arg ha
    rcases List.mem_append.1 ha with ha | ha
    · exact hs.parameters arg ha
    · obtain rfl := List.mem_singleton.1 ha
      exact hs.currentarg
  · exact hs

theorem store (hs : s.From P) : s.store.From P := by
  rw [Parse.store]
  split
  · rename_i h0
    have h0 : s.out ≠ '\x00' := by simpa using h0
    refine ⟨hs.out, ?_, hs.parameters⟩
    intro c hc
    rcases List.mem_append.1 hc with hc | hc
    · exact hs.currentarg c hc
    · obtain rfl := List.mem_singleton.1 hc
      exact ⟨h0, hs.out.resolve_left h0⟩
  · exact hs

theorem backslash (hs : s.From P) (b : Bool) : ({ s with backslash := b } : Parse).From P :=
  ⟨hs.out, hs.currentarg, hs.parameters⟩

end Parse.From

theorem parselineLoop_from {P : Char → Prop} {t : Text} {s : Parse} {args : List Text}
    (hs : s.From P) (ht : ∀ c ∈ t, c = '\x00' ∨ P c) (h : parselineLoop s t = .ok args) :
    ∀ arg ∈ args, ∀ c ∈ arg, c ≠ '\x00' ∧ P c := by
  induction t generalizing s with
  | nil =>
      obtain rfl := Except.ok.inj h
      exact hs.parameters
  | cons c t ih =>
      have htail := fun d hd => ht d (List.mem_cons_of_mem _ hd)
      rw [parselineLoop] at h
      split at h
      · exact ih (hs.backslash true).store htail h
      · split at h
        · obtain rfl := Except.ok.inj h
          exact hs.parameters
        · rename_i s' hi
          simp only at h
          split at h
          · cases h
          · have := (hs.interpret (ht c List.mem_cons_self) hi).finish
            exact ih (this.backslash false).store htail h

/-- The characters of an argument are characters of the line, other than a zero byte. -/
theorem mem_of_parseline {line : Text} {args : List Text} (h : parseline line = .ok args) :
    ∀ arg ∈ args, ∀ c ∈ arg, c ≠ '\x00' ∧ c ∈ line := by
  rw [parseline] at h
  split at h
  · obtain rfl := Except.ok.inj h
    simp
  · refine parselineLoop_from ⟨.inl rfl, by simp, by simp⟩ ?_ h
    intro c hc
    rcases List.mem_append.1 hc with hc | hc
    · exact .inr hc
    · exact .inl (List.mem_singleton.1 hc)

theorem oneLine_of_parseline {line : Text} {args : List Text} (hl : Unbroken line)
    (h : parseline line = .ok args) : ∀ arg ∈ args, OneLine arg := by
  intro arg ha c hc
  obtain ⟨h0, hm⟩ := mem_of_parseline h arg ha c hc
  refine ⟨h0, ?_, ?_⟩ <;> rintro rfl
  · exact hl.1 hm
  · exact hl.2 hm

theorem oneLine_stripDashes {args : Args} (h : ∀ arg ∈ args, OneLine arg) :
    ∀ arg ∈ stripDashes args, OneLine arg := by
  unfold stripDashes
  split
  · rename_i arg0 rest
    intro arg ha
    rcases List.mem_cons.1 ha with rfl | ha
    · exact fun c hc => h _ List.mem_cons_self c
        (List.mem_cons_of_mem _ (List.mem_cons_of_mem _ hc))
    · exact h arg (List.mem_cons_of_mem _ ha)
  · exact h

/-- The lines of an inline file in one text. -/
def joinLines (lines : List Text) : Text := List.intercalate ['\n'] lines

/-- What `parseConfig` can read as an option: the arguments of one line, or an inline file. -/
inductive WellRead : Args → Prop where
  | line {args : Args} (hne : args ≠ []) (h : ∀ arg ∈ args, OneLine arg) : WellRead args
  | inlinefile {argname : Text} {lines : List Text} (hname : OneLine argname)
      (h : ∀ l ∈ lines, Unbroken l ∧ trim l ≠ endtag argname) :
      WellRead [argname, INLINE_TAG ++ joinLines lines]

/-- The inline loop takes the lines before the end tag. -/
theorem inlineLoop_eq_some {argname file inlinefile : Text} {br br' : List Text}
    (h : inlineLoop argname file br = some (inlinefile, br')) :
    ∃ lines last, br = lines ++ last :: br' ∧ (∀ l ∈ lines, trim l ≠ endtag argname) ∧
      inlinefile = file ++ lines.flatMap (· ++ ['\n']) := by
  induction br generalizing file with
  | nil => exact nomatch h
  | cons line br ih =>
      rw [inlineLoop] at h
      split at h
      · cases h
        exact ⟨[], line, rfl, by simp, by simp⟩
      · rename_i hend
        obtain ⟨lines, last, rfl, hl, rfl⟩ := ih h
        refine ⟨line :: lines, last, rfl, ?_, by simp⟩
        intro l hm
        rcases List.mem_cons.1 hm with rfl | hm
        · exact hend
        · exact hl l hm

theorem joinLines_concat (lines : List Text) (h : lines ≠ []) :
    joinLines lines ++ ['\n'] = lines.flatMap (· ++ ['\n']) := by
  induction lines with
  | nil => exact absurd rfl h
  | cons l lines ih =>
      cases lines with
      | nil => simp [joinLines]
      | cons l' lines =>
          rw [List.flatMap_cons, ← ih (by simp)]
          simp [joinLines, List.intercalate]

/-- The line break after the last line is taken off. -/
theorem dropLast_lines {file : Text} (hf : file.getLast? ≠ some '\n') (lines : List Text) :
    (if (file ++ lines.flatMap (· ++ ['\n'])).getLast? = some '\n'
      then (file ++ lines.flatMap (· ++ ['\n'])).dropLast
      else file ++ lines.flatMap (· ++ ['\n'])) = file ++ joinLines lines := by
  cases lines with
  | nil => simp [hf, joinLines]
  | cons l lines =>
      rw [← joinLines_concat _ (by simp), ← List.append_assoc, List.getLast?_concat, if_pos rfl,
        List.dropLast_concat]

theorem mem_of_mem_starttag {arg0 argname : Text} (h : starttag arg0 = some argname) {c : Char}
    (hc : c ∈ argname) : c ∈ arg0 := by
  rw [starttag] at h
  split at h
  · cases h
    exact List.mem_of_mem_drop ((List.dropLast_sublist _).mem hc)
  · exact nomatch h

theorem wellRead_of_checkinlinefile {args args' : Args} {br br' : List Text} (hne : args ≠ [])
    (hargs : ∀ arg ∈ args, OneLine arg) (hbr : ∀ l ∈ br, Unbroken l)
    (h : checkinlinefile args br = .ok (args', br')) :
    WellRead args' ∧ ∀ l ∈ br', Unbroken l := by
  rw [checkinlinefile] at h
  split at h
  · cases h
    exact ⟨.line hne hargs, hbr⟩
  · rename_i argname htag
    split at h
    · exact nomatch h
    · rename_i file br'' hloop
      obtain ⟨rfl, rfl⟩ := Prod.mk.inj (Except.ok.inj h)
      obtain ⟨lines, last, rfl, hend, rfl⟩ := inlineLoop_eq_some hloop
      rw [dropLast_lines (by decide)]
      refine ⟨.inlinefile ?_ fun l hl => ⟨hbr l (by simp [hl]), hend l hl⟩,
        fun l hl => hbr l (by simp [hl])⟩
      intro c hc
      obtain ⟨arg0, rest, rfl⟩ := List.exists_cons_of_ne_nil hne
      exact hargs arg0 List.mem_cons_self c (mem_of_mem_trim (mem_of_mem_starttag htag hc))

theorem wellRead_of_mem_readEntries {n : Nat} {br : List Text} {entries : List Entry}
    (hbr : ∀ l ∈ br, Unbroken l) (h : readEntries n br = .ok entries) :
    ∀ args ∈ directives entries, WellRead args := by
  induction n generalizing br entries with
  | zero =>
      cases br with
      | nil | cons line br => cases h; simp [directives]
  | succ n ih =>
      cases br with
      | nil => cases h; simp [directives]
      | cons line br =>
          have hline := hbr line List.mem_cons_self
          have htail := fun l hl => hbr l (List.mem_cons_of_mem line hl)
          rw [readEntries] at h
          split at h
          · obtain ⟨es, he, rfl⟩ := map_eq_ok h
            show ∀ args ∈ directives es, WellRead args
            exact ih htail he
          · split at h
            · exact nomatch h
            · exact ih htail h
            · rename_i arg0 rest hparse
              split at h
              · exact nomatch h
              · rename_i args br' hcheck
                have hone := oneLine_stripDashes (oneLine_of_parseline hline hparse)
                have hne : stripDashes (arg0 :: rest) ≠ [] := by
                  unfold stripDashes
                  split <;> simp
                obtain ⟨hwell, hbr'⟩ := wellRead_of_checkinlinefile hne hone htail hcheck
                obtain ⟨es, he, rfl⟩ := map_eq_ok h
                intro a ha
                rcases List.mem_cons.1 ha with rfl | ha
                · exact hwell
                · exact ih hbr' he a ha

theorem wellRead_of_mem_entriesOf {reader : Text} {entries : List Entry}
    (h : entriesOf reader = .ok entries) : ∀ args ∈ directives entries, WellRead args := by
  rw [entriesOf] at h
  have hall : ∀ l ∈ readLines reader, Unbroken l := fun l hl => unbroken_of_mem_readLines hl
  split at h
  · cases h
    simp [directives]
  · rename_i line br hread
    rw [hread] at hall
    split at h
    · exact nomatch h
    · rename_i line' hfirst
      refine wellRead_of_mem_readEntries ?_ h
      intro l hl
      rcases List.mem_cons.1 hl with rfl | hl
      · have hline := hall line List.mem_cons_self
        rw [firstLine] at hfirst
        split at hfirst
        · exact nomatch hfirst
        · cases hfirst
          split
          · exact ⟨fun h => hline.1 (List.mem_of_mem_drop h),
              fun h => hline.2 (List.mem_of_mem_drop h)⟩
          · exact hline
      · exact hall l (List.mem_cons_of_mem _ hl)

/-- **Whatever `parseConfig` keeps is the arguments of a line or an inline file.** -/
theorem wellRead_of_mem_optionLines {reader : Text} :
    ∀ args ∈ optionLines reader, WellRead args := by
  rw [optionLines]
  cases h : entriesOf reader with
  | error e => simp
  | ok entries => exact wellRead_of_mem_entriesOf h

theorem mem_joinLines {lines : List Text} {c : Char} (h : c ∈ joinLines lines) :
    c = '\n' ∨ ∃ l ∈ lines, c ∈ l := by
  cases hl : lines with
  | nil => simp [hl, joinLines] at h
  | cons l ls =>
      have hmem : c ∈ lines.flatMap (· ++ ['\n']) := by
        rw [← joinLines_concat lines (by simp [hl])]
        exact List.mem_append_left _ h
      obtain ⟨l, hl', hc⟩ := List.mem_flatMap.1 hmem
      rcases List.mem_append.1 hc with hc | hc
      · exact .inr ⟨l, hl ▸ hl', hc⟩
      · exact .inl (List.mem_singleton.1 hc)

/-- No argument contains a carriage return. -/
theorem WellRead.ne_return {args : Args} (h : WellRead args) {arg : Text} (ha : arg ∈ args) :
    '\r' ∉ arg := by
  cases h with
  | line _ hone => exact fun hc => (hone arg ha _ hc).2.2 rfl
  | inlinefile hname hlines =>
      intro hc
      simp only [List.mem_cons, List.not_mem_nil, or_false] at ha
      rcases ha with rfl | rfl
      · exact (hname _ hc).2.2 rfl
      · rcases List.mem_append.1 hc with hc | hc
        · exact absurd hc (by decide)
        · rcases mem_joinLines hc with hc | ⟨l, hl, hc⟩
          · exact absurd hc (by decide)
          · exact (hlines l hl).1.2 hc

end PortVpn.Config
