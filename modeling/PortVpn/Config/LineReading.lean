import PortVpn.Config.LineGrammar

/-!
# What `parseline` reads

`parseline` keeps its output character from one round to the next: a backslash inside an argument
stores the character before it once more. Between arguments it skips white space behind a backslash
as if there were none, takes `\;` and `\#` for comments and needs no white space behind a closing
quote; at the end of the line it drops what is open. `parseline_conforms` says what is left of the
grammar.
-/

set_option autoImplicit false

namespace PortVpn.Config

open PortVpn.Lib

/-! ## Pieces -/

/-- What the loop stores for pieces when it last put out `out`. -/
def stored : Char → List Piece → Text
  | _, [] => []
  | _, .plain c :: ps => c :: stored c ps
  | out, .escaped c :: ps => (if out ≠ '\x00' then [out] else []) ++ c :: stored c ps

/-- The last character that was put out. -/
def lastOut : Char → List Piece → Char
  | out, [] => out
  | _, p :: ps => lastOut p.char ps

/-- What ends an argument in a state. -/
def Linestate.closes : Linestate → Char → Bool
  | .readingUnquoted, c => space c
  | _, c => c == '"'

/-- The states in which a backslash quotes. -/
def Linestate.Escaping (state : Linestate) : Prop :=
  state = .readingUnquoted ∨ state = .readingQuoted

variable {st : Linestate} {out c : Char} {cur t : Text} {ps : List Piece}

theorem parselineLoop_nil (s : Parse) : parselineLoop s [] = .ok s.parameters := rfl

/-- The end of an argument. -/
theorem parselineLoop_close (out : Char) (hstate : st.Escaping) (hclose : st.closes c) (t : Text) :
    parselineLoop { state := st, out := out, currentarg := cur } (c :: t) =
      (parselineLoop {} t).map (cur :: ·) := by
  have hback : c ≠ '\\' := by
    rintro rfl
    rcases hstate with rfl | rfl
    · exact absurd hclose (by decide)
    · exact absurd hclose (by decide)
  rw [parselineLoop_round rfl hback, ← parselineLoop_done]
  rcases hstate with rfl | rfl
  · have hspace : space c := hclose
    simp [Parse.interpret, hspace, Parse.finish, Parse.store]
  · have hquote : (c == '"') = true := hclose
    simp [Parse.interpret, hquote, Parse.finish, Parse.store]

theorem parselineLoop_plain (hstate : st.Escaping)
    (hc : (Piece.plain c).WellFormed st.closes) (hnul : c ≠ '\x00') (t : Text) :
    parselineLoop { state := st, out := out, currentarg := cur } (c :: t) =
      parselineLoop { state := st, out := c, currentarg := cur ++ [c] } t := by
  rw [parselineLoop_round rfl hc.2]
  have hclose := hc.1
  rcases hstate with rfl | rfl
  · have hspace : space c = false := hclose
    simp [Parse.interpret, hspace, Parse.finish, Parse.store, hnul]
  · have hquote : (c == '"') = false := hclose
    simp [Parse.interpret, hquote, Parse.finish, Parse.store, hnul]

/-- A backslash stores the last output character again. -/
theorem parselineLoop_backslash (hstate : st.Escaping) (t : Text) :
    parselineLoop { state := st, out := out, currentarg := cur } ('\\' :: t) =
      parselineLoop { state := st, backslash := true, out := out,
                      currentarg := cur ++ if out ≠ '\x00' then [out] else [] } t := by
  have hsingle : st ≠ .readinSingleQuote := by
    rcases hstate with rfl | rfl
    · decide
    · decide
  rw [parselineLoop]
  simp only [Parse.quotes, Parse.store]
  by_cases hout : out = '\x00'
  · simp [hsingle, hout]
  · simp [hsingle, hout]

/-- A character behind a backslash is stored if a backslash may precede it. -/
theorem parselineLoop_quoted_char (hstate : st.Escaping) (hc : escapable c) (hnul : c ≠ '\x00')
    (t : Text) :
    parselineLoop { state := st, backslash := true, out := out, currentarg := cur } (c :: t) =
      parselineLoop { state := st, out := c, currentarg := cur ++ [c] } t := by
  have hbad : (c == '\\' || c == '"' || space c) = true := hc
  rcases hstate with rfl | rfl
  · simp [parselineLoop, Parse.quotes, Parse.interpret, Parse.finish, Parse.badBackslash,
      Parse.store, hnul, hbad]
  · simp [parselineLoop, Parse.quotes, Parse.interpret, Parse.finish, Parse.badBackslash,
      Parse.store, hnul, hbad]

/-- A character that may not follow a backslash is an error. -/
theorem parselineLoop_bad {s s' : Parse} (hquotes : s.quotes c = false)
    (hinterpret : s.interpret c = some s') (hbad : s'.finish.badBackslash = true) (t : Text) :
    ∃ e, parselineLoop s (c :: t) = .error e := by
  rw [parselineLoop, hquotes, if_neg Bool.false_ne_true, hinterpret]
  simp only [hbad, if_true]
  exact ⟨_, rfl⟩

theorem parselineLoop_quoted_bad (hstate : st.Escaping) (hc : ¬ escapable c) (hnul : c ≠ '\x00')
    (t : Text) : ∃ e,
    parselineLoop { state := st, backslash := true, out := out, currentarg := cur } (c :: t) =
      .error e := by
  have hbad : (c == '\\' || c == '"' || space c) = false := Bool.eq_false_iff.2 hc
  have hinterpret : ({ state := st, backslash := true, out := out, currentarg := cur } : Parse
      ).interpret c = some { state := st, backslash := true, out := c, currentarg := cur } := by
    rcases hstate with rfl | rfl
    · simp [Parse.interpret]
    · simp [Parse.interpret]
  apply parselineLoop_bad (by simp [Parse.quotes]) hinterpret
  rcases hstate with rfl | rfl
  · simp [Parse.finish, Parse.badBackslash, hbad, hnul]
  · simp [Parse.finish, Parse.badBackslash, hbad, hnul]

/-- **The run over the pieces of an argument.** -/
theorem parselineLoop_pieces (hstate : st.Escaping)
    (hps : ∀ p ∈ ps, p.WellFormed st.closes ∧ p.char ≠ '\x00') (out : Char) (cur t : Text) :
    parselineLoop { state := st, out := out, currentarg := cur } (written ps ++ t) =
      parselineLoop { state := st, out := lastOut out ps, currentarg := cur ++ stored out ps }
        t := by
  induction ps generalizing out cur with
  | nil => simp [stored, lastOut]
  | cons p ps ih =>
      obtain ⟨⟨hp, hnul⟩, htail⟩ := List.forall_mem_cons.1 hps
      cases p with
      | plain c =>
          rw [written_plain, List.cons_append, parselineLoop_plain hstate hp hnul, ih htail,
            stored, lastOut, List.append_assoc]
          rfl
      | escaped c =>
          rw [written_escaped, List.cons_append, List.cons_append,
            parselineLoop_backslash hstate, parselineLoop_quoted_char hstate hp hnul, ih htail,
            stored, lastOut, List.append_assoc, List.append_assoc]
          rfl

/-- Pieces are stored in full; a backslash in the middle of them stores a character too many. -/
theorem length_le_stored (ps : List Piece) (out : Char) : ps.length ≤ (stored out ps).length := by
  induction ps generalizing out with
  | nil => exact le_refl _
  | cons p ps ih =>
      cases p with
      | plain c => exact Nat.succ_le_succ (ih c)
      | escaped c =>
          have := ih c
          simp only [stored, List.length_append, List.length_cons]
          omega

/-- A piece without a backslash. -/
def Piece.IsPlain : Piece → Prop
  | .plain _ => True
  | .escaped _ => False

theorem stored_eq_iff (hout : out ≠ '\x00') (hps : ∀ p ∈ ps, p.char ≠ '\x00') :
    stored out ps = ps.map Piece.char ↔ ∀ p ∈ ps, p.IsPlain := by
  induction ps generalizing out with
  | nil => simp [stored]
  | cons p ps ih =>
      obtain ⟨hnul, htail⟩ := List.forall_mem_cons.1 hps
      rw [List.forall_mem_cons]
      cases p with
      | plain c =>
          rw [stored, List.map_cons]
          simp only [Piece.char, List.cons.injEq, true_and, Piece.IsPlain]
          exact ih hnul htail
      | escaped c =>
          -- the text is longer than what the pieces denote
          constructor
          · intro heq
            have hlength := congrArg List.length heq
            have := length_le_stored ps c
            rw [stored, if_pos hout] at hlength
            simp only [List.length_append, List.length_cons, List.length_nil, List.length_map]
              at hlength
            omega
          · rintro ⟨hplain, -⟩
            exact hplain.elim

/-! ## Arguments -/

/-- A text without a zero byte. -/
def NulFree (t : Text) : Prop := ∀ c ∈ t, c ≠ '\x00'

instance : DecidablePred NulFree := fun t => decidableForallChar (t := t)

theorem NulFree.cons (h : NulFree (c :: t)) : c ≠ '\x00' ∧ NulFree t := List.forall_mem_cons.1 h

theorem NulFree.append {s : Text} (h : NulFree (s ++ t)) : NulFree s ∧ NulFree t :=
  List.forall_mem_append.1 h

theorem NulFree.pieces (h : NulFree (written ps)) : ∀ p ∈ ps, p.char ≠ '\x00' := by
  intro p hp
  apply h
  apply List.mem_flatMap.2
  refine ⟨p, hp, ?_⟩
  cases p with
  | plain c => exact List.mem_singleton_self c
  | escaped c => exact List.mem_cons_of_mem _ (List.mem_singleton_self c)

namespace Argument

variable {a : Argument}

/-- What the loop stores for an argument. -/
def stored : Argument → Text
  | unquoted [] => []
  | unquoted (p :: ps) => p.char :: Config.stored p.char ps
  | double ps => Config.stored '\x00' ps
  | single t => t

/-- An argument that starts with white space behind a backslash, which the loop skips. -/
def Skipped : Argument → Prop
  | unquoted (p :: _) => p.EscapedSpace
  | _ => False

/-- A backslash quotes in the argument. -/
def Escapes : Argument → Prop
  | single _ => False
  | _ => True

/-- The state in which the argument is read. -/
def state : Argument → Linestate
  | unquoted _ => .readingUnquoted
  | double _ => .readingQuoted
  | single _ => .readinSingleQuote

/-- What is behind the argument ends it. -/
def Ends : Argument → Text → Prop
  | unquoted _, t => ∃ c u, t = c :: u ∧ space c
  | _, _ => True

/-- The only backslash is in front of the first character. -/
def Clean : Argument → Prop
  | unquoted [] => True
  | unquoted (p :: ps) => ¬ p.EscapedSpace ∧ ∀ q ∈ ps, q.IsPlain
  | double ps => ∀ q ∈ ps.tail, q.IsPlain
  | single _ => True

theorem Clean.not_skipped (h : a.Clean) : ¬ a.Skipped := by
  intro hskip
  cases a with
  | unquoted ps =>
      cases ps with
      | nil => exact hskip
      | cons p ps => exact h.1 hskip
  | double ps => exact hskip
  | single t => exact hskip

theorem Escapes.escaping (h : a.Escapes) : a.state.Escaping := by
  cases a with
  | unquoted ps => exact Or.inl rfl
  | double ps => exact Or.inr rfl
  | single t => exact h.elim

end Argument

/-- A backslash between arguments, in front of what may start one. -/
theorem parselineLoop_open_escaped (hc : escapable c) (hspace : space c = false) (t : Text) :
    parselineLoop {} ('\\' :: c :: t) =
      parselineLoop { state := .readingUnquoted, out := c, currentarg := [c] } t := by
  have hnul : c ≠ '\x00' := by
    rintro rfl
    exact absurd hspace (by decide)
  have hbad : (c == '\\' || c == '"') = true := by
    simpa [escapable, hspace] using hc
  have hcomment : c ≠ ';' ∧ c ≠ '#' := by
    constructor
    · rintro rfl
      exact absurd hbad (by decide)
    · rintro rfl
      exact absurd hbad (by decide)
  simp [parselineLoop, Parse.quotes, Parse.interpret, Parse.finish, Parse.badBackslash,
    Parse.store, hspace, hnul, hcomment, hbad]

/-- White space behind a backslash is skipped. -/
theorem parselineLoop_skip (hc : space c) (t : Text) :
    parselineLoop {} ('\\' :: c :: t) = parselineLoop {} t := by
  simp [parselineLoop, Parse.quotes, Parse.interpret, Parse.finish, Parse.badBackslash,
    Parse.store, hc]

/-- A comment ends the line, also behind a backslash. -/
theorem parselineLoop_comment (hc : c = ';' ∨ c = '#') (t : Text) :
    parselineLoop {} (c :: t) = .ok [] := by
  rcases hc with rfl | rfl
  · rfl
  · rfl

theorem parselineLoop_escaped_comment (hc : c = ';' ∨ c = '#') (t : Text) :
    parselineLoop {} ('\\' :: c :: t) = .ok [] := by
  rcases hc with rfl | rfl
  · rfl
  · rfl

/-- Nothing else may follow a backslash between arguments. -/
theorem parselineLoop_open_bad (hc : ¬ escapable c) (hcomment : c ≠ ';' ∧ c ≠ '#')
    (hnul : c ≠ '\x00') (t : Text) : ∃ e, parselineLoop {} ('\\' :: c :: t) = .error e := by
  have hbad : (c == '\\' || c == '"' || space c) = false := Bool.eq_false_iff.2 hc
  have hspace : space c = false := (Bool.or_eq_false_iff.1 hbad).2
  -- the first round takes the backslash, the second one the character behind it
  have hround : parselineLoop {} ('\\' :: c :: t) = parselineLoop { backslash := true } (c :: t) :=
    rfl
  have hinterpret : ({ backslash := true } : Parse).interpret c =
      some { backslash := true, out := c, state := .readingUnquoted } := by
    simp [Parse.interpret, hspace, hcomment]
  rw [hround]
  apply parselineLoop_bad (by simp [Parse.quotes]) hinterpret
  simp [Parse.finish, Parse.badBackslash, hbad, hnul]

/-- **An argument up to its end.** -/
theorem parselineLoop_opening {a : Argument} (hwf : a.WellFormed) (hnul : NulFree a.opening)
    (hskip : ¬ a.Skipped) (hescapes : a.Escapes) (t : Text) :
    ∃ out, parselineLoop {} (a.opening ++ t) =
      parselineLoop { state := a.state, out := out, currentarg := a.stored } t := by
  cases a with
  | unquoted ps =>
      obtain ⟨hps, p, hp, hstarts⟩ := hwf
      obtain ⟨ps, rfl⟩ := List.head?_eq_some_iff.1 hp
      obtain ⟨hfirst, hrest⟩ := List.forall_mem_cons.1 hps
      obtain ⟨-, hchars⟩ := List.forall_mem_cons.1 (NulFree.pieces hnul)
      refine ⟨lastOut p.char ps, ?_⟩
      cases p with
      | plain c =>
          rw [Argument.opening, written_plain, List.cons_append, parselineLoop_open_bare hstarts,
            parselineLoop_pieces (Or.inl rfl) fun q hq => ⟨hrest q hq, hchars q hq⟩]
          rfl
      | escaped c =>
          have hspace : space c = false := Bool.eq_false_iff.2 hskip
          rw [Argument.opening, written_escaped, List.cons_append, List.cons_append,
            parselineLoop_open_escaped hfirst hspace,
            parselineLoop_pieces (Or.inl rfl) fun q hq => ⟨hrest q hq, hchars q hq⟩]
          rfl
  | double ps =>
      have hchars := NulFree.pieces hnul.cons.2
      refine ⟨lastOut '\x00' ps, ?_⟩
      rw [Argument.opening, List.cons_append, parselineLoop_open_double,
        parselineLoop_pieces (Or.inr rfl) fun q hq => ⟨hwf q hq, hchars q hq⟩]
      rfl
  | single w => exact hescapes.elim

/-- **An argument** between others, as the loop reads it. -/
theorem parselineLoop_argument {a : Argument} (hwf : a.WellFormed) (hnul : NulFree a.source)
    (hskip : ¬ a.Skipped) (hends : a.Ends t) :
    parselineLoop {} (a.source ++ t) = (parselineLoop {} t).map (a.stored :: ·) := by
  cases a with
  | unquoted ps =>
      obtain ⟨c, u, rfl, hc⟩ := hends
      obtain ⟨out, hopening⟩ := parselineLoop_opening hwf hnul hskip trivial (c :: u)
      rw [parselineLoop_space hc, ← parselineLoop_close out (Or.inl rfl) hc]
      exact hopening
  | double ps =>
      have hopening : NulFree (Argument.double ps).opening := by
        have hsource : NulFree ((Argument.double ps).opening ++ ['"']) := hnul
        exact hsource.append.1
      obtain ⟨out, hout⟩ := parselineLoop_opening hwf hopening hskip trivial ('"' :: t)
      rw [← parselineLoop_close out (Or.inr rfl) (show Linestate.closes _ '"' by decide),
        ← show (Argument.double ps).state = .readingQuoted from rfl, ← hout]
      simp [Argument.source, Argument.opening]
  | single w =>
      have hself : w.filter (· != '\x00') = w := by
        apply List.filter_eq_self.2
        intro c hc
        simpa using hnul c (List.mem_cons_of_mem _ (List.mem_append_left _ hc))
      have hsource : (Argument.single w).source ++ t = '\'' :: (w ++ '\'' :: t) := by
        simp [Argument.source]
      rw [hsource, parselineLoop_open_single, parselineLoop_single hwf, hself]
      rfl

/-- An argument is stored as what it denotes if its only backslash is in front of its first
character. -/
theorem stored_eq_denotes_iff {a : Argument} (hwf : a.WellFormed) (hnul : NulFree a.source)
    (hskip : ¬ a.Skipped) : a.stored = a.denotes ↔ a.Clean := by
  cases a with
  | unquoted ps =>
      cases ps with
      | nil => exact iff_of_true rfl trivial
      | cons p ps =>
          obtain ⟨hp, hchars⟩ := List.forall_mem_cons.1 (NulFree.pieces hnul)
          rw [Argument.stored, Argument.denotes, List.map_cons]
          simp only [List.cons.injEq, true_and]
          rw [stored_eq_iff hp hchars]
          exact ⟨fun h => ⟨hskip, h⟩, fun h => h.2⟩
  | double ps =>
      have hwritten : NulFree (written ps) := by
        have hsource : NulFree ('"' :: (written ps ++ ['"'])) := hnul
        exact hsource.cons.2.append.1
      have hchars := NulFree.pieces hwritten
      cases ps with
      | nil => exact iff_of_true rfl (by simp [Argument.Clean])
      | cons p ps =>
          obtain ⟨hp, htail⟩ := List.forall_mem_cons.1 hchars
          rw [Argument.Clean, List.tail_cons, ← stored_eq_iff hp htail]
          cases p with
          | plain c => simp [Argument.stored, Argument.denotes, stored, Piece.char]
          | escaped c => simp [Argument.stored, Argument.denotes, stored, Piece.char]
  | single w => exact iff_of_true rfl trivial

/-! ## Lines -/

theorem parseline_eq (line : Text) : parseline line = parselineLoop {} (line ++ ['\x00']) := by
  rw [parseline]
  split
  next hnil =>
    rw [List.length_eq_zero_iff.1 hnil]
    rfl
  next => rfl

theorem Separated.ends {a : Argument} (h : Separated t) : a.Ends (t ++ ['\x00']) := by
  cases a with
  | unquoted ps =>
      cases t with
      | nil => exact ⟨'\x00', [], rfl, by decide⟩
      | cons c t => exact ⟨c, t ++ ['\x00'], rfl, h c rfl⟩
  | double ps => exact trivial
  | single w => exact trivial

/-- **A line of the grammar** without white space that is skipped. -/
theorem parselineLoop_reads {as : List Argument} (h : Reads t as) (hnul : NulFree t)
    (hskip : ∀ a ∈ as, ¬ a.Skipped) :
    parselineLoop {} (t ++ ['\x00']) = .ok (as.map Argument.stored) := by
  induction h with
  | done => rfl
  | comment t hc => exact parselineLoop_comment hc _
  | blank hc _ ih =>
      rw [List.cons_append, parselineLoop_space hc]
      exact ih hnul.cons.2 hskip
  | argument hwf hsep _ ih =>
      obtain ⟨ha, hrest⟩ := List.forall_mem_cons.1 hskip
      obtain ⟨hnul, hnulRest⟩ := hnul.append
      rw [List.append_assoc, parselineLoop_argument hwf hnul ha hsep.ends, ih hnulRest hrest]
      rfl

/-- **The lines on which a bad backslash is found.** White space behind a backslash is skipped, an
argument in quotes needs nothing behind it, and then a backslash precedes what it may not, at a
place where no comment and no further argument starts. -/
inductive Rejected : Text → Prop where
  | blank {c : Char} {t : Text} : space c → Rejected t → Rejected (c :: t)
  | skip {c : Char} {t : Text} : space c → Rejected t → Rejected ('\\' :: c :: t)
  | argument {a : Argument} {t : Text} :
      a.WellFormed → ¬ a.Skipped → a.Ends t → Rejected t → Rejected (a.source ++ t)
  | between {c : Char} (t : Text) :
      ¬ escapable c → c ≠ ';' → c ≠ '#' → Rejected ('\\' :: c :: t)
  | inside {a : Argument} {c : Char} (t : Text) :
      a.WellFormed → ¬ a.Skipped → a.Escapes → ¬ escapable c →
      Rejected (a.opening ++ '\\' :: c :: t)

theorem Argument.Ends.append {a : Argument} (h : a.Ends t) (u : Text) : a.Ends (t ++ u) := by
  cases a with
  | unquoted ps =>
      obtain ⟨c, v, rfl, hc⟩ := h
      exact ⟨c, v ++ u, rfl, hc⟩
  | double ps => exact trivial
  | single w => exact trivial

theorem Rejected.error (h : Rejected t) (hnul : NulFree t) :
    ∃ e, parselineLoop {} (t ++ ['\x00']) = .error e := by
  induction h with
  | blank hc _ ih =>
      rw [List.cons_append, parselineLoop_space hc]
      exact ih hnul.cons.2
  | skip hc _ ih =>
      rw [List.cons_append, List.cons_append, parselineLoop_skip hc]
      exact ih hnul.cons.2.cons.2
  | argument hwf hskip hends _ ih =>
      obtain ⟨hnul, hnulRest⟩ := hnul.append
      obtain ⟨e, he⟩ := ih hnulRest
      rw [List.append_assoc, parselineLoop_argument hwf hnul hskip (hends.append _), he]
      exact ⟨e, rfl⟩
  | between t hc hsemi hhash =>
      exact parselineLoop_open_bad hc ⟨hsemi, hhash⟩ hnul.cons.2.cons.1 _
  | inside t hwf hskip hescapes hc =>
      obtain ⟨hnul, hnulRest⟩ := hnul.append
      rw [List.append_assoc]
      obtain ⟨out, hout⟩ := parselineLoop_opening hwf hnul hskip hescapes _
      rw [hout, List.cons_append, parselineLoop_backslash hescapes.escaping]
      exact parselineLoop_quoted_bad hescapes.escaping hc hnulRest.cons.2.cons.1 _

/-! ## Where a line stops -/

/-- The pieces at the start of a text, and what ends them. -/
theorem exists_pieces (closes : Char → Bool) (t : Text) :
    ∃ ps u, t = written ps ++ u ∧ (∀ p ∈ ps, p.WellFormed closes) ∧
      (u = [] ∨ u = ['\\'] ∨ (∃ c v, u = c :: v ∧ closes c) ∨
        ∃ c v, u = '\\' :: c :: v ∧ ¬ escapable c) := by
  induction hn : t.length using Nat.strong_induction_on generalizing t with
  | _ n ih =>
      cases t with
      | nil => exact ⟨[], [], rfl, by simp, Or.inl rfl⟩
      | cons c t =>
          rw [List.length_cons] at hn
          by_cases hback : c = '\\'
          · subst hback
            cases t with
            | nil => exact ⟨[], ['\\'], rfl, by simp, Or.inr (Or.inl rfl)⟩
            | cons d t =>
                by_cases hd : escapable d
                · rw [List.length_cons] at hn
                  obtain ⟨ps, u, rfl, hps, hu⟩ := ih t.length (by omega) t rfl
                  exact ⟨.escaped d :: ps, u, rfl, List.forall_mem_cons.2 ⟨hd, hps⟩, hu⟩
                · exact ⟨[], '\\' :: d :: t, rfl, by simp,
                    Or.inr (Or.inr (Or.inr ⟨d, t, rfl, hd⟩))⟩
          · by_cases hclose : closes c
            · exact ⟨[], c :: t, rfl, by simp, Or.inr (Or.inr (Or.inl ⟨c, t, rfl, hclose⟩))⟩
            · obtain ⟨ps, u, rfl, hps, hu⟩ := ih t.length (by omega) t rfl
              exact ⟨.plain c :: ps, u, rfl,
                List.forall_mem_cons.2 ⟨⟨Bool.eq_false_iff.2 hclose, hback⟩, hps⟩, hu⟩

/-- An argument that is open at the end of the line, or ends with a backslash, is dropped or read
without an error. -/
theorem parselineLoop_open_end (hstate : st.Escaping) {u : Text} (hu : u = [] ∨ u = ['\\'])
    (e : ConfigParseError) :
    parselineLoop { state := st, out := out, currentarg := cur } (u ++ ['\x00']) ≠ .error e := by
  have hzero : space '\x00' = true := by decide
  intro heq
  rcases hu with rfl | rfl
  · rw [List.nil_append, parselineLoop_round rfl (by decide)] at heq
    rcases hstate with rfl | rfl
    · simp [Parse.interpret, hzero, parselineLoop_nil] at heq
    · simp [Parse.interpret, parselineLoop_nil] at heq
  · rw [List.cons_append, parselineLoop_backslash hstate] at heq
    rcases hstate with rfl | rfl
    · simp [parselineLoop, Parse.quotes, Parse.interpret, Parse.finish, Parse.badBackslash] at heq
    · simp [parselineLoop, Parse.quotes, Parse.interpret, Parse.finish, Parse.badBackslash] at heq

/-- An argument that is read up to where it stops: the error stands behind it or stops it. -/
theorem Rejected.of_opening {a : Argument} {u : Text} {e : ConfigParseError} (hwf : a.WellFormed)
    (hskip : ¬ a.Skipped) (hescapes : a.Escapes) (hnul : NulFree (a.opening ++ u))
    (hu : u = [] ∨ u = ['\\'] ∨ (∃ c v, u = c :: v ∧ a.state.closes c) ∨
      ∃ c v, u = '\\' :: c :: v ∧ ¬ escapable c)
    (ih : ∀ v, v <:+ u → NulFree v → parselineLoop {} (v ++ ['\x00']) = .error e → Rejected v)
    (herror : parselineLoop {} (a.opening ++ u ++ ['\x00']) = .error e) :
    Rejected (a.opening ++ u) := by
  obtain ⟨hopening, hrest⟩ := hnul.append
  obtain ⟨out, hout⟩ := parselineLoop_opening hwf hopening hskip hescapes (u ++ ['\x00'])
  rw [List.append_assoc, hout] at herror
  rcases hu with hend | hend | ⟨c, v, rfl, hclose⟩ | ⟨c, v, rfl, hbad⟩
  · exact absurd herror (parselineLoop_open_end hescapes.escaping (Or.inl hend) e)
  · exact absurd herror (parselineLoop_open_end hescapes.escaping (Or.inr hend) e)
  · rw [List.cons_append, parselineLoop_close _ hescapes.escaping hclose] at herror
    have hv : parselineLoop {} (v ++ ['\x00']) = .error e := by
      cases hloop : parselineLoop {} (v ++ ['\x00']) with
      | ok parameters =>
          rw [hloop] at herror
          cases herror
      | error e' =>
          rw [hloop] at herror
          cases herror
          rfl
    have hrejected := ih v (List.suffix_cons c v) hrest.cons.2 hv
    cases a with
    | unquoted ps =>
        exact Rejected.argument hwf hskip ⟨c, v, rfl, hclose⟩ (Rejected.blank hclose hrejected)
    | double ps =>
        obtain rfl : c = '"' := eq_of_beq hclose
        have hsource := Rejected.argument (t := v) hwf hskip trivial hrejected
        simpa [Argument.source, Argument.opening] using hsource
    | single w => exact hescapes.elim
  · exact Rejected.inside v hwf hskip hescapes hbad

/-- An argument without quotes, from its first piece on. -/
theorem exists_unquoted {p : Piece} (hp : p.WellFormed space) (hstarts : p.Starts) (t : Text) :
    ∃ ps u, p.source ++ t = (Argument.unquoted (p :: ps)).opening ++ u ∧
      (Argument.unquoted (p :: ps)).WellFormed ∧ u <:+ t ∧
      (u = [] ∨ u = ['\\'] ∨ (∃ c v, u = c :: v ∧ space c) ∨
        ∃ c v, u = '\\' :: c :: v ∧ ¬ escapable c) := by
  obtain ⟨ps, u, rfl, hps, hu⟩ := exists_pieces space t
  refine ⟨ps, u, ?_, ⟨List.forall_mem_cons.2 ⟨hp, hps⟩, p, rfl, hstarts⟩,
    List.suffix_append _ _, hu⟩
  rw [← List.append_assoc]
  rfl

/-- An argument in single quotes. The loop fails behind its end, and does not fail without one. -/
theorem Rejected.of_single {e : ConfigParseError}
    (hlater : ∀ v, v <:+ t → NulFree v → parselineLoop {} (v ++ ['\x00']) = .error e → Rejected v)
    (hnul : NulFree ('\'' :: t))
    (herror : parselineLoop {} ('\'' :: t ++ ['\x00']) = .error e) : Rejected ('\'' :: t) := by
  rw [List.cons_append, parselineLoop_open_single] at herror
  by_cases hquote : '\'' ∈ t
  · -- the argument ends at the next single quote
    obtain ⟨w, u, rfl, hw⟩ := List.eq_append_cons_of_mem hquote
    have hwf : (Argument.single w).WellFormed := hw
    have hsource : '\'' :: (w ++ '\'' :: u) = (Argument.single w).source ++ u := by
      simp [Argument.source]
    rw [hsource] at hnul ⊢
    obtain ⟨hnulArg, hnulRest⟩ := hnul.append
    refine Rejected.argument hwf (fun h => h) trivial (hlater u ?_ hnulRest ?_)
    · exact ⟨w ++ ['\''], by simp⟩
    · rw [List.append_assoc, List.cons_append, parselineLoop_single hw] at herror
      cases hloop : parselineLoop {} (u ++ ['\x00']) with
      | ok parameters =>
          rw [hloop] at herror
          cases herror
      | error e' =>
          rw [hloop] at herror
          cases herror
          rfl
  · rw [parselineLoop_single_open (by simp [hquote])] at herror
    cases herror

/-- A backslash between two arguments. -/
theorem Rejected.of_backslash {e : ConfigParseError}
    (hlater : ∀ v, v <:+ t → NulFree v → parselineLoop {} (v ++ ['\x00']) = .error e → Rejected v)
    (hnul : NulFree ('\\' :: t))
    (herror : parselineLoop {} ('\\' :: t ++ ['\x00']) = .error e) : Rejected ('\\' :: t) := by
  obtain ⟨-, hnulTail⟩ := hnul.cons
  cases t with
  | nil => cases herror
  | cons d t =>
      by_cases hspace : space d
      · rw [List.cons_append, List.cons_append, parselineLoop_skip hspace] at herror
        exact Rejected.skip hspace (hlater t (List.suffix_cons d t) hnulTail.cons.2 herror)
      by_cases hescape : escapable d
      · -- an escaped character starts an argument without quotes
        obtain ⟨ps, u, hsplit, hwf, hsuffix, hu⟩ :=
          exists_unquoted (p := .escaped d) hescape trivial t
        have hsplit : '\\' :: d :: t = _ := hsplit
        rw [hsplit] at hnul herror ⊢
        exact Rejected.of_opening hwf hspace trivial hnul hu
          (fun v hv => hlater v ((hv.trans hsuffix).trans (List.suffix_cons d t))) herror
      by_cases hescaped : d = ';' ∨ d = '#'
      · rw [List.cons_append, List.cons_append, parselineLoop_escaped_comment hescaped] at herror
        cases herror
      · obtain ⟨hsemi, hhash⟩ := not_or.1 hescaped
        exact Rejected.between t hescape hsemi hhash

/-- **The errors of the loop.** -/
theorem Rejected.of_error {e : ConfigParseError} (hnul : NulFree t)
    (herror : parselineLoop {} (t ++ ['\x00']) = .error e) : Rejected t := by
  induction hn : t.length using Nat.strong_induction_on generalizing t with
  | _ n ih =>
      cases t with
      | nil => cases herror
      | cons c t =>
          rw [List.length_cons] at hn
          -- what is left behind a first part is shorter
          have hlater : ∀ v, v <:+ t → NulFree v →
              parselineLoop {} (v ++ ['\x00']) = .error e → Rejected v := by
            intro v hv hnulv hev
            have := hv.length_le
            exact ih v.length (by omega) hnulv hev rfl
          obtain ⟨hc0, hnulTail⟩ := hnul.cons
          by_cases hblank : space c
          · rw [List.cons_append, parselineLoop_space hblank] at herror
            exact Rejected.blank hblank (hlater t (List.suffix_refl t) hnulTail herror)
          by_cases hcomment : c = ';' ∨ c = '#'
          · rw [List.cons_append, parselineLoop_comment hcomment] at herror
            cases herror
          by_cases hdouble : c = '"'
          · subst hdouble
            obtain ⟨ps, u, rfl, hps, hu⟩ := exists_pieces (· == '"') t
            exact Rejected.of_opening (a := .double ps) hps (fun h => h) trivial hnul hu
              (fun v hv => hlater v (hv.trans (List.suffix_append _ _))) herror
          by_cases hsingle : c = '\''
          · subst hsingle
            exact Rejected.of_single hlater hnul herror
          by_cases hback : c = '\\'
          · subst hback
            exact Rejected.of_backslash hlater hnul herror
          · -- any other character starts an argument without quotes
            have hbare : startsBare c := by
              obtain ⟨hsemi, hhash⟩ := not_or.1 hcomment
              simp [startsBare, hblank, hsemi, hhash, hdouble, hsingle, hback]
            obtain ⟨ps, u, hsplit, hwf, hsuffix, hu⟩ :=
              exists_unquoted (p := .plain c) ⟨Bool.eq_false_iff.2 hblank, hback⟩ hbare t
            have hsplit : c :: t = _ := hsplit
            rw [hsplit] at hnul herror ⊢
            exact Rejected.of_opening hwf (fun h => h) trivial hnul hu
              (fun v hv => hlater v (hv.trans hsuffix)) herror

theorem parseline_error_iff {line : Text} (hnul : NulFree line) :
    (∃ e, parseline line = .error e) ↔ Rejected line := by
  rw [parseline_eq]
  exact ⟨fun ⟨e, he⟩ => Rejected.of_error hnul he, fun h => h.error hnul⟩

/-! ## What is left of the grammar -/

/-- What `parseline` should do with a line: give what its arguments denote, or throw. -/
def Conforms (line : Text) : Prop :=
  (∀ as, Reads line as → parseline line = .ok (as.map Argument.denotes)) ∧
    (¬ Grammatical line → ∃ e, parseline line = .error e)

/-- The only backslash of an argument is in front of its first character, which is no white space
outside of quotes. -/
def CleanLine (line : Text) : Prop := ∃ as, Reads line as ∧ ∀ a ∈ as, a.Clean

/-- White space behind a backslash starts an argument. -/
def SkippingLine (line : Text) : Prop := ∃ as, Reads line as ∧ ∃ a ∈ as, a.Skipped

/-- The arguments of a reading are well-formed parts of the line. -/
theorem Reads.argument_wf {as : List Argument} (h : Reads t as) (hnul : NulFree t) :
    ∀ a ∈ as, a.WellFormed ∧ NulFree a.source := by
  induction h with
  | done => simp
  | comment => simp
  | blank _ _ ih => exact ih hnul.cons.2
  | argument hwf _ _ ih =>
      obtain ⟨hnulArg, hnulRest⟩ := hnul.append
      exact List.forall_mem_cons.2 ⟨⟨hwf, hnulArg⟩, ih hnulRest⟩

/-- **The lines that `parseline` reads as the grammar does.** It does so for lines without a
backslash inside an argument, and for lines outside the grammar on which it meets a bad backslash.
No other line is read so, unless white space behind a backslash starts an argument: that is always
skipped, but what is read instead may come to the same list. -/
theorem parseline_conforms (line : Text) (hnul : NulFree line) :
    (CleanLine line ∨ ¬ Grammatical line ∧ Rejected line → Conforms line) ∧
      (Conforms line → ¬ SkippingLine line →
        CleanLine line ∨ ¬ Grammatical line ∧ Rejected line) := by
  constructor
  · rintro (⟨as, hreads, hclean⟩ | ⟨hnone, hrejected⟩)
    · refine ⟨fun bs hbs => ?_, fun hnone => absurd ⟨as, hreads⟩ hnone⟩
      obtain rfl := hreads.unique hbs
      have hskip : ∀ a ∈ as, ¬ a.Skipped := fun a ha => (hclean a ha).not_skipped
      rw [parseline_eq, parselineLoop_reads hreads hnul hskip]
      congr 1
      apply List.map_congr_left
      intro a ha
      obtain ⟨hwf, hnulArg⟩ := hreads.argument_wf hnul a ha
      exact (stored_eq_denotes_iff hwf hnulArg (hskip a ha)).2 (hclean a ha)
    · refine ⟨fun as has => absurd ⟨as, has⟩ hnone, fun _ => ?_⟩
      exact (parseline_error_iff hnul).2 hrejected
  · rintro ⟨hgood, hbad⟩ hnoskip
    by_cases hgrammar : Grammatical line
    · obtain ⟨as, hreads⟩ := hgrammar
      have hskip : ∀ a ∈ as, ¬ a.Skipped := fun a ha hs => hnoskip ⟨as, hreads, a, ha, hs⟩
      have hresult := hgood as hreads
      rw [parseline_eq, parselineLoop_reads hreads hnul hskip] at hresult
      have hmap := List.map_inj_left.1 (Except.ok.inj hresult)
      refine Or.inl ⟨as, hreads, fun a ha => ?_⟩
      obtain ⟨hwf, hnulArg⟩ := hreads.argument_wf hnul a ha
      exact (stored_eq_denotes_iff hwf hnulArg (hskip a ha)).1 (hmap a ha)
    · exact Or.inr ⟨hgrammar, (parseline_error_iff hnul).1 (hbad hgrammar)⟩

theorem parseline_conforms_quoted : Conforms "ca \"my file\"".toList := by
  have hline : "ca \"my file\"".toList =
      (Argument.unquoted [.plain 'c', .plain 'a']).source ++
        ' ' :: ((Argument.double ("my file".toList.map Piece.plain)).source ++ []) := by decide
  refine (parseline_conforms _ (by decide)).1 (Or.inl ⟨[.unquoted [.plain 'c', .plain 'a'],
    .double ("my file".toList.map Piece.plain)], ?_, ?_⟩)
  · rw [hline]
    refine Reads.argument ⟨by decide, .plain 'c', rfl, by decide⟩ ?_
      (Reads.blank (by decide) (Reads.argument ?_ (by intro c hc; cases hc) Reads.done))
    · intro c hc
      cases hc
      decide
    · intro p hp
      obtain ⟨c, hc, rfl⟩ := List.mem_map.1 hp
      revert c
      decide
  · refine List.forall_mem_cons.2 ⟨⟨fun h => h, ?_⟩, List.forall_mem_cons.2 ⟨?_, by simp⟩⟩
    · simp [Piece.IsPlain]
    · intro q hq
      obtain ⟨c, -, rfl⟩ := List.mem_map.1 (List.mem_of_mem_tail hq)
      exact trivial

/-- **A backslash inside an argument** stores the character before it twice: `a\"b` is read as
`aa"b`. -/
theorem parseline_conforms_counterexample : ¬ ∀ line, NulFree line → Conforms line := by
  intro h
  have hline : "a\\\"b".toList =
      (Argument.unquoted [.plain 'a', .escaped '"', .plain 'b']).source ++ [] := by decide
  have hreads : Reads "a\\\"b".toList [.unquoted [.plain 'a', .escaped '"', .plain 'b']] := by
    rw [hline]
    refine Reads.argument ⟨by decide, .plain 'a', rfl, by decide⟩ ?_ Reads.done
    intro c hc
    cases hc
  have hresult := (h _ (by decide)).1 _ hreads
  exact absurd hresult (by decide)

/-- White space is skipped twice, and characters are stored twice, with the list of the grammar as
the result. -/
example :
    parseline ((Argument.unquoted [.escaped ' ', .escaped ' ', .plain '"']).source ++
      ' ' :: (Argument.unquoted [.escaped '"', .plain '"', .escaped '"', .plain '"', .escaped '"',
        .escaped '"']).source) = .ok ["  \"".toList, "\"\"\"\"\"\"".toList] := by decide

end PortVpn.Config
