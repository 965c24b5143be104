import Mathlib.Tactic.SplitIfs
import PortVpn.Config.Parseline

/-!
# Escaping against tokenising

`openVpnEscape` and `parseline` are not inverse to each other: `parseline` keeps its output
character from one round of its loop to the next, so that the round that reads a backslash stores
the character before the backslash again, and `openVpnEscape` leaves some arguments bare that
`parseline` splits or reads as quoted. `parseline_escape_iff` says for which lines of arguments
they are; `parselineLoop_skips` shows that no later argument makes up for a lost one.
-/

set_option autoImplicit false

namespace PortVpn.Config

open PortVpn.Lib

/-! ## What the escape writes -/

/-- A character that `openVpnEscape` writes with a backslash. -/
def escapes (c : Char) : Bool := c == '\\' || c == '"' || c == '\n'

theorem escapedString_cons (c : Char) (w : Text) :
    escapedString (c :: w) =
      (if c = '\\' then ['\\', '\\'] else if c = '"' then ['\\', '"']
        else if c = '\n' then ['\\', 'n'] else [c]) ++ escapedString w := by
  by_cases hb : c = '\\'
  · simp [escapedString, replaceChar, hb]
  · by_cases hq : c = '"'
    · simp [escapedString, replaceChar, hq]
    · by_cases hn : c = '\n'
      · simp [escapedString, replaceChar, hn]
      · simp [escapedString, replaceChar, hb, hq, hn]

theorem length_escapedString (w : Text) :
    (escapedString w).length = w.length + w.countP escapes := by
  induction w with
  | nil => rfl
  | cons c w ih =>
      rw [escapedString_cons, List.length_append, ih, List.countP_cons, List.length_cons]
      split_ifs with hb hq hn he <;> simp_all [escapes] <;> omega

/-- The escape changes nothing exactly when there is nothing to escape. -/
theorem escapedString_eq_iff (w : Text) : escapedString w = w ↔ ∀ c ∈ w, escapes c = false := by
  constructor
  · intro h
    have hlen := length_escapedString w
    rw [h] at hlen
    have hcount : w.countP escapes = 0 := by omega
    simpa using List.countP_eq_zero.1 hcount
  · intro h
    induction w with
    | nil => rfl
    | cons c w ih =>
        have hc := h c List.mem_cons_self
        simp only [escapes, Bool.or_eq_false_iff, beq_eq_false_iff_ne] at hc
        rw [escapedString_cons, ih fun d hd => h d (List.mem_cons_of_mem _ hd)]
        simp [hc]

/-- A character for which `openVpnEscape` puts its argument into quotes. -/
def forcesQuotes (c : Char) : Bool := escapes c || c == ' ' || c == '#' || c == ';'

/-- An argument that `openVpnEscape` leaves bare. -/
def Bare (arg : Text) : Prop := arg ≠ [] ∧ ∀ c ∈ arg, forcesQuotes c = false

instance : DecidablePred Bare := fun arg => by
  rw [Bare]
  infer_instance

theorem openVpnEscape_of_bare {arg : Text} (h : Bare arg) : openVpnEscape arg = arg := by
  have hsame : escapedString arg = arg := (escapedString_eq_iff arg).2 fun c hc => by
    have := h.2 c hc
    simp only [forcesQuotes, Bool.or_eq_false_iff] at this
    exact this.1.1.1
  have hnot : ∀ d : Char, forcesQuotes d = true → d ∉ arg := fun d hd hmem => by
    simp [h.2 d hmem] at hd
  rw [openVpnEscape, hsame, if_pos]
  exact ⟨rfl, hnot _ (by decide), hnot _ (by decide), hnot _ (by decide), h.1⟩

theorem openVpnEscape_of_not_bare {arg : Text} (h : ¬ Bare arg) :
    openVpnEscape arg = '"' :: escapedString arg ++ ['"'] := by
  rw [openVpnEscape, if_neg]
  rintro ⟨hsame, hblank, hhash, hsemi, hne⟩
  rw [hsame] at hblank hhash hsemi hne
  refine h ⟨hne, fun c hc => ?_⟩
  have hesc := (escapedString_eq_iff arg).1 hsame c hc
  simp only [forcesQuotes, Bool.or_eq_false_iff, beq_eq_false_iff_ne]
  exact ⟨⟨⟨hesc, fun h => hblank (h ▸ hc)⟩, fun h => hhash (h ▸ hc)⟩, fun h => hsemi (h ▸ hc)⟩

theorem newline_notMem_escapedString (arg : Text) : '\n' ∉ escapedString arg := by
  induction arg with
  | nil => exact List.not_mem_nil
  | cons c arg ih =>
      rw [escapedString_cons, List.mem_append, not_or]
      refine ⟨?_, ih⟩
      by_cases hb : c = '\\'
      · simp [hb]
      · by_cases hq : c = '"'
        · simp [hq]
        · by_cases hn : c = '\n'
          · simp [hn]
          · simp [hb, hq, hn, Ne.symm hn]

/-- What has been escaped stays on its line. -/
theorem newline_notMem_openVpnEscape (arg : Text) : '\n' ∉ openVpnEscape arg := by
  by_cases hbare : Bare arg
  · rw [openVpnEscape_of_bare hbare]
    exact fun hm => absurd (hbare.2 _ hm) (by decide)
  · rw [openVpnEscape_of_not_bare hbare]
    simpa using newline_notMem_escapedString arg

/-! ## Reading what the escape wrote -/

/-- What `parseline` reads between double quotes where `openVpnEscape` wrote the text: a round that
reads a backslash stores the previous character again. -/
def reread : Char → Text → Text
  | _, [] => []
  | out, c :: w =>
      (if escapes c && out != '\x00' then [out, c] else [c]) ++ reread c w

theorem length_le_reread (w : Text) : ∀ out, w.length ≤ (reread out w).length := by
  induction w with
  | nil => simp [reread]
  | cons c w ih =>
      intro out
      have := ih c
      rw [reread, List.length_append, List.length_cons]
      split <;> simp <;> omega

/-- Reading back is exact from a character on exactly when no later character was escaped. -/
theorem reread_eq_iff {out : Char} (hout : out ≠ '\x00') {w : Text} (hw : ∀ c ∈ w, c ≠ '\x00') :
    reread out w = w ↔ ∀ c ∈ w, escapes c = false := by
  induction w generalizing out with
  | nil => simp [reread]
  | cons c w ih =>
      obtain ⟨hc, hw⟩ := List.forall_mem_cons.1 hw
      rw [reread, List.forall_mem_cons, ← ih hc hw]
      cases hesc : escapes c with
      | false => simp
      | true =>
          have hlen := length_le_reread w c
          refine iff_of_false (fun h => ?_) (by simp)
          have := congrArg List.length h
          simp [hout] at this
          omega

theorem parselineLoop_double {w : Text} (hw : ∀ c ∈ w, c ≠ '\x00' ∧ c ≠ '\n') (out : Char)
    (cur t : Text) :
    parselineLoop { state := .readingQuoted, out := out, currentarg := cur }
        (escapedString w ++ '"' :: t) =
      (parselineLoop {} t).map ((cur ++ reread out w) :: ·) := by
  induction w generalizing out cur with
  | nil =>
      rw [reread, List.append_nil, ← parselineLoop_done]
      simp [escapedString, replaceChar, parselineLoop, Parse.quotes, Parse.interpret, Parse.finish,
        Parse.badBackslash, Parse.store]
  | cons c w ih =>
      obtain ⟨⟨h0, hn⟩, hw⟩ := List.forall_mem_cons.1 hw
      rw [reread, ← List.append_assoc, ← ih hw c, escapedString_cons]
      by_cases hb : c = '\\'
      · subst hb
        by_cases ho : out = '\x00' <;>
        simp [parselineLoop, Parse.quotes, Parse.interpret, Parse.finish, Parse.badBackslash,
          Parse.store, escapes, ho]
      · by_cases hq : c = '"'
        · subst hq
          by_cases ho : out = '\x00' <;>
          simp [parselineLoop, Parse.quotes, Parse.interpret, Parse.finish, Parse.badBackslash,
            Parse.store, escapes, ho]
        · simp [parselineLoop, Parse.quotes, Parse.interpret, Parse.finish, Parse.badBackslash,
            Parse.store, escapes, hb, hq, hn, h0]

/-! ## Which arguments survive -/

/-- The arguments that are read as they were written: in quotes, only the first character may be
a backslash or a double quote; bare, there is no white space and no single quote in front. -/
def RoundTrips (arg : Text) : Prop :=
  if Bare arg then (∀ c ∈ arg, isWhitespace c = false) ∧ arg.head? ≠ some '\''
  else ∀ c ∈ arg.tail, c ≠ '\\' ∧ c ≠ '"'

instance : DecidablePred RoundTrips := fun arg => by
  rw [RoundTrips]
  infer_instance

section Arguments

variable {arg : Text}

theorem OneLine.chars (hone : OneLine arg) : ∀ c ∈ arg, c ≠ '\x00' ∧ c ≠ '\n' :=
  fun c hc => ⟨(hone c hc).1, (hone c hc).2.1⟩

theorem Bare.space_iff (hone : OneLine arg) {c : Char} (hc : c ∈ arg) :
    space c = isWhitespace c := by
  have := (hone c hc).1
  simp [space, this]

/-- A quoted argument is read as one argument, with its repeated characters. -/
theorem parselineLoop_quotes (hone : OneLine arg) (h : ¬ Bare arg) (t : Text) :
    parselineLoop {} (openVpnEscape arg ++ t) =
      (parselineLoop {} t).map (reread '\x00' arg :: ·) := by
  rw [openVpnEscape_of_not_bare h, List.cons_append, List.cons_append, List.append_assoc,
    List.singleton_append, parselineLoop_open_double,
    parselineLoop_double hone.chars, List.nil_append]

theorem parselineLoop_quoted (hone : OneLine arg) (h : ¬ Bare arg) (t : Text) :
    parselineLoop {} (openVpnEscape arg ++ ' ' :: t) =
      (parselineLoop {} t).map (reread '\x00' arg :: ·) := by
  rw [parselineLoop_quotes hone h, parselineLoop_space (by decide)]

theorem reread_quoted_iff (hchars : ∀ c ∈ arg, c ≠ '\x00' ∧ c ≠ '\n') :
    reread '\x00' arg = arg ↔ ∀ c ∈ arg.tail, c ≠ '\\' ∧ c ≠ '"' := by
  cases arg with
  | nil => simp [reread]
  | cons c w =>
      obtain ⟨hc, hw⟩ := List.forall_mem_cons.1 hchars
      have hrest := reread_eq_iff hc.1 (w := w) fun d hd => (hw d hd).1
      simp only [reread, bne_self_eq_false, Bool.and_false, Bool.false_eq_true, if_false,
        List.singleton_append, List.cons.injEq, true_and, List.tail_cons, hrest]
      refine forall₂_congr fun d hd => ?_
      simp [escapes, (hw d hd).2]

theorem startsBare_of_bare (hone : OneLine arg) (h : Bare arg) {c : Char} (hc : c ∈ arg)
    (hspace : isWhitespace c = false) (hquote : c ≠ '\'') : startsBare c := by
  have hf := h.2 c hc
  simp only [forcesQuotes, escapes, Bool.or_eq_false_iff, beq_eq_false_iff_ne] at hf
  have hsp := Bare.space_iff hone hc
  simp [startsBare, hsp, hspace, hquote, hf]

theorem Bare.ne_backslash (h : Bare arg) {c : Char} (hc : c ∈ arg) : c ≠ '\\' := by
  rintro rfl
  exact absurd (h.2 _ hc) (by decide)

/-- An argument that survives is read as it was written. -/
theorem parselineLoop_escape (hone : OneLine arg) (h : RoundTrips arg) (t : Text) :
    parselineLoop {} (openVpnEscape arg ++ ' ' :: t) = (parselineLoop {} t).map (arg :: ·) := by
  by_cases hbare : Bare arg
  · rw [RoundTrips, if_pos hbare] at h
    cases arg with
    | nil => exact absurd rfl hbare.1
    | cons c w =>
        have hspace : ∀ d ∈ c :: w, space d = false := fun d hd => by
          rw [Bare.space_iff hone hd, h.1 d hd]
        rw [openVpnEscape_of_bare hbare]
        refine parselineLoop_word (w := c :: w) ⟨?_, fun d hd => ?_⟩ (by decide) t
        · exact startsBare_of_bare hone hbare List.mem_cons_self (h.1 c List.mem_cons_self)
            (by simpa using h.2)
        · exact ⟨hspace d (List.mem_cons_of_mem _ hd), hbare.ne_backslash (List.mem_cons_of_mem _ hd)⟩
  · rw [RoundTrips, if_neg hbare] at h
    rw [parselineLoop_quoted hone hbare, (reread_quoted_iff hone.chars).2 h]

end Arguments

/-! ## No later argument makes up for a lost one -/

/-- A bare argument that `parseline` never reads from a bare word: it has white space in it, or its
first character opens a quote. -/
def Awkward (arg : Text) : Prop :=
  Bare arg ∧ ((∃ c ∈ arg, isWhitespace c) ∨ arg.head? = some '\'')

theorem awkward_of_head {c : Char} {w : Text} (h : Bare (c :: w))
    (hc : isWhitespace c ∨ c = '\'') : Awkward (c :: w) := by
  refine ⟨h, hc.imp (fun hs => ⟨c, List.mem_cons_self, hs⟩) ?_⟩
  rintro rfl
  rfl

/-- What is read from a bare word is not awkward. -/
theorem Awkward.ne_word {q : Text} (hq : Awkward q) {c : Char} {u : Text}
    (hs : isWhitespace c = false) (hc : c ≠ '\'') (hu : ∀ d ∈ u, space d = false) :
    c :: u ≠ q := by
  rintro rfl
  rcases hq.2 with ⟨d, hd, hspace⟩ | hhead
  · rcases List.mem_cons.1 hd with rfl | hd
    · rw [hs] at hspace
      cases hspace
    · have hnot := hu d hd
      rw [space, hspace] at hnot
      cases hnot
  · exact hc (Option.some.inj hhead)

/-- The word at the front of a text without backslashes. -/
theorem exists_word {r : Text} (hr : ∀ c ∈ r, c ≠ '\\') (t : Text) :
    ∃ u d v, r ++ ' ' :: t = u ++ d :: v ∧ (∀ c ∈ u, space c = false ∧ c ≠ '\\') ∧
      space d = true ∧ u <+: r := by
  induction r with
  | nil => exact ⟨[], ' ', t, rfl, by simp, by decide, List.nil_prefix⟩
  | cons c r ih =>
      obtain ⟨hc, hr⟩ := List.forall_mem_cons.1 hr
      cases hs : space c with
      | true => exact ⟨[], c, r ++ ' ' :: t, rfl, by simp, hs, List.nil_prefix⟩
      | false =>
          obtain ⟨u, d, v, heq, hu, hd, hpre⟩ := ih hr
          refine ⟨c :: u, d, v, by rw [List.cons_append, heq]; rfl, ?_, hd, ?_⟩
          · exact List.forall_mem_cons.2 ⟨⟨hs, hc⟩, hu⟩
          · exact List.cons_prefix_cons.2 ⟨rfl, hpre⟩

/-- The first argument read from a bare word starts as the word does. -/
theorem parselineLoop_starts {c : Char} (hc : startsBare c) {r : Text} (hr : ∀ d ∈ r, d ≠ '\\')
    (t : Text) : ∃ u rest, u <+: r ∧ (∀ d ∈ u, space d = false) ∧
      parselineLoop {} (c :: r ++ ' ' :: t) = (parselineLoop {} rest).map ((c :: u) :: ·) := by
  obtain ⟨u, d, v, heq, hu, hd, hpre⟩ := exists_word hr t
  refine ⟨u, v, hpre, fun d hd => (hu d hd).1, ?_⟩
  rw [List.cons_append, heq]
  exact parselineLoop_word (w := c :: u) ⟨hc, hu⟩ hd v

theorem map_cons_eq_ok {x y : Text} {xs : List Text} {e : Except ConfigParseError (List Text)}
    (h : e.map (x :: ·) = .ok (y :: xs)) : x = y ∧ e = .ok xs := by
  cases e with
  | error e => simp [Except.map] at h
  | ok ys => simpa [Except.map] using h

/-- While arguments are pending, the next one cannot be read from what is left of a bare argument,
`r`, nor, if that is all white space, from the arguments after it. -/
theorem parselineLoop_pending {args : List Text}
    (hskip : ∀ pending : List Text, pending ≠ [] → (∀ q ∈ pending, Awkward q) →
      parselineLoop {} (escapedLine args ++ ['\x00']) ≠ .ok (pending ++ args))
    (r : Text) (hr : ∀ c ∈ r, forcesQuotes c = false ∧ c ≠ '\x00') (pending : List Text)
    (hne : pending ≠ []) (hp : ∀ q ∈ pending, Awkward q)
    (hq : '\'' ∈ r → ∃ q ∈ pending, '\'' ∈ q) :
    parselineLoop {} (r ++ ' ' :: (escapedLine args ++ ['\x00'])) ≠ .ok (pending ++ args) := by
  -- induction on what is left of the bare argument; a quote in it takes several characters at once
  induction hn : r.length using Nat.strongRecOn generalizing r pending with
  | _ n ih =>
  obtain ⟨q, ps, rfl⟩ := List.exists_cons_of_ne_nil hne
  have hawk := hp q List.mem_cons_self
  obtain ⟨-, hqf⟩ := hawk.1
  cases r with
  | nil =>
      rw [List.nil_append, parselineLoop_space (by decide)]
      exact hskip _ hne hp
  | cons c r =>
      obtain ⟨⟨hcf, hc0⟩, hr'⟩ := List.forall_mem_cons.1 hr
      by_cases hs : isWhitespace c
      · rw [List.cons_append, parselineLoop_space (by simp [space, hs])]
        exact ih r.length (by simp [← hn]) r hr' _ hne hp
          (fun h => hq (List.mem_cons_of_mem _ h)) rfl
      · by_cases hc : c = '\''
        · subst hc
          rw [List.cons_append, parselineLoop_open_single]
          by_cases hin : '\'' ∈ r
          · -- the quote closes in `r`: an argument with a quote in it stays pending
            obtain ⟨u, v, rfl, hu⟩ := List.eq_append_cons_of_mem hin
            rw [List.append_assoc, List.cons_append, parselineLoop_single hu]
            intro h
            obtain ⟨hqu, hrest⟩ := map_cons_eq_ok h
            obtain ⟨q', hq', hmem⟩ := hq List.mem_cons_self
            have hq'' : q' ∈ ps := by
              rcases List.mem_cons.1 hq' with rfl | h
              · exact absurd (List.mem_of_mem_filter (by rwa [← hqu] at hmem)) hu
              · exact h
            refine ih v.length (by simp [← hn]; omega) v ?_ ps (List.ne_nil_of_mem hq'') ?_
              (fun _ => ⟨q', hq'', hmem⟩) rfl hrest
            · exact fun d hd => hr' d (List.mem_append_right _ (List.mem_cons_of_mem _ hd))
            · exact fun p hpp => hp p (List.mem_cons_of_mem _ hpp)
          · by_cases hlater : '\'' ∈ ' ' :: (escapedLine args ++ ['\x00'])
            · -- the quote closes after the blank, which no pending argument has
              obtain ⟨u, v, heq, hu⟩ := List.eq_append_cons_of_mem hlater
              rw [heq, ← List.append_assoc, parselineLoop_single (by simp [hin, hu])]
              intro h
              obtain ⟨hqu, -⟩ := map_cons_eq_ok h
              have hblank : ' ' ∈ u := by
                cases u with
                | nil => simp at heq
                | cons d u => exact (List.cons.inj heq).1 ▸ List.mem_cons_self
              have : ' ' ∈ q := by
                rw [← hqu]
                simp [hblank]
              exact absurd (hqf _ this) (by decide)
            · rw [parselineLoop_single_open (by simpa [hin] using hlater)]
              simp
        -- a bare argument begins in `r`, and none that is pending can be read as one
        · have hstart : startsBare c := by
            simp only [forcesQuotes, escapes, Bool.or_eq_false_iff, beq_eq_false_iff_ne] at hcf
            simp [startsBare, space, hs, hc, hc0, hcf]
          obtain ⟨u, rest, -, hu, heq⟩ := parselineLoop_starts hstart (r := r) (fun d hd => by
            rintro rfl
            exact absurd (hr' _ hd).1 (by decide)) (escapedLine args ++ ['\x00'])
          rw [heq]
          intro h
          obtain ⟨hword, -⟩ := map_cons_eq_ok h
          exact hawk.ne_word (by simpa using hs) hc hu hword

theorem mem_reread {c : Char} {w : Text} (hc : c ∈ w) : ∀ out, c ∈ reread out w := by
  induction w with
  | nil => simp at hc
  | cons d w ih =>
      intro out
      rw [reread, List.mem_append]
      rcases List.mem_cons.1 hc with rfl | hc
      · left
        split <;> simp
      · exact Or.inr (ih hc d)

/-- What is read from a quoted argument could not be left bare. -/
theorem not_bare_reread {arg : Text} (h : ¬ Bare arg) (out : Char) : ¬ Bare (reread out arg) := by
  rintro ⟨hne, hf⟩
  refine h ⟨?_, fun c hc => hf c (mem_reread hc out)⟩
  rintro rfl
  exact hne rfl

/-- Pending arguments stay pending to the end of the line. -/
theorem parselineLoop_skips (args : List Text) (hone : ∀ arg ∈ args, OneLine arg)
    (pending : List Text) (hne : pending ≠ []) (hp : ∀ q ∈ pending, Awkward q) :
    parselineLoop {} (escapedLine args ++ ['\x00']) ≠ .ok (pending ++ args) := by
  induction args generalizing pending with
  | nil =>
      rw [show escapedLine [] ++ ['\x00'] = ['\x00'] from rfl, parselineLoop_space (by decide),
        List.append_nil]
      exact fun h => hne (Except.ok.inj h).symm
  | cons arg args ih =>
      obtain ⟨harg, hargs⟩ := List.forall_mem_cons.1 hone
      rw [show escapedLine (arg :: args) ++ ['\x00'] =
        openVpnEscape arg ++ ' ' :: (escapedLine args ++ ['\x00']) by simp [escapedLine]]
      obtain ⟨q, ps, rfl⟩ := List.exists_cons_of_ne_nil hne
      have hqawk := hp q List.mem_cons_self
      by_cases hbare : Bare arg
      · rw [openVpnEscape_of_bare hbare]
        obtain ⟨c, w, rfl⟩ := List.exists_cons_of_ne_nil hbare.1
        by_cases hawk : isWhitespace c ∨ c = '\''
        · rw [List.append_cons (q :: ps)]
          refine parselineLoop_pending (ih hargs) (c :: w) ?_ _ (by simp) ?_ ?_
          · exact fun d hd => ⟨hbare.2 d hd, (harg d hd).1⟩
          · intro p hpm
            rcases List.mem_append.1 hpm with h | h
            · exact hp p h
            · rw [List.mem_singleton.1 h]
              exact awkward_of_head hbare hawk
          · exact fun h => ⟨c :: w, by simp, h⟩
        · obtain ⟨hs, hc⟩ := not_or.1 hawk
          have hstart : startsBare c := startsBare_of_bare harg hbare List.mem_cons_self
            (by simpa using hs) hc
          obtain ⟨u, rest, -, hu, heq⟩ := parselineLoop_starts hstart (r := w)
            (fun d hd => hbare.ne_backslash (List.mem_cons_of_mem _ hd))
            (escapedLine args ++ ['\x00'])
          rw [heq]
          intro h
          obtain ⟨hword, -⟩ := map_cons_eq_ok h
          exact hqawk.ne_word (by simpa using hs) hc hu hword
      · rw [parselineLoop_quoted harg hbare]
        intro h
        obtain ⟨rfl, -⟩ := map_cons_eq_ok h
        exact not_bare_reread hbare _ hqawk.1

/-! ## Escaping and tokenising -/

theorem parseline_escapedLine (args : List Text) :
    parseline (escapedLine args) = parselineLoop {} (escapedLine args ++ ['\x00']) := by
  cases args with
  | nil => rfl
  | cons arg args => simp [parseline, escapedLine]

/-- An argument that does not survive spoils the line, whatever follows it. -/
theorem parselineLoop_spoiled {arg : Text} {args : List Text} (harg : OneLine arg)
    (hone : ∀ a ∈ args, OneLine a) (h : ¬ RoundTrips arg) :
    parselineLoop {} (openVpnEscape arg ++ ' ' :: (escapedLine args ++ ['\x00'])) ≠
      .ok (arg :: args) := by
  by_cases hbare : Bare arg
  · rw [openVpnEscape_of_bare hbare]
    obtain ⟨c, w, rfl⟩ := List.exists_cons_of_ne_nil hbare.1
    by_cases hawk : isWhitespace c ∨ c = '\''
    · refine parselineLoop_pending (parselineLoop_skips args hone) (c :: w) ?_ [c :: w] (by simp)
        ?_ ?_
      · exact fun d hd => ⟨hbare.2 d hd, (harg d hd).1⟩
      · intro p hp
        rw [List.mem_singleton.1 hp]
        exact awkward_of_head hbare hawk
      · exact fun h => ⟨c :: w, by simp, h⟩
    · -- the word is cut at its first white space
      obtain ⟨hs, hc⟩ := not_or.1 hawk
      have hstart : startsBare c := startsBare_of_bare harg hbare List.mem_cons_self
        (by simpa using hs) hc
      obtain ⟨u, rest, -, hu, heq⟩ := parselineLoop_starts hstart (r := w)
        (fun d hd => hbare.ne_backslash (List.mem_cons_of_mem _ hd))
        (escapedLine args ++ ['\x00'])
      rw [heq]
      intro hread
      obtain ⟨hword, -⟩ := map_cons_eq_ok hread
      obtain rfl : u = w := (List.cons.inj hword).2
      refine h ?_
      rw [RoundTrips, if_pos hbare]
      refine ⟨List.forall_mem_cons.2 ⟨by simpa using hs, fun d hd => ?_⟩, by simpa using hc⟩
      rw [← Bare.space_iff harg (List.mem_cons_of_mem _ hd)]
      exact hu d hd
  · rw [parselineLoop_quoted harg hbare]
    intro hread
    obtain ⟨hsame, -⟩ := map_cons_eq_ok hread
    refine h ?_
    rw [RoundTrips, if_neg hbare]
    exact (reread_quoted_iff harg.chars).1 hsame

/-- **Escaping and tokenising, exactly.** The line of escaped arguments is read back as those
arguments exactly when each of them survives by itself. -/
theorem parseline_escape_iff (args : List Text) (hone : ∀ arg ∈ args, OneLine arg) :
    parseline (escapedLine args) = .ok args ↔ ∀ arg ∈ args, RoundTrips arg := by
  rw [parseline_escapedLine]
  induction args with
  | nil => exact iff_of_true (by decide) (by simp)
  | cons arg args ih =>
      obtain ⟨harg, hone⟩ := List.forall_mem_cons.1 hone
      rw [show escapedLine (arg :: args) ++ ['\x00'] =
        openVpnEscape arg ++ ' ' :: (escapedLine args ++ ['\x00']) by simp [escapedLine],
        List.forall_mem_cons, ← ih hone]
      by_cases h : RoundTrips arg
      · rw [parselineLoop_escape harg h]
        constructor
        · exact fun hread => ⟨h, (map_cons_eq_ok hread).2⟩
        · rintro ⟨-, hrest⟩
          rw [hrest]
          rfl
      · exact iff_of_false (parselineLoop_spoiled harg hone h) fun hread => h hread.1

/-- Two quoted arguments, one of them with a double quote in front. -/
theorem parseline_escape_iff_quoted :
    parseline (escapedLine ["a b".toList, "\"x y".toList]) = .ok ["a b".toList, "\"x y".toList] :=
  (parseline_escape_iff _ (by unfold OneLine; decide)).2 (by decide)

/-- **A backslash is not read back.** The line written for the argument `a\b` is read as
`aa\b`. -/
theorem parseline_escape_counterexample :
    ∃ args : List Text, (∀ arg ∈ args, OneLine arg) ∧ parseline (escapedLine args) ≠ .ok args :=
  ⟨["a\\b".toList], by unfold OneLine; decide, by decide⟩

/-- An escaped argument at the end of a line is read as one with a blank after it. -/
theorem parselineLoop_escape_end {arg : Text} (hone : OneLine arg) :
    parselineLoop {} (openVpnEscape arg ++ ['\x00']) =
      parselineLoop {} (openVpnEscape arg ++ [' ', '\x00']) := by
  by_cases hbare : Bare arg
  · rw [openVpnEscape_of_bare hbare]
    exact parselineLoop_end (fun c hc => hbare.ne_backslash hc) rfl
  · rw [parselineLoop_quotes hone hbare, parselineLoop_quoted hone hbare]

/-- A bare word and an escaped argument without a blank after it. -/
theorem parseline_word_escape {name arg : Text} (hname : Word name) (hbare : Bare name)
    (hone : OneLine arg) :
    parseline (name ++ ' ' :: openVpnEscape arg) = parseline (escapedLine [name, arg]) := by
  have hne : (name ++ ' ' :: openVpnEscape arg).length ≠ 0 := by simp
  have hline : escapedLine [name, arg] ++ ['\x00'] =
      name ++ ' ' :: (openVpnEscape arg ++ [' ', '\x00']) := by
    simp [escapedLine, openVpnEscape_of_bare hbare]
  rw [parseline_escapedLine, parseline, if_neg hne, hline, List.append_assoc, List.cons_append,
    parselineLoop_word hname (by decide), parselineLoop_word hname (by decide),
    parselineLoop_escape_end hone]

/-! ## Arguments with two dashes in front -/

/-- Rounds that read a backslash repeat a character; they do not put dashes in front. -/
theorem reread_ne_dashes (w : Text) : reread '-' w ≠ '-' :: '-' :: w := by
  induction w with
  | nil => simp [reread]
  | cons c w ih =>
      intro h
      rw [reread] at h
      cases hesc : escapes c with
      | true =>
          rw [hesc, if_pos (by decide)] at h
          obtain rfl : c = '-' := (List.cons.inj (List.cons.inj h).2).1
          exact absurd hesc (by decide)
      | false =>
          rw [hesc, if_neg (by simp)] at h
          obtain ⟨rfl, htail⟩ := List.cons.inj h
          exact ih htail

/-- A line of escaped arguments is not read with two dashes in front of the first one. -/
theorem parseline_escapedLine_ne_dashes {x : Text} {args : List Text} (hx : OneLine x)
    (hone : ∀ arg ∈ args, OneLine arg) :
    parseline (escapedLine (x :: args)) ≠ .ok (('-' :: '-' :: x) :: args) := by
  rw [parseline_escapedLine, show escapedLine (x :: args) ++ ['\x00'] =
    openVpnEscape x ++ ' ' :: (escapedLine args ++ ['\x00']) by simp [escapedLine]]
  by_cases hbare : Bare x
  · rw [openVpnEscape_of_bare hbare]
    obtain ⟨c, w, rfl⟩ := List.exists_cons_of_ne_nil hbare.1
    have hword : ∀ d ∈ w, d ≠ '\\' := fun d hd => hbare.ne_backslash (List.mem_cons_of_mem _ hd)
    cases hs : isWhitespace c with
    | true =>
        -- no bare word contains the white space, wherever it is read
        have hdash : forcesQuotes '-' = false := by decide
        have hawk : Awkward ('-' :: '-' :: c :: w) := by
          refine ⟨⟨by simp, ?_⟩, .inl ⟨c, by simp, hs⟩⟩
          intro d hd
          rcases List.mem_cons.1 hd with rfl | hd
          · exact hdash
          · rcases List.mem_cons.1 hd with rfl | hd
            · exact hdash
            · exact hbare.2 d hd
        apply parselineLoop_pending (parselineLoop_skips args hone) (c :: w) _ ['-' :: '-' :: c :: w]
          (by simp)
        · intro q hq
          rw [List.mem_singleton.1 hq]
          exact hawk
        · exact fun h => ⟨_, List.mem_singleton_self _,
            List.mem_cons_of_mem _ (List.mem_cons_of_mem _ h)⟩
        · exact fun d hd => ⟨hbare.2 d hd, (hx d hd).1⟩
    | false =>
        by_cases hc : c = '\''
        · subst hc
          rw [List.cons_append, parselineLoop_open_single]
          by_cases hmem : '\'' ∈ w ++ ' ' :: (escapedLine args ++ ['\x00'])
          · obtain ⟨u, v, heq, hu⟩ := List.eq_append_cons_of_mem hmem
            rw [heq, parselineLoop_single hu]
            intro h
            obtain ⟨hread, -⟩ := map_cons_eq_ok h
            -- the quote in front is never part of what is read between quotes
            have hin : '\'' ∈ [] ++ u.filter (· != '\x00') := by
              rw [hread]
              simp
            exact hu (List.mem_of_mem_filter hin)
          · rw [parselineLoop_single_open hmem]
            intro h
            cases h
        · have hstart := startsBare_of_bare hx hbare List.mem_cons_self hs hc
          obtain ⟨u, rest, hpre, -, heq⟩ := parselineLoop_starts hstart hword
            (escapedLine args ++ ['\x00'])
          rw [heq]
          intro h
          obtain ⟨hread, -⟩ := map_cons_eq_ok h
          have hlen := congrArg List.length hread
          have hle := hpre.length_le
          simp only [List.length_cons] at hlen
          omega
  · rw [parselineLoop_quoted hx hbare]
    intro h
    obtain ⟨hread, -⟩ := map_cons_eq_ok h
    cases x with
    | nil => cases hread
    | cons c w =>
        rw [reread, if_neg (by simp)] at hread
        obtain ⟨rfl, htail⟩ := List.cons.inj hread
        exact reread_ne_dashes w htail

end PortVpn.Config
