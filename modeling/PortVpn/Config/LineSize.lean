import PortVpn.Config.LineReading
import PortVpn.Config.EscapeRoundTrip
import PortVpn.Config.InlineFile

/-!
# The size of what is read

Every character of a line gives at most one character of an argument, or ends one. A text that is
read as itself, with nothing lost behind it, therefore has no character that `parseline` leaves out:
`word_of_parselineLoop` says so for a text as it stands and `roundTrips_of_parselineLoop` for an
escaped one; at the end of a line, an escaped text may have newlines too (`parselineLoop_last_iff`).
-/

set_option autoImplicit false

namespace PortVpn.Config

open PortVpn.Lib

/-! ## Rounds of the loop -/

section Words

variable {s : Parse} {c : Char} {f t : Text} {xs words : List Text}

/-- The characters of the words, and their ends. -/
def size (words : List Text) : Nat := (words.map fun word => word.length + 1).sum

theorem size_append (words words' : List Text) :
    size (words ++ words') = size words + size words' := by
  rw [size, List.map_append, List.sum_append]
  rfl

/-- What the loop has read so far. -/
def Parse.size (s : Parse) : Nat := Config.size s.parameters + s.currentarg.length

theorem Parse.size_store (s : Parse) : s.store.size ≤ s.size + 1 := by
  rw [Parse.store]
  split
  · rw [Parse.size, Parse.size]
    dsimp only
    rw [List.length_append, List.length_singleton]
    omega
  · exact Nat.le_succ _

theorem Parse.size_interpret {s' : Parse} (h : s.interpret c = some s') : s'.size = s.size := by
  rw [Parse.interpret] at h
  split at h
  · split at h
    · cases h
      rfl
    · split at h
      · cases h
      · split at h
        · cases h
          rfl
        · split at h
          · cases h
            rfl
          · cases h
            rfl
  all_goals
    split at h
    · cases h
      rfl
    · cases h
      rfl

/-- A round adds one character or ends an argument. -/
theorem Parse.size_round (s : Parse) :
    (Parse.store { s.finish with backslash := false }).size ≤ s.size + 1 := by
  rw [Parse.finish]
  by_cases hdone : s.state = .done
  · rw [if_pos hdone, Parse.store]
    dsimp only
    rw [if_neg (by decide), Parse.size, Parse.size, size_append]
    dsimp only
    simp only [Config.size, List.map_cons, List.map_nil, List.sum_cons, List.sum_nil,
      List.length_nil]
    omega
  · rw [if_neg hdone]
    exact Parse.size_store { s with backslash := false }

theorem size_le_of_parselineLoop (h : parselineLoop s t = .ok words) :
    size words ≤ s.size + t.length := by
  induction t generalizing s with
  | nil =>
      rw [parselineLoop] at h
      cases h
      rw [Parse.size]
      omega
  | cons c t ih =>
      rw [parselineLoop] at h
      rw [List.length_cons]
      split at h
      · have hrest := ih h
        have hstore := Parse.size_store { s with backslash := true }
        have hsame : ({ s with backslash := true } : Parse).size = s.size := rfl
        omega
      · split at h
        · cases h
          rw [Parse.size]
          omega
        · rename_i s' hinterpret
          have hsame := Parse.size_interpret hinterpret
          have hround := Parse.size_round s'
          dsimp only at h hround
          split at h
          · cases h
          · have hrest := ih h
            omega

/-- A character that starts no bare argument gives no character. -/
theorem size_le_of_not_startsBare (hc : startsBare c = false)
    (h : parselineLoop {} (c :: t) = .ok words) : size words ≤ t.length := by
  have hempty : ∀ s : Parse, s.parameters = [] → s.currentarg = [] →
      parselineLoop s t = .ok words → size words ≤ t.length := by
    intro s hparameters hcurrentarg hloop
    have hsize := size_le_of_parselineLoop hloop
    rw [Parse.size, hparameters, hcurrentarg] at hsize
    simpa [size] using hsize
  rw [parselineLoop] at h
  split at h
  · exact hempty _ rfl rfl h
  · rename_i hquotes
    have hback : c ≠ '\\' := by
      rintro rfl
      exact hquotes rfl
    rw [Parse.interpret] at h
    dsimp only at h
    by_cases hspace : space c
    · rw [if_pos hspace] at h
      exact hempty _ rfl rfl h
    · rw [if_neg hspace] at h
      by_cases hcomment : (c == ';' || c == '#') = true
      · rw [if_pos hcomment] at h
        cases h
        exact Nat.zero_le _
      · rw [if_neg hcomment] at h
        by_cases hdouble : c = '"'
        · subst hdouble
          exact hempty _ rfl rfl h
        · by_cases hsingle : c = '\''
          · subst hsingle
            exact hempty _ rfl rfl h
          · -- every other character starts a bare argument
            rw [startsBare] at hc
            simp only [Bool.or_eq_true, beq_iff_eq, not_or] at hcomment
            simp [hspace, hcomment, hdouble, hsingle, hback] at hc

/-- Inside an argument a character leaves what has been read as it is. -/
theorem Parse.interpret_inside {s' : Parse} (h : s.interpret c = some s')
    (hstate : s.state ≠ .initial) :
    s'.currentarg = s.currentarg ∧ s'.parameters = s.parameters ∧ s'.state ≠ .initial := by
  have hdone : Linestate.done ≠ .initial := by decide
  rw [Parse.interpret] at h
  split at h
  · rename_i hinitial
    exact absurd hinitial hstate
  all_goals
    split at h
    · cases h
      exact ⟨rfl, rfl, hdone⟩
    · cases h
      exact ⟨rfl, rfl, hstate⟩

theorem Parse.store_inside (s : Parse) : s.currentarg <+: s.store.currentarg ∧
    s.store.state = s.state ∧ s.store.parameters = s.parameters := by
  rw [Parse.store]
  split
  · exact ⟨List.prefix_append _ _, rfl, rfl⟩
  · exact ⟨List.prefix_rfl, rfl, rfl⟩

/-- The argument that is being read stands in front of the first one that is read. -/
theorem prefix_of_parselineLoop {x : Text} (hstate : s.state ≠ .initial)
    (hnone : s.parameters = []) (h : parselineLoop s t = .ok (x :: xs)) : s.currentarg <+: x := by
  induction t generalizing s with
  | nil =>
      rw [parselineLoop, hnone] at h
      cases h
  | cons c t ih =>
      rw [parselineLoop] at h
      split at h
      · -- a backslash stores the last character again
        obtain ⟨hcurrent, hsame, hparameters⟩ := Parse.store_inside { s with backslash := true }
        exact hcurrent.trans
          (ih (by rw [hsame]; exact hstate) (by rw [hparameters]; exact hnone) h)
      · split at h
        · rw [hnone] at h
          cases h
        · rename_i s' hinterpret
          obtain ⟨hcurrent, hparameters, hstate'⟩ := Parse.interpret_inside hinterpret hstate
          rw [hnone] at hparameters
          dsimp only at h
          split at h
          · cases h
          · by_cases hdone : s'.state = .done
            · -- the argument ends here
              have hfinish : ({ s'.finish with backslash := false } : Parse).store =
                  { parameters := [s'.currentarg] } := by
                rw [Parse.finish, if_pos hdone, hparameters]
                rfl
              rw [hfinish, parselineLoop_done] at h
              obtain ⟨hx, -⟩ := map_cons_eq_ok h
              rw [← hcurrent, hx]
            · have hfinish : s'.finish = s' := if_neg hdone
              rw [hfinish] at h
              obtain ⟨hlead, hsame, hpar⟩ := Parse.store_inside { s' with backslash := false }
              rw [← hcurrent]
              exact hlead.trans
                (ih (by rw [hsame]; exact hstate') (by rw [hpar]; exact hparameters) h)

/-- A backslash inside a bare argument stores a character that was put out before it. -/
theorem repeated_of_backslash {out : Char} {cur v x : Text} (hout : out ≠ '\x00')
    (hv : OneWord v)
    (h : parselineLoop { state := .readingUnquoted, out := out, currentarg := cur }
      (v ++ '\\' :: t) = .ok (x :: xs)) :
    ∃ d ∈ out :: v, cur ++ v ++ [d] <+: x := by
  induction v generalizing out cur with
  | nil =>
      rw [List.nil_append, parselineLoop_backslash (Or.inl rfl), if_pos hout] at h
      refine ⟨out, List.mem_cons_self, ?_⟩
      rw [List.append_nil]
      have hstate : Linestate.readingUnquoted ≠ .initial := by decide
      exact prefix_of_parselineLoop hstate rfl h
  | cons e v ih =>
      obtain ⟨he, hv⟩ := List.forall_mem_cons.1 hv
      have hnul : e ≠ '\x00' := by
        rintro rfl
        exact absurd he.1 (by decide)
      rw [List.cons_append, parselineLoop_plain (Or.inl rfl) he hnul] at h
      obtain ⟨d, hd, hlead⟩ := ih hnul hv h
      refine ⟨d, List.mem_cons_of_mem _ hd, ?_⟩
      rwa [List.append_cons cur e v]

/-- The first character that ends a bare argument or quotes the next one. -/
theorem exists_of_not_oneWord {w : Text} (h : ¬ OneWord w) :
    ∃ v d r, w = v ++ d :: r ∧ OneWord v ∧ (space d = true ∨ d = '\\') := by
  induction w with
  | nil => exact absurd (fun d hd => absurd hd List.not_mem_nil) h
  | cons d w ih =>
      by_cases hspace : space d = true
      · exact ⟨[], d, w, rfl, fun e he => absurd he List.not_mem_nil, .inl hspace⟩
      · by_cases hback : d = '\\'
        · exact ⟨[], d, w, rfl, fun e he => absurd he List.not_mem_nil, .inr hback⟩
        · have hd : space d = false ∧ d ≠ '\\' := ⟨Bool.eq_false_iff.2 hspace, hback⟩
          obtain ⟨v, e, r, rfl, hv, he⟩ := ih fun hall => h (List.forall_mem_cons.2 ⟨hd, hall⟩)
          exact ⟨d :: v, e, r, rfl, List.forall_mem_cons.2 ⟨hd, hv⟩, he⟩

/-- What is behind the first character of a bare argument that is read as itself. -/
theorem oneWord_of_parselineLoop {w : Text} (hc : startsBare c)
    (h : parselineLoop {} (c :: (w ++ t)) = .ok ((c :: w) :: xs)) : OneWord w := by
  by_contra hnot
  obtain ⟨v, d, r, rfl, hv, hd⟩ := exists_of_not_oneWord hnot
  rw [List.append_assoc, List.cons_append, parselineLoop_open_bare hc] at h
  rcases hd with hspace | rfl
  · -- the argument ends too early
    rw [parselineLoop_bare hv hspace] at h
    obtain ⟨hword, -⟩ := map_cons_eq_ok h
    have hlength := congrArg List.length hword
    simp only [List.length_append, List.length_cons, List.length_nil] at hlength
    omega
  · -- the backslash stores the character before it again, and none of these is a backslash
    have hnul : c ≠ '\x00' := by
      rintro rfl
      exact absurd hc (by decide)
    obtain ⟨e, he, hlead⟩ := repeated_of_backslash hnul hv h
    rw [List.append_assoc, List.singleton_append, List.cons_prefix_cons,
      List.prefix_append_right_inj, List.cons_prefix_cons] at hlead
    obtain rfl : e = '\\' := hlead.2.1
    rcases List.mem_cons.1 he with rfl | he
    · exact absurd hc (by decide)
    · exact (hv _ he).2 rfl

/-- **A text that is read as itself is a word**, if what is behind it is read without loss. -/
theorem word_of_parselineLoop {blank : Char} (hblank : space blank)
    (h : parselineLoop {} (f ++ blank :: t) = .ok (f :: xs)) (hxs : t.length ≤ size xs) :
    Word f := by
  have hsize : size (f :: xs) = f.length + 1 + size xs := rfl
  cases f with
  | nil =>
      have hstarts : startsBare blank = false := by
        rw [startsBare, hblank]
        rfl
      have hless := size_le_of_not_startsBare hstarts h
      -- the blank gives nothing, so that the empty word is one character too many
      rw [List.length_nil] at hsize
      omega
  | cons c w =>
      rw [List.cons_append] at h
      cases hc : startsBare c with
      | false =>
          have hless := size_le_of_not_startsBare hc h
          rw [List.length_append, List.length_cons] at hless
          rw [List.length_cons] at hsize
          omega
      | true => exact ⟨hc, oneWord_of_parselineLoop hc h⟩

/-- A bare argument is a word exactly if it is read back. -/
theorem word_iff_of_bare (h0 : '\x00' ∉ f) (hbare : Bare f) : Word f ↔ RoundTrips f := by
  obtain ⟨c, w, rfl⟩ := List.exists_cons_of_ne_nil hbare.1
  have hspace : ∀ d ∈ c :: w, space d = isWhitespace d := fun d hd => by
    simp [space, show d ≠ '\x00' from fun h => h0 (h ▸ hd)]
  have hback : ∀ d ∈ w, d ≠ '\\' := fun d hd => hbare.ne_backslash (List.mem_cons_of_mem _ hd)
  have hstarts : startsBare c ↔ isWhitespace c = false ∧ c ≠ '\'' := by
    have hforces := hbare.2 c List.mem_cons_self
    simp only [forcesQuotes, escapes, Bool.or_eq_false_iff, beq_eq_false_iff_ne] at hforces
    simp [startsBare, hspace c List.mem_cons_self, hforces]
  have hhead : (c :: w).head? ≠ some '\'' ↔ c ≠ '\'' := by simp
  rw [RoundTrips, if_pos hbare, Word, hstarts, List.forall_mem_cons, hhead]
  constructor
  · rintro ⟨⟨hc, hquote⟩, hw⟩
    exact ⟨⟨hc, fun d hd => (hspace d (List.mem_cons_of_mem _ hd)).symm.trans (hw d hd).1⟩,
      hquote⟩
  · rintro ⟨⟨hc, hw⟩, hquote⟩
    exact ⟨⟨hc, hquote⟩, fun d hd =>
      ⟨(hspace d (List.mem_cons_of_mem _ hd)).trans (hw d hd), hback d hd⟩⟩

/-- **An argument that is read as itself survives**, if what is behind it is read without loss. -/
theorem roundTrips_of_parselineLoop {blank : Char} (hblank : space blank) (hone : OneLine f)
    (h : parselineLoop {} (openVpnEscape f ++ blank :: t) = .ok (f :: xs))
    (hxs : t.length ≤ size xs) : RoundTrips f := by
  by_cases hbare : Bare f
  · rw [openVpnEscape_of_bare hbare] at h
    have h0 : '\x00' ∉ f := fun hm => (hone _ hm).1 rfl
    exact (word_iff_of_bare h0 hbare).1 (word_of_parselineLoop hblank h hxs)
  · rw [parselineLoop_quotes hone hbare] at h
    rw [RoundTrips, if_neg hbare]
    obtain ⟨hword, -⟩ := map_cons_eq_ok h
    exact (reread_quoted_iff hone.chars).1 hword

/-- Nothing is read behind an argument at the end of a line that is read as itself. -/
theorem eq_nil_of_parselineLoop (hone : OneLine f)
    (h : parselineLoop {} (openVpnEscape f ++ ['\x00']) = .ok (f :: xs)) : xs = [] := by
  by_cases hbare : Bare f
  · rw [openVpnEscape_of_bare hbare] at h
    have hsize := size_le_of_parselineLoop h
    cases xs with
    | nil => rfl
    | cons x xs =>
        simp only [size, Parse.size, List.map_cons, List.sum_cons, List.map_nil, List.sum_nil,
          List.length_append, List.length_cons, List.length_nil] at hsize
        omega
  · rw [parselineLoop_quotes hone hbare] at h
    obtain ⟨-, hend⟩ := map_cons_eq_ok h
    cases hend
    rfl

end Words

/-! ## The last argument of a line -/

/-- An argument that is read back at the end of a line. -/
def Survives (arg : Text) : Prop := '\n' ∉ arg ∧ RoundTrips arg

instance : DecidablePred Survives := fun arg => by
  rw [Survives]
  infer_instance

section Last

variable {arg : Text}

/-- A newline is written as a backslash and a letter, which is no escape for `parseline`. -/
theorem parselineLoop_newline (h : '\n' ∈ arg) (h0 : '\x00' ∉ arg) (out : Char) (cur t : Text) :
    ∃ e, parselineLoop { state := .readingQuoted, out := out, currentarg := cur }
      (escapedString arg ++ t) = .error e := by
  induction arg generalizing out cur with
  | nil => exact absurd h List.not_mem_nil
  | cons c w ih =>
      obtain ⟨hc, hw⟩ := not_or.1 (mt List.mem_cons.2 h0)
      have hc : c ≠ '\x00' := Ne.symm hc
      rw [escapedString_cons]
      by_cases hn : c = '\n'
      · subst hn
        have hescaping : Linestate.readingQuoted.Escaping := .inr rfl
        simp only [Char.reduceEq, if_false, if_true, List.cons_append, List.nil_append]
        rw [parselineLoop_backslash hescaping]
        exact parselineLoop_quoted_bad hescaping (by decide) (by decide) _
      · have hmem : '\n' ∈ w := (List.mem_cons.1 h).resolve_left (Ne.symm hn)
        obtain ⟨e, he⟩ := ih hmem hw c
          (cur ++ if escapes c && out != '\x00' then [out, c] else [c])
        refine ⟨e, ?_⟩
        rw [← he]
        by_cases hb : c = '\\'
        · by_cases ho : out = '\x00' <;>
          simp [parselineLoop, Parse.quotes, Parse.interpret, Parse.finish, Parse.badBackslash,
            Parse.store, escapes, hb, ho]
        · by_cases hq : c = '"'
          · by_cases ho : out = '\x00' <;>
            simp [parselineLoop, Parse.quotes, Parse.interpret, Parse.finish, Parse.badBackslash,
              Parse.store, escapes, hq, ho]
          · simp [parselineLoop, Parse.quotes, Parse.interpret, Parse.finish, Parse.badBackslash,
              Parse.store, escapes, hb, hq, hn, hc]

/-- **The last argument of a line** is read back exactly if it survives. -/
theorem parselineLoop_last_iff (h0 : '\x00' ∉ arg) :
    parselineLoop {} (openVpnEscape arg ++ ['\x00']) = .ok [arg] ↔ Survives arg := by
  by_cases hbare : Bare arg
  · have hn : '\n' ∉ arg := fun hm => absurd (hbare.2 _ hm) (by decide)
    rw [openVpnEscape_of_bare hbare, Survives, and_iff_right hn, ← word_iff_of_bare h0 hbare]
    constructor
    · exact fun h => word_of_parselineLoop (by decide) h (Nat.zero_le _)
    · intro hword
      rw [parselineLoop_word hword (by decide)]
      rfl
  · rw [openVpnEscape_of_not_bare hbare, List.cons_append, List.cons_append, List.append_assoc,
      parselineLoop_open_double]
    by_cases hn : '\n' ∈ arg
    · obtain ⟨e, he⟩ := parselineLoop_newline hn h0 '\x00' [] (['"'] ++ ['\x00'])
      rw [he]
      exact iff_of_false (by simp) fun h => h.1 hn
    · have hchars : ∀ c ∈ arg, c ≠ '\x00' ∧ c ≠ '\n' := fun c hc =>
        ⟨fun h => h0 (h ▸ hc), fun h => hn (h ▸ hc)⟩
      have hread : parselineLoop {} ['\x00'] = .ok [] := by decide
      rw [List.singleton_append, parselineLoop_double hchars, hread, Survives, and_iff_right hn,
        RoundTrips, if_neg hbare, ← reread_quoted_iff hchars]
      simp [Except.map]

end Last

end PortVpn.Config
