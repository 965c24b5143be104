import PortVpn.Config.VpnProfile

/-!
# Inline files

`insertFileData` writes an embedded file as a block between two tags, and `checkinlinefile` takes the
lines up to the end tag. A body without carriage returns is cut into lines at its newlines, and the
lines are put together again, so that only the end tag inside a body and a start tag that is no
single word can spoil a block (`parseConfig_insertFileData`).
-/

set_option autoImplicit false

namespace PortVpn.Config

open PortVpn.Lib

/-! ## The lines of a body -/

/-- Lines that are joined and ended are read again. -/
theorem readLines_joinLines {lines : List Text} (hne : lines ≠ [])
    (h : ∀ l ∈ lines, Unbroken l) (t : Text) :
    readLines (joinLines lines ++ '\n' :: t) = lines ++ readLines t := by
  have hflat : joinLines lines ++ '\n' :: t = lines.flatMap (· ++ ['\n']) ++ t := by
    rw [← joinLines_concat lines hne, List.append_assoc]
    rfl
  rw [hflat]
  clear hflat hne
  induction lines with
  | nil => rfl
  | cons l lines ih =>
      obtain ⟨hl, hlines⟩ := List.forall_mem_cons.1 h
      have hcons : (l :: lines).flatMap (· ++ ['\n']) ++ t =
          l ++ '\n' :: (lines.flatMap (· ++ ['\n']) ++ t) := by
        simp [List.append_assoc]
      rw [hcons, readLines_line hl, ih hlines, List.cons_append]

theorem joinLines_splitOn (s : Text) : joinLines (s.splitOn '\n') = s :=
  List.intercalate_splitOn '\n'

/-- The parts between newlines have no newline in them. -/
theorem newline_notMem_of_mem_splitOn {s l : Text} (hl : l ∈ s.splitOn '\n') : '\n' ∉ l := by
  induction s generalizing l with
  | nil =>
      rw [List.splitOn_nil] at hl
      rw [List.mem_singleton.1 hl]
      exact List.not_mem_nil
  | cons c s ih =>
      rw [List.splitOn_cons_eq_if_modifyHead] at hl
      obtain ⟨l₀, ls, hs⟩ := List.exists_cons_of_ne_nil (List.splitOn_ne_nil '\n' s)
      rw [hs] at hl ih
      split at hl
      · rcases List.mem_cons.1 hl with rfl | hl
        · exact List.not_mem_nil
        · exact ih hl
      · rename_i hc
        rw [List.modifyHead_cons] at hl
        rcases List.mem_cons.1 hl with rfl | hl
        · intro hmem
          rcases List.mem_cons.1 hmem with hn | hmem
          · exact hc (by simp [← hn])
          · exact ih List.mem_cons_self hmem
        · exact ih (List.mem_cons_of_mem _ hl)

theorem unbroken_of_mem_splitOn {s l : Text} (hs : '\r' ∉ s) (hl : l ∈ s.splitOn '\n') :
    Unbroken l := by
  refine ⟨newline_notMem_of_mem_splitOn hl, ?_⟩
  intro hmem
  apply hs
  -- a character of a part is a character of the text
  rw [← joinLines_splitOn s]
  have hflat : '\r' ∈ joinLines (s.splitOn '\n') ++ ['\n'] := by
    rw [joinLines_concat _ (List.splitOn_ne_nil '\n' s)]
    exact List.mem_flatMap.2 ⟨l, hl, List.mem_append_left _ hmem⟩
  rcases List.mem_append.1 hflat with h | h
  · exact h
  · exact absurd (List.mem_singleton.1 h) (by decide)

/-- A body without carriage returns is read as its parts between newlines. -/
theorem readLines_body {s : Text} (hs : '\r' ∉ s) (t : Text) :
    readLines (s ++ '\n' :: t) = s.splitOn '\n' ++ readLines t := by
  have hlines := readLines_joinLines (List.splitOn_ne_nil '\n' s)
    (fun l hl => unbroken_of_mem_splitOn hs hl) t
  rwa [joinLines_splitOn] at hlines

/-! ## Tags -/

/-- The line that starts a block. -/
def startLine (t : Text) : Text := '<' :: t ++ ['>']

theorem trim_of_ends {c d : Char} {t : Text} (hc : ' ' < c) (hd : ' ' < d) :
    trim (c :: t ++ [d]) = c :: t ++ [d] := by
  have hc' : ¬ c ≤ ' ' := Char.not_le.2 hc
  have hd' : ¬ d ≤ ' ' := Char.not_le.2 hd
  simp [trim, hc', hd']

theorem starttag_startLine (t : Text) : starttag (trim (startLine t)) = some t := by
  rw [startLine, trim_of_ends (by decide) (by decide), starttag, List.getLast?_concat]
  simp

theorem trim_endtag (t : Text) : trim (endtag t) = endtag t := by
  have htag : endtag t = '<' :: ('/' :: t) ++ ['>'] := rfl
  rw [htag]
  exact trim_of_ends (by decide) (by decide)

/-- The name of a block can be read from its start tag: the line of the tag is one word. -/
def OneWord (t : Text) : Prop := ∀ c ∈ t, space c = false ∧ c ≠ '\\'

theorem parseline_startLine {t : Text} (ht : OneWord t) :
    parseline (startLine t) = .ok [startLine t] := by
  have hword : Word (startLine t) := by
    refine ⟨by decide, ?_⟩
    intro c hc
    rcases List.mem_append.1 hc with hc | hc
    · exact ht c hc
    · rw [List.mem_singleton.1 hc]
      decide
  have hloop := parselineLoop_word hword (d := '\x00') (by decide) []
  rw [parseline, if_neg (by simp [startLine]), hloop]
  rfl

/-! ## Reading a block -/

/-- The lines before the first end tag are taken. -/
theorem inlineLoop_lines {argname last : Text} {lines : List Text}
    (h : ∀ l ∈ lines, trim l ≠ endtag argname) (hlast : trim last = endtag argname) (file : Text)
    (br : List Text) :
    inlineLoop argname file (lines ++ last :: br) =
      some (file ++ lines.flatMap (· ++ ['\n']), br) := by
  induction lines generalizing file with
  | nil => simp [inlineLoop, hlast]
  | cons l lines ih =>
      obtain ⟨hl, hlines⟩ := List.forall_mem_cons.1 h
      rw [List.cons_append, inlineLoop, if_neg hl, ih hlines]
      simp

theorem checkinlinefile_block {t : Text} {lines : List Text}
    (h : ∀ l ∈ lines, trim l ≠ endtag t) (br : List Text) :
    checkinlinefile [startLine t] (lines ++ endtag t :: br) =
      .ok ([t, INLINE_TAG ++ joinLines lines], br) := by
  have htag : starttag (trim (List.headD [startLine t] [])) = some t := starttag_startLine t
  rw [checkinlinefile]
  rw [htag]
  dsimp only
  rw [inlineLoop_lines h (trim_endtag t)]
  dsimp only
  rw [dropLast_lines (by decide)]

theorem metaStart_startLine (t : Text) : metaStart.isPrefixOf (startLine t) = false := rfl

/-- **A block is read as one option.** -/
theorem readEntries_block {t : Text} (ht : OneWord t) {lines : List Text}
    (h : ∀ l ∈ lines, trim l ≠ endtag t) (n : Nat) (br : List Text) :
    readEntries (n + 1) (startLine t :: (lines ++ endtag t :: br)) =
      (readEntries n br).map (.option [t, INLINE_TAG ++ joinLines lines] :: ·) := by
  rw [readEntries, metaStart_startLine, if_neg Bool.false_ne_true, parseline_startLine ht]
  dsimp only
  have hstrip : stripDashes [startLine t] = [startLine t] := rfl
  rw [hstrip, checkinlinefile_block h]

/-! ## Embedded content -/

/-- An embedded file that starts with its marker has the rest as its content. -/
theorem getEmbeddedContent_inline (s : Text) : getEmbeddedContent (INLINE_TAG ++ s) = s := by
  have hafter : ∀ (c : Char) (tag : Text), afterFirst (c :: tag) (c :: tag ++ s) = some s := by
    intro c tag
    have hpre : (c :: tag).isPrefixOf (c :: (tag ++ s)) = true :=
      List.isPrefixOf_iff_prefix.2 (List.prefix_append (c :: tag) s)
    rw [List.cons_append, afterFirst, if_pos hpre, ← List.cons_append, List.drop_left]
  rw [getEmbeddedContent, show INLINE_TAG = '[' :: "[INLINE]]".toList from rfl, hafter]
  rfl

theorem afterFirst_suffix {target t u : Text} (h : afterFirst target t = some u) : u <:+ t := by
  induction t with
  | nil => cases h
  | cons c t ih =>
      rw [afterFirst] at h
      split at h
      · cases h
        exact List.drop_suffix _ _
      · exact (ih h).trans (List.suffix_cons c t)

theorem getEmbeddedContent_suffix (data : Text) : getEmbeddedContent data <:+ data := by
  rw [getEmbeddedContent]
  cases hafter : afterFirst INLINE_TAG data with
  | none => exact List.suffix_rfl
  | some content => exact afterFirst_suffix hafter

theorem isEmbedded_inline (s : Text) : isEmbedded (INLINE_TAG ++ s) = true := by
  have hpre : INLINE_TAG.isPrefixOf (INLINE_TAG ++ s) = true :=
    List.isPrefixOf_iff_prefix.2 (List.prefix_append INLINE_TAG s)
  rw [isEmbedded, hpre, Bool.true_or]

/-- What is written for an embedded file. -/
theorem insertFileData_embedded {filedata : Text} (h : isEmbedded filedata) (t : Text) :
    insertFileData t (some filedata) =
      startLine t ++ '\n' :: (getEmbeddedContent filedata ++ '\n' :: (endtag t ++ ['\n'])) := by
  rw [insertFileData, if_pos h]
  simp [startLine, endtag]

/-- A name in one piece: it is not empty and has no white space, zero byte, quote, backslash,
start of a comment or angle bracket in it. -/
structure PlainName (t : Text) : Prop where
  ne_nil : t ≠ []
  plain : ∀ c ∈ t, isWhitespace c = false ∧ c ≠ '\x00' ∧
    c ∉ ['"', '\'', '\\', ';', '#', '<', '>']

theorem PlainName.oneWord {t : Text} (h : PlainName t) : OneWord t := by
  intro c hc
  obtain ⟨hs, h0, hplain⟩ := h.plain c hc
  refine ⟨by simp [space, hs, h0], ?_⟩
  rintro rfl
  exact hplain (by decide)

/-- **An embedded file is read as it was written.** -/
theorem parseConfig_insertFileData {t s : Text} (ht : PlainName t) (hs : '\r' ∉ s)
    (hend : ∀ l ∈ s.splitOn '\n', trim l ≠ endtag t) :
    (∃ p, parseConfig (insertFileData t (some (INLINE_TAG ++ s))) = .ok p ∧ p.metaargs = [] ∧
      p.options.map Prod.snd = [[[t, INLINE_TAG ++ s]]]) ∧
    getEmbeddedContent (INLINE_TAG ++ s) = s := by
  refine ⟨?_, getEmbeddedContent_inline s⟩
  -- a name is one word, so the two tags are lines
  have htag : Unbroken (startLine t) ∧ Unbroken (endtag t) := by
    have hword := ht.oneWord
    have hbreak : ∀ c : Char, space c → c ∉ startLine t ∧ c ∉ endtag t := by
      intro c hc
      have hmem : c ∉ t := fun h => by
        have := (hword c h).1
        rw [hc] at this
        cases this
      have h₁ : c ≠ '<' := by rintro rfl; exact absurd hc (by decide)
      have h₂ : c ≠ '>' := by rintro rfl; exact absurd hc (by decide)
      have h₃ : c ≠ '/' := by rintro rfl; exact absurd hc (by decide)
      simp [startLine, endtag, hmem, h₁, h₂, h₃]
    have hn := hbreak '\n' (by decide)
    have hr := hbreak '\r' (by decide)
    exact ⟨⟨hn.1, hr.1⟩, hn.2, hr.2⟩
  have hlines : readLines (insertFileData t (some (INLINE_TAG ++ s))) =
      startLine t :: (s.splitOn '\n' ++ [endtag t]) := by
    rw [insertFileData_embedded (isEmbedded_inline s), getEmbeddedContent_inline,
      readLines_line htag.1, readLines_body hs, readLines_line htag.2]
    rfl
  -- the lines between them are read up to the end tag, and joined again
  have hentries : entriesOf (insertFileData t (some (INLINE_TAG ++ s))) =
      .ok [.option [t, INLINE_TAG ++ s]] := by
    have hfirst : firstLine (startLine t) = .ok (startLine t) := by
      rw [firstLine, if_neg, if_neg]
      · exact fun h => absurd (Option.some.inj h) (by decide)
      · rintro (h | h) <;> cases h
    rw [entriesOf, hlines]
    dsimp only
    rw [hfirst]
    dsimp only
    rw [readEntries_block ht.oneWord hend, joinLines_splitOn]
    cases (s.splitOn '\n' ++ [endtag t]).length with
    | zero => rfl
    | succ n => rfl
  refine ⟨{ options := [(optionname [t, INLINE_TAG ++ s], [[t, INLINE_TAG ++ s]])] }, ?_, rfl, rfl⟩
  rw [parseConfig, hentries]
  rfl

/-- A body with blank lines, a marker and a newline at its end. -/
theorem parseConfig_insertFileData_marker :
    (∃ p, parseConfig (insertFileData "ca".toList
        (some (INLINE_TAG ++ "\n[[INLINE]]a\n\n".toList))) = .ok p ∧ p.metaargs = [] ∧
      p.options.map Prod.snd = [[["ca".toList, INLINE_TAG ++ "\n[[INLINE]]a\n\n".toList]]]) ∧
    getEmbeddedContent (INLINE_TAG ++ "\n[[INLINE]]a\n\n".toList) = "\n[[INLINE]]a\n\n".toList :=
  parseConfig_insertFileData ⟨by decide, by decide⟩ (by decide) (by decide)

/-- **A zero byte separates arguments**: a start tag with one in its name is read as two words. -/
theorem parseConfig_insertFileData_counterexample :
    ∃ t s : Text, t ≠ [] ∧
      (∀ c ∈ t, isWhitespace c = false ∧ c ∉ ['"', '\'', '\\', ';', '#', '<', '>']) ∧
      '\r' ∉ s ∧ (∀ l ∈ s.splitOn '\n', trim l ≠ endtag t) ∧
      (parseConfig (insertFileData t (some (INLINE_TAG ++ s)))).map
        (fun p => p.options.map Prod.snd) ≠ .ok [[[t, INLINE_TAG ++ s]]] :=
  ⟨"a\x00b".toList, [], by decide, by decide, by decide, by decide, by decide⟩

end PortVpn.Config
