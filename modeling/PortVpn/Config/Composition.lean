import PortVpn.Config.InlineFile

/-!
# Reading one text after another

A configuration is read line by line, and a block keeps its lines to itself. After whole lines that
could be read, `parseConfig` goes on as if it had begun there with the options found so far
(`parseConfig_append`).
-/

set_option autoImplicit false

namespace PortVpn.Config

open PortVpn.Lib

/-! ## Blocks -/

section Blocks

variable {args args' : Args} {br br' : List Text}

/-- A block takes lines from the front. -/
theorem suffix_of_checkinlinefile (h : checkinlinefile args br = .ok (args', br')) : br' <:+ br := by
  rw [checkinlinefile] at h
  split at h
  · obtain ⟨-, rfl⟩ := Prod.mk.inj (Except.ok.inj h)
    exact List.suffix_rfl
  · split at h
    · cases h
    · rename_i file rest hloop
      obtain ⟨-, rfl⟩ := Prod.mk.inj (Except.ok.inj h)
      obtain ⟨lines, last, rfl, -, -⟩ := inlineLoop_eq_some hloop
      exact (List.suffix_cons last rest).trans (List.suffix_append lines _)

theorem inlineLoop_append {argname file inlinefile : Text}
    (h : inlineLoop argname file br = some (inlinefile, br')) (more : List Text) :
    inlineLoop argname file (br ++ more) = some (inlinefile, br' ++ more) := by
  induction br generalizing file with
  | nil => exact nomatch h
  | cons line br ih =>
      rw [inlineLoop] at h
      rw [List.cons_append, inlineLoop]
      split at h
      · rename_i hend
        obtain ⟨rfl, rfl⟩ := Prod.mk.inj (Option.some.inj h)
        rw [if_pos hend]
      · rename_i hend
        rw [if_neg hend]
        exact ih h

/-- The lines behind a block do not matter to it. -/
theorem checkinlinefile_append (h : checkinlinefile args br = .ok (args', br'))
    (more : List Text) : checkinlinefile args (br ++ more) = .ok (args', br' ++ more) := by
  rw [checkinlinefile] at h ⊢
  cases htag : starttag (trim (args.headD [])) with
  | none =>
      rw [htag] at h
      obtain ⟨rfl, rfl⟩ := Prod.mk.inj (Except.ok.inj h)
      rfl
  | some argname =>
      rw [htag] at h
      dsimp only at h ⊢
      cases hloop : inlineLoop argname INLINE_TAG br with
      | none =>
          rw [hloop] at h
          cases h
      | some r =>
          obtain ⟨inlinefile, rest⟩ := r
          rw [hloop] at h
          obtain ⟨rfl, rfl⟩ := Prod.mk.inj (Except.ok.inj h)
          rw [inlineLoop_append hloop]

end Blocks

/-! ## The rounds of the loop -/

/-- A round for every line is enough. -/
theorem readEntries_rounds {n m : Nat} {br : List Text} (hn : br.length ≤ n) (hm : br.length ≤ m) :
    readEntries n br = readEntries m br := by
  induction n generalizing m br with
  | zero =>
      rw [List.eq_nil_of_length_eq_zero (Nat.le_zero.1 hn)]
      cases m <;> rfl
  | succ n ih =>
      cases br with
      | nil => cases m <;> rfl
      | cons line br =>
          cases m with
          | zero => exact absurd hm (by simp)
          | succ m =>
              have hn := Nat.le_of_succ_le_succ hn
              have hm := Nat.le_of_succ_le_succ hm
              rw [readEntries, readEntries, ih hn hm]
              split
              · rfl
              · split
                · rfl
                · rfl
                · rename_i arg0 rest _
                  cases hcheck : checkinlinefile (stripDashes (arg0 :: rest)) br with
                  | error e => rfl
                  | ok r =>
                      have hlen := (suffix_of_checkinlinefile hcheck).length_le
                      dsimp only
                      rw [ih (hlen.trans hn) (hlen.trans hm)]

/-- What has been read is read before other lines too, and these are read next. -/
theorem readEntries_append {n : Nat} {br : List Text} {entries : List Entry} (hn : br.length ≤ n)
    (h : readEntries n br = .ok entries) (more : List Text) :
    readEntries (n + more.length) (br ++ more) =
      (readEntries more.length more).map (entries ++ ·) := by
  induction n generalizing br entries with
  | zero =>
      rw [List.eq_nil_of_length_eq_zero (Nat.le_zero.1 hn)] at h ⊢
      obtain rfl := Except.ok.inj h
      rw [Nat.zero_add, List.nil_append]
      cases readEntries more.length more <;> rfl
  | succ n ih =>
      cases br with
      | nil =>
          obtain rfl := Except.ok.inj h
          rw [List.nil_append, readEntries_rounds (by omega) (Nat.le_refl more.length)]
          cases readEntries more.length more <;> rfl
      | cons line br =>
          have hn := Nat.le_of_succ_le_succ hn
          rw [readEntries] at h
          rw [Nat.add_right_comm, List.cons_append, readEntries]
          split at h
          · rename_i hmeta
            rw [if_pos hmeta]
            obtain ⟨es, hes, rfl⟩ := map_eq_ok h
            rw [ih hn hes]
            cases readEntries more.length more <;> rfl
          · rename_i hmeta
            rw [if_neg hmeta]
            split at h
            · cases h
            · exact ih hn h
            · split at h
              · cases h
              · rename_i args br' hcheck
                have hlen := (suffix_of_checkinlinefile hcheck).length_le
                obtain ⟨es, hes, rfl⟩ := map_eq_ok h
                rw [checkinlinefile_append hcheck]
                dsimp only
                rw [ih (hlen.trans hn) hes]
                cases readEntries more.length more <;> rfl

/-! ## Reading on -/

/-- The loop of `parseConfig` at the start of a line, with what has been found so far. -/
def ConfigParser.readOn (p : ConfigParser) (t : Text) : Except Thrown ConfigParser :=
  (readEntries (readLines t).length (readLines t)).map fun entries => entries.foldl ConfigParser.keep p

/-- The first line is the beginning of the text. -/
theorem prefix_of_readLines {t line : Text} {br : List Text} (h : readLines t = line :: br) :
    line <+: t := by
  have hfrom : ∀ (t taken : Text), readLinesFrom false taken t = line :: br → line <+: taken ++ t := by
    intro t
    induction t with
    | nil =>
        intro taken htaken
        rw [readLinesFrom] at htaken
        split at htaken
        · cases htaken
        · obtain ⟨rfl, -⟩ := List.cons.inj htaken
          exact List.prefix_append taken []
    | cons c t ih =>
        intro taken htaken
        rw [readLinesFrom, if_neg (by simp)] at htaken
        split at htaken
        · obtain ⟨rfl, -⟩ := List.cons.inj htaken
          exact List.prefix_append taken (c :: t)
        · simpa using ih _ htaken
  exact hfrom t [] h

/-- Only the first line of a file is looked at for an archive or a byte order mark. -/
theorem readEntries_of_entriesOf {t : Text} {entries : List Entry} (hmark : t.head? ≠ some '\uFEFF')
    (h : entriesOf t = .ok entries) : readEntries (readLines t).length (readLines t) = .ok entries := by
  rw [entriesOf] at h
  cases hlines : readLines t with
  | nil =>
      rw [hlines] at h
      exact h
  | cons line br =>
      rw [hlines] at h
      dsimp only at h
      have hline : line.head? ≠ some '\uFEFF' := by
        obtain ⟨rest, rfl⟩ := prefix_of_readLines hlines
        intro hhead
        exact hmark (by rw [List.head?_append, hhead]; rfl)
      have hfirst : ∀ line', firstLine line = .ok line' → line' = line := by
        intro line' hok
        rw [firstLine, if_neg hline] at hok
        split at hok
        · cases hok
        · exact (Except.ok.inj hok).symm
      split at h
      · cases h
      · rename_i line' hok
        obtain rfl := hfirst line' hok
        exact h

theorem readOn_append {a b : Text} {entries : List Entry} (p : ConfigParser) (hw : WholeLines a)
    (h : readEntries (readLines a).length (readLines a) = .ok entries) :
    p.readOn (a ++ b) = (entries.foldl ConfigParser.keep p).readOn b := by
  rw [ConfigParser.readOn, ConfigParser.readOn, readLines_append hw, List.length_append,
    readEntries_append (Nat.le_refl _) h]
  cases readEntries (readLines b).length (readLines b) with
  | error e => rfl
  | ok es => exact congrArg Except.ok List.foldl_append

theorem readLines_ne_nil {t : Text} (h : t ≠ []) : readLines t ≠ [] := by
  have hfrom : ∀ (t line : Text) (skipLF : Bool), line ≠ [] → readLinesFrom skipLF line t ≠ [] := by
    intro t
    induction t with
    | nil =>
        intro line skipLF hline
        rw [readLinesFrom, if_neg hline]
        exact List.cons_ne_nil _ _
    | cons c t ih =>
        intro line skipLF hline
        rw [readLinesFrom]
        split
        · exact ih line false hline
        · split
          · exact List.cons_ne_nil _ _
          · exact ih _ false (by simp)
  obtain ⟨c, t, rfl⟩ := List.exists_cons_of_ne_nil h
  rw [readLines, readLinesFrom, if_neg (by simp)]
  split
  · exact List.cons_ne_nil _ _
  · exact hfrom t _ false (by simp)

theorem given_append (name : String) (ds ds' : List Args) :
    given name (ds ++ ds') = given name ds ++ given name ds' := List.filter_append ..

/-- Whole lines with these entries, at any place of a configuration but its first line. -/
structure EntriesIn (t : Text) (entries : List Entry) : Prop where
  wholeLines : WholeLines t
  read : readEntries (readLines t).length (readLines t) = .ok entries

namespace EntriesIn

variable {a b : Text} {es fs : List Entry}

theorem nil : EntriesIn [] [] := ⟨wholeLines_nil, rfl⟩

theorem append (ha : EntriesIn a es) (hb : EntriesIn b fs) : EntriesIn (a ++ b) (es ++ fs) := by
  refine ⟨ha.wholeLines.append hb.wholeLines, ?_⟩
  rw [readLines_append ha.wholeLines, List.length_append,
    readEntries_append (Nat.le_refl _) ha.read, hb.read]
  rfl

theorem flatMap {α : Type} {l : List α} {f : α → Text} {g : α → List Entry}
    (h : ∀ x ∈ l, EntriesIn (f x) (g x)) : EntriesIn (l.flatMap f) (l.flatMap g) := by
  induction l with
  | nil => exact nil
  | cons x l ih =>
      obtain ⟨hx, hl⟩ := List.forall_mem_cons.1 h
      exact hx.append (ih hl)

/-- A line with an option that opens no block. -/
theorem line {t name : Text} {args : Args} (ht : Unbroken t)
    (hmeta : metaStart.isPrefixOf t = false) (hparse : parseline t = .ok (name :: args))
    (hdashes : stripDashes (name :: args) = name :: args) (htag : starttag (trim name) = none) :
    EntriesIn (t ++ "\n".toList) [.option (name :: args)] := by
  refine ⟨wholeLines_newline t, ?_⟩
  have hlines : readLines (t ++ "\n".toList) = [t] := readLines_line ht []
  have hcheck : checkinlinefile (name :: args) [] = .ok (name :: args, []) := by
    rw [checkinlinefile, List.headD_cons, htag]
  rw [hlines, List.length_singleton, readEntries, hmeta, if_neg Bool.false_ne_true, hparse]
  dsimp only
  rw [hdashes, hcheck]
  rfl

end EntriesIn

/-- The entries of one text after another, if the first one can be read alone. -/
theorem entriesOf_append {a b : Text} {entries : List Entry} (hw : WholeLines a) (hne : a ≠ [])
    (h : entriesOf a = .ok entries) :
    entriesOf (a ++ b) = (readEntries (readLines b).length (readLines b)).map (entries ++ ·) := by
  obtain ⟨line, br, hlines⟩ := List.exists_cons_of_ne_nil (readLines_ne_nil hne)
  rw [entriesOf, hlines] at h
  dsimp only at h
  have hall : readLines (a ++ b) = line :: (br ++ readLines b) := by
    rw [readLines_append hw, hlines, List.cons_append]
  rw [entriesOf, hall]
  dsimp only
  split at h
  · cases h
  · rename_i line' hfirst
    have happ := readEntries_append (Nat.le_refl (line' :: br).length) h (readLines b)
    have hlen : (line' :: br).length + (readLines b).length = (br ++ readLines b).length + 1 := by
      simp only [List.length_cons, List.length_append]
      omega
    rw [← hlen, ← List.cons_append]
    exact happ

/-- **One text after another.** Behind whole lines that `parseConfig` accepts, it reads any text as
if the options of these lines had just been found: no state but the two maps is carried over. -/
theorem parseConfig_append {a b : Text} {p : ConfigParser} (hw : WholeLines a) (hne : a ≠ [])
    (h : parseConfig a = .ok p) : parseConfig (a ++ b) = p.readOn b := by
  obtain ⟨entries, hentries, rfl⟩ := map_eq_ok h
  rw [parseConfig, entriesOf_append hw hne hentries, ConfigParser.readOn]
  cases readEntries (readLines b).length (readLines b) with
  | error e => rfl
  | ok es => exact congrArg Except.ok List.foldl_append

end PortVpn.Config
