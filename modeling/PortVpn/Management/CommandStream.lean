import PortVpn.Lib.Utf8

/-!
# The command stream

`run` decodes what each `read` returns and appends it to the pending input; `processInput` takes the
finished lines from the front of it. Where the reads end does not matter for the lines, but it does
for the characters: `run_commands_iff` says that the commands are those of the decoded stream exactly
if no read begins inside a character.
-/

set_option autoImplicit false

namespace PortVpn.Management

open PortVpn.Lib PortVpn.Lib.Utf8

/-! ## The thread -/

/-- A text without its last character, if that is a carriage return. -/
def dropReturn (t : Text) : Text := if t.getLast? = some '\r' then t.dropLast else t

/-- `pendingInput.split("\\r?\\n", 2)`: the text around the first newline, a carriage return before
it being part of it. -/
def splitNewline (pendingInput : Text) : List Text :=
  match pendingInput.dropWhile (· ≠ '\n') with
  | [] => [pendingInput]
  | _ :: rest => [dropReturn (pendingInput.takeWhile (· ≠ '\n')), rest]

/-- The loop of `processInput`, for a number of rounds: the commands, and the pending input. -/
def processLoop : Nat → Text → List Text × Text
  | 0, pendingInput => ([], pendingInput)
  | rounds + 1, pendingInput =>
      if '\n' ∈ pendingInput then
        match splitNewline pendingInput with
        | token :: rest :: _ =>
            let r := processLoop rounds rest
            (token :: r.1, r.2)
        | [token] =>
            let r := processLoop rounds []
            (token :: r.1, r.2)
        | [] => ([], pendingInput)
      else ([], pendingInput)

/-- `processInput`; every round takes a newline, and `processCommand` is taken to return for each of
the commands. -/
def processInput (pendingInput : Text) : List Text × Text :=
  processLoop pendingInput.length pendingInput

/-- What one `read` puts into the buffer. -/
abbrev Read := { bs : List UInt8 // 1 ≤ bs.length ∧ bs.length ≤ 2048 }

/-- The loop of `run`, as long as `processCommand` returns: the commands, and the pending input at the
end. -/
def run : Text → List Read → List Text × Text
  | pendingInput, [] => ([], pendingInput)
  | pendingInput, buffer :: reads =>
      let p := processInput (pendingInput ++ decode buffer.1)
      let r := run p.2 reads
      (p.1 ++ r.1, r.2)

/-! ## Lines -/

/-- The lines of a text that end with a newline, without it and without a carriage return before
it. -/
def commandsOf (t : Text) : List Text := (t.splitOn '\n').dropLast.map dropReturn

/-- The text behind the last newline. -/
def restOf (t : Text) : Text := ((t.splitOn '\n').getLast?).getD []

theorem lines_of_notMem {t : Text} (h : '\n' ∉ t) : commandsOf t = [] ∧ restOf t = t := by
  rw [commandsOf, restOf, List.splitOn_eq_singleton h]
  exact ⟨rfl, rfl⟩

theorem lines_append_newline {line : Text} (h : '\n' ∉ line) (t : Text) :
    commandsOf (line ++ '\n' :: t) = dropReturn line :: commandsOf t ∧
      restOf (line ++ '\n' :: t) = restOf t := by
  have hne := List.splitOn_ne_nil '\n' t
  rw [commandsOf, restOf, List.splitOn_append_cons_self, List.splitOn_eq_singleton h,
    List.singleton_append, List.dropLast_cons_of_ne_nil hne, List.getLast?_cons,
    List.getLast?_eq_some_getLast hne]
  refine ⟨rfl, ?_⟩
  rw [restOf, List.getLast?_eq_some_getLast hne]
  rfl

/-- A text has no newline, or is a line and what follows it. -/
theorem exists_line (t : Text) :
    '\n' ∉ t ∨ ∃ line rest, '\n' ∉ line ∧ t = line ++ '\n' :: rest := by
  by_cases h : '\n' ∈ t
  · obtain ⟨line, rest, rfl, hline⟩ := List.eq_append_cons_of_mem h
    exact .inr ⟨line, rest, hline, rfl⟩
  · exact .inl h

/-- A property of texts holds if it holds of texts without a newline, and of a line and what
follows if it holds of what follows. -/
theorem lines_induction {P : Text → Prop} (hrest : ∀ t, '\n' ∉ t → P t)
    (hline : ∀ line t, '\n' ∉ line → P t → P (line ++ '\n' :: t)) (t : Text) : P t := by
  induction hn : t.length using Nat.strongRecOn generalizing t with
  | _ n ih =>
      rcases exists_line t with h | ⟨line, rest, h, rfl⟩
      · exact hrest t h
      · refine hline line rest h (ih rest.length ?_ rest rfl)
        rw [← hn, List.length_append, List.length_cons]
        omega

/-- **Reads do not matter for lines**: what has been taken from the front is gone, and the rest waits
for what follows. -/
theorem lines_append (t u : Text) :
    commandsOf (t ++ u) = commandsOf t ++ commandsOf (restOf t ++ u) ∧
      restOf (t ++ u) = restOf (restOf t ++ u) := by
  induction t using lines_induction with
  | hrest t h =>
      obtain ⟨hcommands, hrest⟩ := lines_of_notMem h
      rw [hcommands, hrest]
      exact ⟨rfl, rfl⟩
  | hline line t h ih =>
      obtain ⟨hcommands, hrest⟩ := lines_append_newline h t
      obtain ⟨hcommands', hrest'⟩ := lines_append_newline h (t ++ u)
      rw [List.append_assoc, List.cons_append, hcommands', hrest', hcommands, hrest, ih.1, ih.2]
      exact ⟨rfl, rfl⟩

theorem restOf_notMem (t : Text) : '\n' ∉ restOf t := by
  induction t using lines_induction with
  | hrest t h =>
      rw [(lines_of_notMem h).2]
      exact h
  | hline line t h ih =>
      rw [(lines_append_newline h t).2]
      exact ih

/-! ## What the thread computes -/

theorem splitNewline_line {line : Text} (h : '\n' ∉ line) (t : Text) :
    splitNewline (line ++ '\n' :: t) = [dropReturn line, t] := by
  have hall : ∀ c ∈ line, decide (c ≠ '\n') = true := fun c hc =>
    decide_eq_true fun heq => h (heq ▸ hc)
  rw [splitNewline, List.dropWhile_append_of_pos hall, List.takeWhile_append_of_pos hall,
    List.dropWhile_cons_of_neg (by simp), List.takeWhile_cons_of_neg (by simp), List.append_nil]

/-- Enough rounds take all lines. -/
theorem processLoop_eq (rounds : Nat) (t : Text) (h : t.length ≤ rounds) :
    processLoop rounds t = (commandsOf t, restOf t) := by
  induction rounds generalizing t with
  | zero =>
      rw [List.eq_nil_of_length_eq_zero (Nat.le_zero.1 h)]
      rfl
  | succ rounds ih =>
      rw [processLoop]
      rcases exists_line t with hn | ⟨line, rest, hn, rfl⟩
      · rw [if_neg hn, (lines_of_notMem hn).1, (lines_of_notMem hn).2]
      · obtain ⟨hcommands, hrest⟩ := lines_append_newline hn rest
        have hlen : rest.length ≤ rounds := by
          rw [List.length_append, List.length_cons] at h
          omega
        rw [if_pos (by simp), splitNewline_line hn, hcommands, hrest]
        dsimp only
        rw [ih rest hlen]

theorem processInput_eq (t : Text) : processInput t = (commandsOf t, restOf t) :=
  processLoop_eq t.length t le_rfl

/-- **The commands are those of the decoded reads**, one after the other. -/
theorem run_eq (reads : List Read) (pendingInput : Text) (h : '\n' ∉ pendingInput) :
    run pendingInput reads =
      (commandsOf (pendingInput ++ (reads.map Subtype.val).flatMap decode),
        restOf (pendingInput ++ (reads.map Subtype.val).flatMap decode)) := by
  induction reads generalizing pendingInput with
  | nil =>
      rw [run, List.map_nil, List.flatMap_nil, List.append_nil, (lines_of_notMem h).1,
        (lines_of_notMem h).2]
  | cons buffer reads ih =>
      rw [run, processInput_eq]
      dsimp only
      rw [ih _ (restOf_notMem _), List.map_cons, List.flatMap_cons, ← List.append_assoc,
        (lines_append (pendingInput ++ decode buffer.1) _).1,
        (lines_append (pendingInput ++ decode buffer.1) _).2]

/-! ## Characters -/

/-- A character that is no part of a line end. -/
def solid (c : Char) : Bool := c ≠ '\n' && c ≠ '\r'

theorem solid_ofNat (n : Nat) (h : 0x80 ≤ n) : solid (Char.ofNat n) = true := by
  -- a number that is no character stands for the zero byte
  have hnat : (Char.ofNat n).toNat = n ∨ (Char.ofNat n).toNat = 0 := by
    by_cases hv : n.isValidChar
    · have hchar : Char.ofNat n = Char.ofNatAux n hv := dif_pos hv
      left
      rw [hchar]
      rfl
    · have hchar : Char.ofNat n = '\x00' := dif_neg hv
      right
      rw [hchar]
      rfl
  have hne : ∀ c : Char, 0 < c.toNat → c.toNat < 0x80 → Char.ofNat n ≠ c := by
    intro c hpos hlt heq
    rw [heq] at hnat
    omega
  rw [solid, Bool.and_eq_true, decide_eq_true_eq, decide_eq_true_eq]
  exact ⟨hne _ (by decide) (by decide), hne _ (by decide) (by decide)⟩

theorem countP_dropReturn (line : Text) : (dropReturn line).countP solid = line.countP solid := by
  rw [dropReturn]
  split
  next h =>
    obtain ⟨init, rfl⟩ := List.getLast?_eq_some_iff.1 h
    rw [List.dropLast_concat, List.countP_append]
    rfl
  next => rfl

/-- The lines and the rest have all the characters that are no part of a line end. -/
theorem countP_lines (t : Text) :
    (commandsOf t).flatten.countP solid + (restOf t).countP solid = t.countP solid := by
  induction t using lines_induction with
  | hrest t h =>
      rw [(lines_of_notMem h).1, (lines_of_notMem h).2]
      exact Nat.zero_add _
  | hline line t h ih =>
      obtain ⟨hcommands, hrest⟩ := lines_append_newline h t
      have hnewline : solid '\n' = false := rfl
      rw [hcommands, hrest, List.flatten_cons, List.countP_append, countP_dropReturn,
        List.countP_append, List.countP_cons, hnewline, if_neg Bool.false_ne_true]
      omega

/-- **When the commands are those of the decoded stream**: exactly if no read begins inside a
character. -/
theorem run_commands_iff (t : Text) (reads : List Read)
    (h : (reads.map Subtype.val).flatten = encode t) :
    run [] reads = (commandsOf t, restOf t) ↔ ∀ buffer ∈ reads, StartsCharacter buffer.1 := by
  have hne : ∀ bs ∈ reads.map Subtype.val, bs ≠ [] := by
    intro bs hbs hnil
    obtain ⟨buffer, -, rfl⟩ := List.mem_map.1 hbs
    have hlen := buffer.2.1
    rw [hnil] at hlen
    exact absurd hlen (by decide)
  rw [run_eq reads [] List.not_mem_nil, List.nil_append, Prod.mk.injEq]
  constructor
  · rintro ⟨hcommands, hrest⟩
    -- equal lines have equally many characters
    have hlines := countP_lines ((reads.map Subtype.val).flatMap decode)
    rw [hcommands, hrest, countP_lines t] at hlines
    have hcount := hlines.ge
    intro buffer hbuffer
    exact startsCharacter_of_countP solid_ofNat h hcount buffer.1 (List.mem_map_of_mem hbuffer)
  · intro hstarts
    have hdecode := flatMap_decode_of_starts h hne fun bs hbs => by
      obtain ⟨buffer, hbuffer, rfl⟩ := List.mem_map.1 hbs
      exact hstarts buffer hbuffer
    rw [hdecode]
    exact ⟨rfl, rfl⟩

/-- A line that is read in two pieces, cut before its newline. -/
theorem run_commands_iff_return :
    run [] [⟨encode ">HOLD\r".toList, by decide⟩, ⟨encode "\n>STATE".toList, by decide⟩] =
      ([">HOLD".toList], ">STATE".toList) :=
  (run_commands_iff ">HOLD\r\n>STATE".toList _ (by decide)).2
    (List.forall_mem_cons.2 ⟨by decide, List.forall_mem_singleton.2 (by decide)⟩)

/-- **A character that is cut** is replaced twice. -/
theorem run_commands_counterexample :
    ∃ (t : Text) (reads : List Read), (reads.map Subtype.val).flatten = encode t ∧
      run [] reads ≠ (commandsOf t, restOf t) :=
  ⟨"ü\n".toList, [⟨[0xC3], by decide⟩, ⟨[0xBC, 0x0A], by decide⟩], by decide, by decide⟩

end PortVpn.Management
