import PortVpn.Lib.PolledQueue
import PortVpn.Management.Answers
import PortVpn.Management.CommandStream

/-!
# The sockets that are protected

The process asks for each of its sockets to be kept out of the tunnel, and sends the descriptor of
the socket beside the bytes of the request. The thread collects descriptors as it reads, and takes
requests from the lines that it completes; nothing but their order says which descriptor a request
is about. `protected_run` says what becomes of the descriptors over every run, and `protected_own`
that every request meets its own, wherever the reads end.
-/

set_option autoImplicit false

namespace PortVpn.Management

open PortVpn.Lib PortVpn.Lib.Utf8

universe u

variable {Fd : Type u}

/-! ## The thread with its descriptors -/

/-- What a `read` returns, the descriptors that come with it, and what each of the lines that it
completes finds. -/
structure ReadResult (Fd : Type u) where
  buffer : Read
  fds : List Fd
  env : Nat → Surroundings

/-- What the thread does between two reads. -/
inductive ThreadEvent (Fd : Type u) where
  | addAll (fds : List Fd)
  | processCommand (env : Surroundings) (command : Text)

/-- The loop of `run`: the descriptors of a read go before the lines that it completes. -/
def eventsOf : Text → List (ReadResult Fd) → List (ThreadEvent Fd)
  | _, [] => []
  | pendingInput, r :: reads =>
      let p := processInput (pendingInput ++ decode r.buffer.1)
      .addAll r.fds :: p.1.mapIdx (fun i command => .processCommand (r.env i) command) ++
        eventsOf p.2 reads

/-- The session, and the queue that it counts. -/
structure Receiver (Fd : Type u) where
  session : Session := {}
  mFDList : List Fd := []

/-- The thread with its descriptors; it writes what a line polls from `mFDList`. -/
def receiverMachine : Machine (Receiver Fd) (ThreadEvent Fd) (Option Fd)
  | r, .addAll fds =>
      some ({ session := { r.session with mFDList := r.session.mFDList + fds.length },
              mFDList := r.mFDList ++ fds }, [])
  | r, .processCommand env command =>
      match sessionMachine r.session (env, command) with
      | none => none
      | some (s, _) =>
          if polls command then some ({ session := s, mFDList := r.mFDList.tail }, [r.mFDList.head?])
          else some ({ r with session := s }, [])

/-- What an event does to the queue. -/
def ThreadEvent.turns : ThreadEvent Fd → List (Turn Fd)
  | .addAll fds => [.arrive fds]
  | .processCommand _ command => if polls command then [.poll] else []

/-- The descriptors that have arrived in some steps. -/
def arrived (past : List (Step (Receiver Fd) (ThreadEvent Fd) (Option Fd))) : List Fd :=
  past.flatMap fun x => x.label.turns.flatMap Turn.given

/-- How many requests there have been. -/
def requests (past : List (Step (Receiver Fd) (ThreadEvent Fd) (Option Fd))) : Nat :=
  (past.flatMap fun x => x.label.turns).countP Turn.isPoll

/-! ## A run serves the queue -/

theorem receiverMachine_serves {r r' : Receiver Fd} {e : ThreadEvent Fd} {out : List (Option Fd)}
    (h : receiverMachine r e = some (r', out)) :
    serve r.mFDList e.turns = (out, r'.mFDList) ∧
      (r.session.mFDList = r.mFDList.length → r'.session.mFDList = r'.mFDList.length) := by
  cases e with
  | addAll fds =>
      obtain ⟨rfl, rfl⟩ := Prod.mk.inj (Option.some.inj h)
      refine ⟨rfl, fun hcount => ?_⟩
      rw [List.length_append, ← hcount]
  | processCommand env command =>
      rw [receiverMachine] at h
      cases hstep : sessionMachine r.session (env, command) with
      | none => rw [hstep] at h; exact nomatch h
      | some next =>
          obtain ⟨s, written⟩ := next
          have htakes := (sessionMachine_takes hstep).mFDList
          rw [hstep] at h
          dsimp only at h
          rw [ThreadEvent.turns]
          cases hpolls : polls command with
          | true =>
              rw [hpolls, if_pos rfl] at h
              obtain ⟨rfl, rfl⟩ := Prod.mk.inj (Option.some.inj h)
              refine ⟨rfl, fun hcount => ?_⟩
              dsimp only
              rw [htakes, hpolls, hcount, List.length_tail]
              rfl
          | false =>
              rw [hpolls, if_neg Bool.false_ne_true] at h
              obtain ⟨rfl, rfl⟩ := Prod.mk.inj (Option.some.inj h)
              refine ⟨rfl, fun hcount => ?_⟩
              dsimp only
              rw [htakes, hpolls, hcount]
              rfl

theorem history_serves (r : Receiver Fd) (es : List (ThreadEvent Fd)) :
    serve r.mFDList ((receiverMachine.history r es).flatMap fun x => x.label.turns) =
        ((receiverMachine.history r es).flatMap Step.out,
          (Machine.stateAfter r (receiverMachine.history r es)).mFDList) ∧
      (r.session.mFDList = r.mFDList.length →
        (Machine.stateAfter r (receiverMachine.history r es)).session.mFDList =
          (Machine.stateAfter r (receiverMachine.history r es)).mFDList.length) := by
  induction es generalizing r with
  | nil => exact ⟨rfl, id⟩
  | cons e es ih =>
      cases hstep : receiverMachine r e with
      | none => rw [Machine.history_cons_of_none hstep]; exact ⟨rfl, id⟩
      | some next =>
          obtain ⟨r', out⟩ := next
          obtain ⟨hserve, hcount⟩ := receiverMachine_serves hstep
          obtain ⟨hserves, hcounts⟩ := ih r'
          rw [Machine.history_cons_of_some hstep, Machine.stateAfter_cons, List.flatMap_cons,
            List.flatMap_cons, serve_append, hserve]
          dsimp only
          rw [hserves]
          exact ⟨rfl, fun h => hcounts (hcount h)⟩

theorem ThreadEvent.length_turns (e : ThreadEvent Fd) : e.turns.length ≤ 1 := by
  cases e with
  | addAll fds => exact Nat.le_refl 1
  | processCommand env command =>
      rw [turns]
      split <;> simp

/-- **The descriptors over a run**: what the requests have taken and what is left are the
descriptors that have arrived, in their order, none of them twice. The requests get one each, the
first the first, exactly if none of them comes before its descriptor. -/
theorem protected_run (r : Receiver Fd) (es : List (ThreadEvent Fd)) :
    r.mFDList ++ arrived (receiverMachine.history r es) =
        ((receiverMachine.history r es).flatMap Step.out).reduceOption ++
          (Machine.stateAfter r (receiverMachine.history r es)).mFDList ∧
      ((receiverMachine.history r es).flatMap Step.out =
          ((r.mFDList ++ arrived (receiverMachine.history r es)).take
            (requests (receiverMachine.history r es))).map some ↔
        ∀ past, past <+: receiverMachine.history r es →
          requests past ≤ r.mFDList.length + (arrived past).length) := by
  obtain ⟨hserve, -⟩ := history_serves r es
  have hconserves := serve_conserves r.mFDList
    ((receiverMachine.history r es).flatMap fun x => x.label.turns)
  have hiff : _ ↔ Timely r.mFDList.length
      ((receiverMachine.history r es).flatMap fun x => x.label.turns) := serve_eq_iff
  have harrived : ∀ past : List (Step (Receiver Fd) (ThreadEvent Fd) (Option Fd)),
      (past.flatMap fun x => x.label.turns).flatMap Turn.given = arrived past := fun past =>
    List.flatMap_assoc
  rw [hserve, harrived] at hconserves hiff
  refine ⟨hconserves, hiff.trans ?_⟩
  rw [timely_iff_past, forall_prefix_flatMap_iff fun x => x.label.length_turns]
  refine forall₂_congr fun past _ => ?_
  rw [harrived]
  rfl

/-! ## A request and its descriptor -/

/-- A line of the process, with its bytes. A request has one descriptor, which travels with one of
the bytes, and other lines have none. -/
structure Sent (Fd : Type u) where
  line : Text
  fd : Option Fd
  bytes : List (UInt8 × List Fd)
  newline_notMem : '\n' ∉ line
  bytes_fst : bytes.map Prod.fst = encode (line ++ ['\n'])
  bytes_snd : bytes.flatMap Prod.snd = fd.toList
  isSome_fd : fd.isSome = polls (dropReturn line)

/-- The read returns this piece of the stream. -/
def ReadResult.Returns (r : ReadResult Fd) (piece : List (UInt8 × List Fd)) : Prop :=
  r.buffer.1 = piece.map Prod.fst ∧ r.fds = piece.flatMap Prod.snd

theorem encode_append (t u : Text) : encode (t ++ u) = encode t ++ encode u := List.flatMap_append

theorem decode_encode_append (t : Text) (bs : List UInt8) :
    decode (encode t ++ bs) = t ++ decode bs := by
  induction t with
  | nil => rfl
  | cons c t ih =>
      rw [encode_cons, List.append_assoc, decode, decodeFrom_encodeChar]
      exact congrArg (c :: ·) ih

theorem prefix_of_encode_append {t t' : Text} {bs : List UInt8} (h : encode t' ++ bs = encode t) :
    t' <+: t :=
  ⟨decode bs, by rw [← decode_encode_append, h, decode_encode]⟩

theorem append_newline_inj {line line' t t' : Text} (h : '\n' ∉ line) (h' : '\n' ∉ line')
    (heq : line ++ '\n' :: t = line' ++ '\n' :: t') : line = line' ∧ t = t' := by
  have hcut : ∀ {line t : Text}, '\n' ∉ line →
      (line ++ '\n' :: t).takeWhile (· ≠ '\n') = line := by
    intro line t h
    have hall : ∀ c ∈ line, decide (c ≠ '\n') = true := fun c hc =>
      decide_eq_true fun heq => h (heq ▸ hc)
    rw [List.takeWhile_append_of_pos hall, List.takeWhile_cons_of_neg (by simp), List.append_nil]
  have hline : line = line' := by
    rw [← hcut h, heq, hcut h']
  subst hline
  exact ⟨rfl, (List.cons.inj (List.append_cancel_left heq)).2⟩

theorem bytes_sent (sent : List (Sent Fd)) : (sent.flatMap Sent.bytes).map Prod.fst =
    encode (sent.flatMap fun m => m.line ++ ['\n']) := by
  induction sent with
  | nil => rfl
  | cons m sent ih =>
      rw [List.flatMap_cons, List.map_append, ih, m.bytes_fst, List.flatMap_cons, ← encode_append]

/-- Of the stream up to a place, the finished lines make no more requests than descriptors have
been sent. -/
theorem countP_polls_le {sent : List (Sent Fd)} {u : List (UInt8 × List Fd)} {t : Text}
    (hu : u <+: sent.flatMap Sent.bytes) (ht : u.map Prod.fst = encode t) :
    (commandsOf t).countP polls ≤ (u.flatMap Prod.snd).length := by
  induction sent generalizing u t with
  | nil =>
      obtain rfl := List.prefix_nil.1 hu
      have ht := congrArg decode ht
      rw [decode_encode] at ht
      rw [← ht]
      exact Nat.zero_le _
  | cons m sent ih =>
      rcases exists_line t with hnone | ⟨line, rest, hline, rfl⟩
      · rw [(lines_of_notMem hnone).1]
        exact Nat.zero_le _
      · -- the first line is the one that has been sent first
        obtain ⟨v, hv⟩ := hu.map Prod.fst
        rw [bytes_sent, ht] at hv
        obtain ⟨w, hw⟩ := prefix_of_encode_append hv
        rw [List.flatMap_cons, List.append_assoc, List.append_assoc] at hw
        obtain ⟨rfl, -⟩ := append_newline_inj hline m.newline_notMem hw
        have hsplit : encode (m.line ++ '\n' :: rest) = m.bytes.map Prod.fst ++ encode rest := by
          rw [m.bytes_fst, ← encode_append, List.append_assoc]
          rfl
        have hlen : m.bytes.length ≤ u.length := by
          have := congrArg List.length (ht.trans hsplit)
          rw [List.length_map, List.length_append, List.length_map] at this
          omega
        rw [List.flatMap_cons] at hu
        obtain ⟨u', rfl⟩ := List.prefix_of_prefix_length_le (List.prefix_append ..) hu hlen
        rw [hsplit, List.map_append] at ht
        have hrest := ih ((List.prefix_append_right_inj _).1 hu) (List.append_cancel_left ht)
        rw [(lines_append_newline hline rest).1, List.countP_cons, List.flatMap_append,
          List.length_append, m.bytes_snd, ← m.isSome_fd]
        have hfd : (if m.fd.isSome = true then 1 else 0) = m.fd.toList.length := by
          cases m.fd <;> rfl
        omega

/-! ## Reads that end anywhere -/

theorem turns_commands (env : Nat → Surroundings) (commands : List Text) :
    (commands.mapIdx fun i command => (.processCommand (env i) command : ThreadEvent Fd)).flatMap
      ThreadEvent.turns = commands.flatMap fun command => if polls command then [.poll] else [] := by
  induction commands generalizing env with
  | nil => rfl
  | cons command commands ih =>
      rw [List.mapIdx_cons, List.flatMap_cons, List.flatMap_cons]
      exact congrArg (_ ++ ·) (ih fun i => env (i + 1))

theorem countP_isPoll_commands (commands : List Text) :
    (commands.flatMap fun command =>
      if polls command then [(.poll : Turn Fd)] else []).countP Turn.isPoll =
        commands.countP polls := by
  rw [List.countP_flatMap]
  induction commands with
  | nil => rfl
  | cons command commands ih =>
      rw [List.map_cons, List.sum_cons, ih, List.countP_cons, Nat.add_comm]
      cases hpolls : polls command <;> simp [hpolls, Turn.isPoll]

theorem given_commands (commands : List Text) :
    (commands.flatMap fun command =>
      if polls command then [(.poll : Turn Fd)] else []).flatMap Turn.given = [] := by
  rw [List.flatMap_assoc, List.flatMap_eq_nil_iff]
  intro command _
  split <;> rfl

theorem turns_eventsOf_cons (pendingInput : Text) (r : ReadResult Fd)
    (reads : List (ReadResult Fd)) :
    (eventsOf pendingInput (r :: reads)).flatMap ThreadEvent.turns =
      .arrive r.fds :: ((processInput (pendingInput ++ decode r.buffer.1)).1.flatMap (fun command =>
          if polls command then [.poll] else []) ++
        (eventsOf (processInput (pendingInput ++ decode r.buffer.1)).2 reads).flatMap
          ThreadEvent.turns) := by
  rw [eventsOf, List.cons_append, List.flatMap_cons, List.flatMap_append, turns_commands]
  rfl

/-- Requests that no descriptor has arrived with are not made within a read. -/
theorem timely_commands {n : Nat} {commands : List Text} (h : commands.countP polls ≤ n) :
    Timely n (commands.flatMap fun command =>
      if polls command then [(.poll : Turn Fd)] else []) := by
  rw [timely_iff_past]
  intro us hus
  have hcount := hus.sublist.countP_le (p := Turn.isPoll)
  rw [countP_isPoll_commands] at hcount
  omega

/-- The turns of the thread are timely if the lines of the reads up to each one request no more
descriptors than have come with them. -/
theorem timely_eventsOf {n : Nat} {pendingInput : Text} {reads : List (ReadResult Fd)}
    (h : ∀ i, (run pendingInput ((reads.take i).map ReadResult.buffer)).1.countP polls ≤
      n + ((reads.take i).flatMap ReadResult.fds).length) :
    Timely n ((eventsOf pendingInput reads).flatMap ThreadEvent.turns) := by
  induction reads generalizing n pendingInput with
  | nil => trivial
  | cons r reads ih =>
      rw [turns_eventsOf_cons, Timely]
      have hfirst : (processInput (pendingInput ++ decode r.buffer.1)).1.countP polls ≤
          n + r.fds.length := by
        simpa [run] using h 1
      rw [timely_append, given_commands, countP_isPoll_commands]
      refine ⟨timely_commands hfirst, ih fun i => ?_⟩
      have hmore := h (i + 1)
      rw [List.take_succ_cons, List.map_cons, run] at hmore
      dsimp only at hmore
      rw [List.countP_append, List.flatMap_cons, List.length_append] at hmore
      rw [List.length_nil]
      omega

theorem addAll_eventsOf (pendingInput : Text) (reads : List (ReadResult Fd)) :
    ((eventsOf pendingInput reads).flatMap ThreadEvent.turns).flatMap Turn.given =
      reads.flatMap ReadResult.fds := by
  induction reads generalizing pendingInput with
  | nil => rfl
  | cons r reads ih =>
      rw [turns_eventsOf_cons, List.flatMap_cons, List.flatMap_append, given_commands, ih,
        List.flatMap_cons]
      rfl

section Stream

variable {sent : List (Sent Fd)} {reads : List (ReadResult Fd)}
  {pieces : List (List (UInt8 × List Fd))}

/-- The descriptors of the reads are those of the lines. -/
theorem fds_reads (hreads : List.Forall₂ ReadResult.Returns reads pieces) :
    reads.flatMap ReadResult.fds = pieces.flatten.flatMap Prod.snd := by
  induction hreads with
  | nil => rfl
  | cons h _ ih => rw [List.flatMap_cons, h.2, ih, List.flatten_cons, List.flatMap_append]

theorem bytes_reads (hreads : List.Forall₂ ReadResult.Returns reads pieces) :
    ((reads.map ReadResult.buffer).map Subtype.val).flatten = pieces.flatten.map Prod.fst := by
  induction hreads with
  | nil => rfl
  | cons h _ ih =>
      rw [List.map_cons, List.map_cons, List.flatten_cons, h.1, ih, List.flatten_cons,
        List.map_append]

/-- The lines of some reads, where no read begins inside a character. -/
theorem run_reads {t : Text} {buffers : List Read}
    (h : (buffers.map Subtype.val).flatten = encode t)
    (hstarts : ∀ buffer ∈ buffers, StartsCharacter buffer.1) :
    (run [] buffers).1 = commandsOf t := by
  have hne : ∀ bs ∈ buffers.map Subtype.val, bs ≠ [] := by
    intro bs hbs hnil
    obtain ⟨buffer, -, rfl⟩ := List.mem_map.1 hbs
    have hlen := buffer.2.1
    rw [hnil] at hlen
    exact absurd hlen (by decide)
  rw [run_eq buffers [] List.not_mem_nil, List.nil_append, flatMap_decode_of_starts h hne
    fun bs hbs => by
      obtain ⟨buffer, hbuffer, rfl⟩ := List.mem_map.1 hbs
      exact hstarts buffer hbuffer]

/-- **Every request meets its own descriptor.** Wherever the reads end, as long as none begins
inside a character, and however far the thread gets, the requests that it has answered have
protected the descriptors that the process has sent with them, each its own. -/
theorem protected_own {r : Receiver Fd} (hempty : r.mFDList = [])
    (hpieces : pieces.flatten = sent.flatMap Sent.bytes)
    (hreads : List.Forall₂ ReadResult.Returns reads pieces)
    (hstarts : ∀ x ∈ reads, StartsCharacter x.buffer.1) {es : List (ThreadEvent Fd)}
    (hes : es <+: eventsOf [] reads) :
    (receiverMachine.history r es).flatMap Step.out =
      ((sent.filterMap Sent.fd).take (requests (receiverMachine.history r es))).map some := by
  have hturns : ((receiverMachine.history r es).flatMap fun x => x.label.turns) <+:
      (eventsOf [] reads).flatMap ThreadEvent.turns := by
    have hlabels : (receiverMachine.history r es).map Step.label <+: es :=
      Machine.labels_history_isPrefixOf r es
    have hturns := (hlabels.trans hes).flatMap ThreadEvent.turns
    rwa [List.flatMap_map] at hturns
  -- up to each read, the requests are among the lines whose bytes have been read
  have htimely : Timely 0 ((eventsOf [] reads).flatMap ThreadEvent.turns) := by
    refine timely_eventsOf fun i => ?_
    have htake : List.Forall₂ ReadResult.Returns (reads.take i) (pieces.take i) :=
      List.forall₂_take i hreads
    have hdrop : List.Forall₂ ReadResult.Returns (reads.drop i) (pieces.drop i) :=
      List.forall₂_drop i hreads
    have hu : (pieces.take i).flatten <+: sent.flatMap Sent.bytes :=
      ⟨(pieces.drop i).flatten, by rw [← List.flatten_append, List.take_append_drop, hpieces]⟩
    have hstream : encode (sent.flatMap fun m => m.line ++ ['\n']) =
        (pieces.take i).flatten.map Prod.fst ++ (pieces.drop i).flatten.map Prod.fst := by
      rw [← bytes_sent, ← hpieces, ← List.map_append, ← List.flatten_append,
        List.take_append_drop]
    have hnext : StartsCharacter ((pieces.drop i).flatten.map Prod.fst) := by
      rw [← bytes_reads hdrop]
      refine startsCharacter_flatten ?_ ?_
      · intro bs hbs
        obtain ⟨buffer, hbuffer, rfl⟩ := List.mem_map.1 hbs
        obtain ⟨x, hx, rfl⟩ := List.mem_map.1 hbuffer
        exact hstarts x (List.mem_of_mem_drop hx)
      · intro bs hbs hnil
        obtain ⟨buffer, -, rfl⟩ := List.mem_map.1 hbs
        have hlen := buffer.2.1
        rw [hnil] at hlen
        exact absurd hlen (by decide)
    obtain ⟨t, -, -, ht, -⟩ := encode_eq_append hstream hnext
    have hrun := run_reads ((bytes_reads htake).trans ht) fun buffer hbuffer => by
      obtain ⟨x, hx, rfl⟩ := List.mem_map.1 hbuffer
      exact hstarts x (List.mem_of_mem_take hx)
    rw [hrun, fds_reads htake, Nat.zero_add]
    exact countP_polls_le hu ht
  obtain ⟨rest, hrest⟩ := hturns
  rw [← hrest, timely_append] at htimely
  have hserve := (serve_eq_iff (q := r.mFDList)).2 (by rw [hempty]; exact htimely.1)
  rw [(history_serves r es).1, hempty, List.nil_append] at hserve
  have hall : ((eventsOf [] reads).flatMap ThreadEvent.turns).flatMap Turn.given =
      sent.filterMap Sent.fd := by
    rw [addAll_eventsOf, fds_reads hreads, hpieces, List.flatMap_assoc,
      List.filterMap_eq_flatMap_toList]
    exact List.flatMap_congr fun m _ => m.bytes_snd
  rw [← hall, ← hrest, List.flatMap_append, List.take_append_of_le_length]
  · exact hserve
  · have hpolls := timely_iff_past.1 htimely.1 _ (List.prefix_refl _)
    rwa [Nat.zero_add] at hpolls

end Stream

def protectLine : Text := ">NEED-OK:Need 'PROTECTFD' confirmation MSG:".toList

/-- A request that is sent with a descriptor beside its first byte. -/
def protectRequest (fd : Nat) : Sent Nat where
  line := protectLine
  fd := some fd
  bytes := ('>'.toNat.toUInt8, [fd]) :: (encode (protectLine.drop 1 ++ ['\n'])).map (·, [])
  newline_notMem := by decide
  bytes_fst := by
    have hline : '>'.toNat.toUInt8 :: encode (protectLine.drop 1 ++ ['\n']) =
        encode (protectLine ++ ['\n']) := by decide +kernel
    rw [List.map_cons, List.map_map, ← hline]
    exact congrArg (_ :: ·) (List.map_id _)
  bytes_snd := by
    rw [List.flatMap_cons, List.flatMap_map, List.flatMap_eq_nil_iff.2 fun _ _ => rfl]
    rfl
  isSome_fd := (by decide +kernel : polls (dropReturn protectLine) = true).symm

/-- Two requests, the first of them in two reads. -/
def cutReads : List (ReadResult Nat) :=
  [⟨⟨((protectRequest 7).bytes.take 20).map Prod.fst, by decide +kernel⟩, [7], fun _ => quiet⟩,
    ⟨⟨((protectRequest 7).bytes.drop 20 ++ (protectRequest 9).bytes).map Prod.fst,
      by decide +kernel⟩, [9], fun _ => quiet⟩]

theorem protected_own_cut :
    (receiverMachine.history {} (eventsOf [] cutReads)).flatMap Step.out = [some 7, some 9] := by
  have hown := @protected_own Nat [protectRequest 7, protectRequest 9] cutReads
    [(protectRequest 7).bytes.take 20, (protectRequest 7).bytes.drop 20 ++ (protectRequest 9).bytes]
    {} rfl (by decide +kernel)
    (.cons ⟨rfl, by decide +kernel⟩ (.cons ⟨rfl, by decide +kernel⟩ .nil))
    (List.forall_mem_cons.2 ⟨by decide +kernel, List.forall_mem_singleton.2 (by decide +kernel)⟩)
    _ (List.prefix_refl _)
  exact hown.trans (by decide +kernel)

end PortVpn.Management
