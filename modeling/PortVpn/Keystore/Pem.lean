import PortVpn.Keystore.Base64Encoder

/-!
# PEM files

`PemWriter` and `PemReader` of the package `org.spongycastle.util.io.pem`, over the lines of a
`BufferedReader`. `readPemObjects_iff` says which objects come back when they are written one after
another: those that the reader can make at all.

`PemWriter.getOutputSize`, which nothing calls, is left out.
-/

set_option autoImplicit false

namespace PortVpn.Keystore

open PortVpn.Lib

/-! ## Objects -/

/-- `PemHeader`. -/
structure PemHeader where
  name : Text
  value : Text
  deriving DecidableEq, Repr

/-- `PemObject`. -/
structure PemObject where
  type : Text
  headers : List PemHeader := []
  content : List UInt8
  deriving DecidableEq, Repr

/-- `PemReader.BEGIN`. -/
def BEGIN : Text := "-----BEGIN ".toList

/-- `PemReader.END`. -/
def END : Text := "-----END ".toList

/-! ## Writing -/

/-- `BufferedWriter.newLine`, with the line separator of Android. -/
def newLine : Text := ['\n']

/-- `PemWriter.LINE_LENGTH`. -/
def LINE_LENGTH : Nat := 64

/-- The loop of `writeEncoded`; every round takes a character, so that their number bounds the
rounds. -/
def writeLines : Nat → Text → Text
  | 0, _ => []
  | _ + 1, [] => []
  | n + 1, c :: bytes =>
      (c :: bytes).take LINE_LENGTH ++ newLine ++ writeLines n ((c :: bytes).drop LINE_LENGTH)

/-- `PemWriter.writeEncoded`. -/
def writeEncoded (bytes : List UInt8) : Text :=
  let bytes := encode bytes
  writeLines bytes.length bytes

/-- `PemWriter.writePreEncapsulationBoundary`. -/
def writePreEncapsulationBoundary (type : Text) : Text :=
  "-----BEGIN ".toList ++ type ++ "-----".toList ++ newLine

/-- `PemWriter.writePostEncapsulationBoundary`. -/
def writePostEncapsulationBoundary (type : Text) : Text :=
  "-----END ".toList ++ type ++ "-----".toList ++ newLine

/-- The headers of an object, and the empty line behind them. -/
def writeHeaders (headers : List PemHeader) : Text :=
  if headers.isEmpty then []
  else headers.flatMap (fun hdr => hdr.name ++ ": ".toList ++ hdr.value ++ newLine) ++ newLine

/-- `PemWriter.writeObject`. -/
def writeObject (obj : PemObject) : Text :=
  writePreEncapsulationBoundary obj.type ++ writeHeaders obj.headers ++
    writeEncoded obj.content ++ writePostEncapsulationBoundary obj.type

/-! ## Reading -/

/-- What the reader throws: the exception for a file that ends within an object, or that of an index
out of bounds, in the boundary or in `Base64.decode`. -/
inductive PemFailure where
  | ioException (message : Text)
  | indexOutOfBounds
  deriving DecidableEq, Repr

/-- The texts before and after the first occurrence of a character. -/
def cutAt (c : Char) (t : Text) : Option (Text × Text) :=
  match t.dropWhile (· ≠ c) with
  | [] => none
  | _ :: rest => some (t.takeWhile (· ≠ c), rest)

/-- The loop of `loadObject`: the headers, the encoded content, and the lines that are left. -/
def loadLoop (endMarker : Text) (headers : List PemHeader) (buf : Text) :
    List Text → Except PemFailure (List PemHeader × Text × List Text)
  | [] => .error (.ioException (endMarker ++ " not found".toList))
  | line :: br =>
      match cutAt ':' line with
      | some (hdr, value) => loadLoop endMarker (headers ++ [⟨hdr, trim value⟩]) buf br
      | none =>
          if (afterFirst endMarker line).isSome then .ok (headers, buf, br)
          else loadLoop endMarker headers (buf ++ trim line) br

/-- `PemReader.loadObject`. -/
def loadObject (type : Text) (br : List Text) : Except PemFailure (PemObject × List Text) :=
  match loadLoop (END ++ type) [] [] br with
  | .error e => .error e
  | .ok (headers, buf, br) =>
      match decode (charValues buf) with
      | none => .error .indexOutOfBounds
      | some content => .ok ({ type, headers, content }, br)

/-- `PemReader.readPemObject`, over the lines that are left. -/
def readPemObject : List Text → Except PemFailure (Option PemObject × List Text)
  | [] => .ok (none, [])
  | line :: br =>
      if BEGIN.isPrefixOf line then
        match cutAt '-' (line.drop BEGIN.length) with
        | none => .error .indexOutOfBounds
        | some (type, _) =>
            if type.isEmpty then .ok (none, br)
            else (loadObject type br).map fun r => (some r.1, r.2)
      else readPemObject br

/-- The results of a number of calls of `readPemObject`. -/
def readPemObjects : Nat → List Text → Except PemFailure (List (Option PemObject))
  | 0, _ => .ok []
  | n + 1, br =>
      match readPemObject br with
      | .error e => .error e
      | .ok (obj, br) => (readPemObjects n br).map (obj :: ·)

/-! ## Cutting and searching -/

section Texts

variable {c : Char} {t a b target : Text}

theorem cutAt_append (h : c ∉ a) (b : Text) : cutAt c (a ++ c :: b) = some (a, b) := by
  have hall : ∀ x ∈ a, decide (x ≠ c) = true := fun x hx => decide_eq_true fun he => h (he ▸ hx)
  rw [cutAt, List.dropWhile_append_of_pos hall, List.takeWhile_append_of_pos hall,
    List.dropWhile_cons_of_neg (by simp), List.takeWhile_cons_of_neg (by simp), List.append_nil]

theorem cutAt_none (h : c ∉ t) : cutAt c t = none := by
  have hall : ∀ x ∈ t, decide (x ≠ c) = true := fun x hx => decide_eq_true fun he => h (he ▸ hx)
  rw [cutAt, List.dropWhile_eq_nil_iff.2 hall]

theorem cutAt_some (h : cutAt c t = some (a, b)) : t = a ++ c :: b ∧ c ∉ a := by
  rw [cutAt] at h
  split at h
  · exact nomatch h
  · rename_i d rest hdrop
    obtain ⟨rfl, rfl⟩ := Prod.mk.inj (Option.some.inj h)
    have hne : t.dropWhile (· ≠ c) ≠ [] := hdrop ▸ List.cons_ne_nil _ _
    have hd : d = c := by
      have hnot := List.head_dropWhile_not (fun x => decide (x ≠ c)) hne
      simp only [hdrop, List.head_cons] at hnot
      simpa using hnot
    rw [hd] at hdrop
    refine ⟨?_, fun hmem => ?_⟩
    · rw [← hdrop, List.takeWhile_append_dropWhile]
    · simpa using List.mem_takeWhile_imp hmem

theorem notMem_of_cutAt (h : cutAt c t = none) : c ∉ t := by
  rw [cutAt] at h
  split at h
  · rename_i hdrop
    intro hmem
    simpa using List.dropWhile_eq_nil_iff.1 hdrop c hmem
  · exact nomatch h

theorem infix_of_afterFirst (h : (afterFirst target t).isSome) : target <:+: t := by
  induction t with
  | nil => exact nomatch h
  | cons d t ih =>
      rw [afterFirst] at h
      split at h
      · rename_i hpre
        exact (List.isPrefixOf_iff_prefix.1 hpre).isInfix
      · exact (ih h).trans (List.suffix_cons d t).isInfix

theorem afterFirst_append_self (h : target ≠ []) (b : Text) :
    (afterFirst target (target ++ b)).isSome := by
  obtain ⟨d, rest, rfl⟩ := List.exists_cons_of_ne_nil h
  have hpre : (d :: rest).isPrefixOf (d :: (rest ++ b)) :=
    List.isPrefixOf_iff_prefix.2 (List.prefix_append (d :: rest) b)
  rw [List.cons_append, afterFirst, if_pos hpre]
  rfl

end Texts

/-! ## The lines of an object -/

/-- The lines of `writeLines`. -/
def cutLines : Nat → Text → List Text
  | 0, _ => []
  | _ + 1, [] => []
  | n + 1, c :: bytes =>
      (c :: bytes).take LINE_LENGTH :: cutLines n ((c :: bytes).drop LINE_LENGTH)

theorem writeLines_eq (n : Nat) (t : Text) :
    writeLines n t = (cutLines n t).flatMap (· ++ ['\n']) := by
  induction n generalizing t with
  | zero => rfl
  | succ n ih =>
      cases t with
      | nil => rfl
      | cons c t => rw [writeLines, ih, cutLines, List.flatMap_cons]; rfl

theorem flatten_cutLines {n : Nat} {t : Text} (h : t.length ≤ n) : (cutLines n t).flatten = t := by
  induction n generalizing t with
  | zero =>
      rw [List.eq_nil_of_length_eq_zero (Nat.le_zero.1 h)]
      rfl
  | succ n ih =>
      cases t with
      | nil => rfl
      | cons c t =>
          have hlen : ((c :: t).drop LINE_LENGTH).length ≤ n := by
            simp only [List.length_drop, LINE_LENGTH]
            omega
          rw [cutLines, List.flatten_cons, ih hlen, List.take_append_drop]

theorem mem_of_mem_cutLines {n : Nat} {t line : Text} {c : Char} (h : line ∈ cutLines n t)
    (hc : c ∈ line) : c ∈ t := by
  induction n generalizing t with
  | zero => exact nomatch h
  | succ n ih =>
      cases t with
      | nil => exact nomatch h
      | cons d t =>
          rcases List.mem_cons.1 h with rfl | h
          · exact List.mem_of_mem_take hc
          · exact List.mem_of_mem_drop (ih h)

/-- The lines of the headers. -/
def headerLines (headers : List PemHeader) : List Text :=
  if headers.isEmpty then []
  else headers.map (fun hdr => hdr.name ++ ": ".toList ++ hdr.value) ++ [[]]

/-- The lines of the content. -/
def contentLines (content : List UInt8) : List Text :=
  cutLines (encode content).length (encode content)

/-- The lines that `writeObject` writes. -/
def objectLines (obj : PemObject) : List Text :=
  (BEGIN ++ obj.type ++ "-----".toList) ::
    (headerLines obj.headers ++ contentLines obj.content ++
      [END ++ obj.type ++ "-----".toList])

theorem writeHeaders_eq (headers : List PemHeader) :
    writeHeaders headers = (headerLines headers).flatMap (· ++ ['\n']) := by
  rw [writeHeaders, headerLines]
  split
  · rfl
  · rw [List.flatMap_append, List.flatMap_map]
    rfl

theorem writeObject_eq (obj : PemObject) :
    writeObject obj = (objectLines obj).flatMap (· ++ ['\n']) := by
  have hbegin : writePreEncapsulationBoundary obj.type =
      (BEGIN ++ obj.type ++ "-----".toList) ++ ['\n'] := rfl
  have hend : writePostEncapsulationBoundary obj.type =
      (END ++ obj.type ++ "-----".toList) ++ ['\n'] := rfl
  have hcontent : writeEncoded obj.content = (contentLines obj.content).flatMap (· ++ ['\n']) := by
    rw [writeEncoded, contentLines, writeLines_eq]
  rw [writeObject, writeHeaders_eq, hcontent, objectLines, hbegin, hend]
  generalize BEGIN ++ obj.type ++ "-----".toList = first
  generalize END ++ obj.type ++ "-----".toList = last
  simp only [List.flatMap_cons, List.flatMap_append, List.flatMap_nil, List.append_nil,
    List.append_assoc]

/-! ## Objects that can be read -/

/-- A header of one line, with a name and a value that can be told apart. -/
structure PemHeader.WellFormed (hdr : PemHeader) : Prop where
  name_colon : ':' ∉ hdr.name
  name_unbroken : Unbroken hdr.name
  value_unbroken : Unbroken hdr.value
  value_trimmed : trim hdr.value = hdr.value

/-- An object whose boundaries are lines that name its type, and which has a content. -/
structure PemObject.WellFormed (obj : PemObject) : Prop where
  type_ne : obj.type ≠ []
  type_dash : '-' ∉ obj.type
  type_colon : ':' ∉ obj.type
  type_unbroken : Unbroken obj.type
  headers : ∀ hdr ∈ obj.headers, hdr.WellFormed
  content : obj.content ≠ []

theorem encode_chars (bs : List UInt8) : ∀ c ∈ encode bs, ' ' < c ∧ c ≠ ':' ∧ c ≠ '-' := by
  have hall : ∀ d < 64, ' ' < letter d ∧ letter d ≠ ':' ∧ letter d ≠ '-' := by decide +kernel
  intro c hc
  rw [encode_eq, List.mem_append, List.mem_map] at hc
  rcases hc with ⟨d, hd, rfl⟩ | hc
  · exact hall d (SixBits.lt_of_mem_toDigits d hd)
  · rw [List.eq_of_mem_replicate hc]
    decide

section Lines

variable {obj : PemObject} {content : List UInt8} {line : Text}

theorem chars_of_mem_contentLines (h : line ∈ contentLines content) :
    ∀ c ∈ line, ' ' < c ∧ c ≠ ':' ∧ c ≠ '-' :=
  fun c hc => encode_chars content c (mem_of_mem_cutLines h hc)

theorem unbroken_of_blank_lt (h : ∀ c ∈ line, ' ' < c) : Unbroken line :=
  ⟨fun hm => absurd (h _ hm) (by decide), fun hm => absurd (h _ hm) (by decide)⟩

theorem unbroken_headerLines {headers : List PemHeader} (h : ∀ hdr ∈ headers, hdr.WellFormed)
    (hline : line ∈ headerLines headers) : Unbroken line := by
  rw [headerLines] at hline
  split at hline
  · exact nomatch hline
  · rcases List.mem_append.1 hline with hline | hline
    · obtain ⟨hdr, hmem, rfl⟩ := List.mem_map.1 hline
      have hhdr := h hdr hmem
      exact (hhdr.name_unbroken.append (by decide)).append hhdr.value_unbroken
    · rw [List.mem_singleton.1 hline]
      decide

/-- The lines of a well-formed object are lines. -/
theorem unbroken_objectLines (h : obj.WellFormed) : ∀ line ∈ objectLines obj, Unbroken line := by
  have hboundary : ∀ start : Text, Unbroken start →
      Unbroken (start ++ obj.type ++ "-----".toList) :=
    fun start hs => (hs.append h.type_unbroken).append (by decide)
  intro line hline
  rw [objectLines, List.mem_cons, List.mem_append, List.mem_append, List.mem_singleton] at hline
  rcases hline with rfl | (hline | hline) | rfl
  · exact hboundary BEGIN (by decide)
  · exact unbroken_headerLines h.headers hline
  · exact unbroken_of_blank_lt fun c hc => (chars_of_mem_contentLines hline c hc).1
  · exact hboundary END (by decide)

/-- **The text of well-formed objects** is read as their lines. -/
theorem readLines_writeObject (h : obj.WellFormed) (t : Text) :
    readLines (writeObject obj ++ t) = objectLines obj ++ readLines t := by
  rw [writeObject_eq, readLines_lines (unbroken_objectLines h)]

end Lines

/-! ## Reading what was written -/

section Read

variable {endMarker buf : Text} {headers : List PemHeader}

/-- Headers are read one by one. -/
theorem loadLoop_headers {hdrs : List PemHeader} (h : ∀ hdr ∈ hdrs, hdr.WellFormed)
    (br : List Text) :
    loadLoop endMarker headers buf
        (hdrs.map (fun hdr => hdr.name ++ ": ".toList ++ hdr.value) ++ br) =
      loadLoop endMarker (headers ++ hdrs) buf br := by
  induction hdrs generalizing headers with
  | nil => rw [List.append_nil]; rfl
  | cons hdr hdrs ih =>
      obtain ⟨hhdr, hhdrs⟩ := List.forall_mem_cons.1 h
      have hcut : cutAt ':' (hdr.name ++ ": ".toList ++ hdr.value) =
          some (hdr.name, ' ' :: hdr.value) := by
        rw [List.append_assoc]
        exact cutAt_append hhdr.name_colon _
      have hvalue : trim (' ' :: hdr.value) = hdr.value := by
        rw [trim_blank_cons (by decide), hhdr.value_trimmed]
      rw [List.map_cons, List.cons_append, loadLoop, hcut]
      dsimp only
      rw [hvalue, ih hhdrs, List.append_assoc, List.singleton_append]

/-- Lines of the content are put together. -/
theorem loadLoop_content {lines : List Text}
    (h : ∀ line ∈ lines, ∀ c ∈ line, ' ' < c ∧ c ≠ ':' ∧ c ≠ '-') (hm : '-' ∈ endMarker)
    (br : List Text) :
    loadLoop endMarker headers buf (lines ++ br) =
      loadLoop endMarker headers (buf ++ lines.flatten) br := by
  induction lines generalizing buf with
  | nil => rw [List.flatten_nil, List.append_nil]; rfl
  | cons line lines ih =>
      obtain ⟨hline, hlines⟩ := List.forall_mem_cons.1 h
      have hcut : cutAt ':' line = none := cutAt_none fun hc => (hline _ hc).2.1 rfl
      have hend : (afterFirst endMarker line).isSome = false := by
        rw [Bool.eq_false_iff]
        intro hsome
        exact (hline _ ((infix_of_afterFirst hsome).subset hm)).2.2 rfl
      have htrim : trim line = line :=
        trim_eq_self (fun c hc => Char.not_le.2 (hline c (List.mem_of_mem_head? hc)).1)
          fun c hc => Char.not_le.2 (hline c (List.mem_of_mem_getLast? hc)).1
      rw [List.cons_append, loadLoop, hcut]
      dsimp only
      rw [if_neg (by simp [hend]), htrim, ih hlines, List.flatten_cons, List.append_assoc]

/-- The empty line behind the headers adds nothing. -/
theorem loadLoop_headerLines {hdrs : List PemHeader} (h : ∀ hdr ∈ hdrs, hdr.WellFormed)
    (hm : '-' ∈ endMarker) (br : List Text) :
    loadLoop endMarker [] [] (headerLines hdrs ++ br) = loadLoop endMarker hdrs [] br := by
  rw [headerLines]
  split
  · rename_i hnil
    rw [List.isEmpty_iff.1 hnil]
    rfl
  · rw [List.append_assoc, loadLoop_headers h]
    have hblank : ∀ line ∈ [([] : Text)], ∀ c ∈ line, ' ' < c ∧ c ≠ ':' ∧ c ≠ '-' := by simp
    exact loadLoop_content hblank hm br

/-- **A well-formed object is read back.** -/
theorem readPemObject_objectLines {obj : PemObject} (h : obj.WellFormed) (br : List Text) :
    readPemObject (objectLines obj ++ br) = .ok (some obj, br) := by
  have hm : '-' ∈ END ++ obj.type := List.mem_append_left _ (by decide)
  have hload : loadObject obj.type (headerLines obj.headers ++ contentLines obj.content ++
      [END ++ obj.type ++ "-----".toList] ++ br) = .ok (obj, br) := by
    have hend : cutAt ':' (END ++ obj.type ++ "-----".toList) = none := by
      refine cutAt_none fun hc => ?_
      rcases List.mem_append.1 hc with hc | hc
      · rcases List.mem_append.1 hc with hc | hc
        · exact absurd hc (by decide)
        · exact h.type_colon hc
      · exact absurd hc (by decide)
    rw [loadObject, List.append_assoc, List.append_assoc, loadLoop_headerLines h.headers hm,
      loadLoop_content (fun _ hl => chars_of_mem_contentLines hl) hm, List.singleton_append,
      loadLoop, hend]
    dsimp only
    rw [if_pos (afterFirst_append_self (List.ne_nil_of_mem hm) _)]
    dsimp only
    rw [List.nil_append, contentLines, flatten_cutLines (Nat.le_refl _), decode_encode h.content]
  have hcut : cutAt '-' (obj.type ++ "-----".toList) = some (obj.type, "----".toList) :=
    cutAt_append h.type_dash _
  have hdrop : (BEGIN ++ obj.type ++ "-----".toList).drop BEGIN.length =
      obj.type ++ "-----".toList := by
    rw [List.append_assoc, List.drop_left]
  have hpre : BEGIN.isPrefixOf (BEGIN ++ obj.type ++ "-----".toList) := by
    rw [List.append_assoc]
    exact List.isPrefixOf_iff_prefix.2 (List.prefix_append _ _)
  rw [objectLines, List.cons_append, readPemObject, if_pos hpre, hdrop, hcut]
  dsimp only
  rw [if_neg (by simp [h.type_ne]), hload]
  rfl

end Read

/-! ## What the reader makes -/

section Sound

variable {endMarker buf buf' : Text} {headers headers' : List PemHeader} {br br' : List Text}

/-- The line that ends an object has no colon, and so the type has none. -/
theorem loadLoop_sound (hbr : ∀ line ∈ br, Unbroken line) (hh : ∀ hdr ∈ headers, hdr.WellFormed)
    (h : loadLoop endMarker headers buf br = .ok (headers', buf', br')) :
    (∀ hdr ∈ headers', hdr.WellFormed) ∧ ':' ∉ endMarker ∧ ∀ line ∈ br', Unbroken line := by
  induction br generalizing headers buf with
  | nil => exact nomatch h
  | cons line br ih =>
      obtain ⟨hline, hlines⟩ := List.forall_mem_cons.1 hbr
      rw [loadLoop] at h
      split at h
      · rename_i hdr value hcut
        obtain ⟨rfl, hcolon⟩ := cutAt_some hcut
        have hname : Unbroken hdr :=
          ⟨fun hm => hline.1 (List.mem_append_left _ hm),
            fun hm => hline.2 (List.mem_append_left _ hm)⟩
        have hvalue : Unbroken value :=
          ⟨fun hm => hline.1 (List.mem_append_right _ (List.mem_cons_of_mem _ hm)),
            fun hm => hline.2 (List.mem_append_right _ (List.mem_cons_of_mem _ hm))⟩
        refine ih hlines (fun x hx => ?_) h
        rcases List.mem_append.1 hx with hx | hx
        · exact hh x hx
        · rw [List.mem_singleton.1 hx]
          exact ⟨hcolon, hname, hvalue.trim, trim_trim value⟩
      · rename_i hcut
        split at h
        · rename_i hend
          obtain ⟨rfl, hrest⟩ := Prod.mk.inj (Except.ok.inj h)
          obtain ⟨-, rfl⟩ := Prod.mk.inj hrest
          exact ⟨hh, fun hm => notMem_of_cutAt hcut ((infix_of_afterFirst hend).subset hm), hlines⟩
        · exact ih hlines hh h

theorem loadObject_sound {type : Text} {obj : PemObject} (hne : type ≠ []) (hdash : '-' ∉ type)
    (htype : Unbroken type) (hbr : ∀ line ∈ br, Unbroken line)
    (h : loadObject type br = .ok (obj, br')) :
    obj.WellFormed ∧ ∀ line ∈ br', Unbroken line := by
  rw [loadObject] at h
  split at h
  · exact nomatch h
  · rename_i headers buf rest hloop
    obtain ⟨hh, hcolon, hrest⟩ := loadLoop_sound hbr (by simp) hloop
    split at h
    · exact nomatch h
    · rename_i content hdec
      obtain ⟨rfl, rfl⟩ := Prod.mk.inj (Except.ok.inj h)
      exact ⟨⟨hne, hdash, fun hm => hcolon (List.mem_append_right _ hm), htype, hh,
        decode_ne_nil hdec⟩, hrest⟩

/-- **What the reader makes is well-formed.** -/
theorem readPemObject_sound (hbr : ∀ line ∈ br, Unbroken line) {obj : Option PemObject}
    (h : readPemObject br = .ok (obj, br')) :
    (∀ o ∈ obj, o.WellFormed) ∧ ∀ line ∈ br', Unbroken line := by
  induction br with
  | nil =>
      obtain ⟨rfl, rfl⟩ := Prod.mk.inj (Except.ok.inj h)
      exact ⟨by simp, hbr⟩
  | cons line br ih =>
      obtain ⟨hline, hlines⟩ := List.forall_mem_cons.1 hbr
      rw [readPemObject] at h
      split at h
      · split at h
        · exact nomatch h
        · rename_i type rest hcut
          obtain ⟨hdrop, hdash⟩ := cutAt_some hcut
          have hmem : ∀ c ∈ type, c ∈ line := by
            intro c hc
            refine List.mem_of_mem_drop (i := BEGIN.length) ?_
            rw [hdrop]
            exact List.mem_append_left _ hc
          have htype : Unbroken type := ⟨fun hm => hline.1 (hmem _ hm), fun hm => hline.2 (hmem _ hm)⟩
          split at h
          · obtain ⟨rfl, rfl⟩ := Prod.mk.inj (Except.ok.inj h)
            exact ⟨by simp, hlines⟩
          · rename_i hempty
            cases hload : loadObject type br with
            | error e =>
                rw [hload] at h
                exact nomatch h
            | ok r =>
                rw [hload] at h
                obtain ⟨rfl, rfl⟩ := Prod.mk.inj (Except.ok.inj h)
                obtain ⟨hobj, hrest⟩ := loadObject_sound (by simpa using hempty) hdash htype hlines hload
                refine ⟨fun o ho => ?_, hrest⟩
                rw [← Option.some.inj ho]
                exact hobj
      · exact ih hlines h

theorem readPemObjects_sound {n : Nat} (hbr : ∀ line ∈ br, Unbroken line)
    {results : List (Option PemObject)} (h : readPemObjects n br = .ok results) :
    ∀ o, some o ∈ results → o.WellFormed := by
  induction n generalizing br results with
  | zero =>
      obtain rfl := Except.ok.inj h
      simp
  | succ n ih =>
      rw [readPemObjects] at h
      split at h
      · exact nomatch h
      · rename_i obj br' hread
        obtain ⟨hobj, hbr'⟩ := readPemObject_sound hbr hread
        cases hrest : readPemObjects n br' with
        | error e =>
            rw [hrest] at h
            exact nomatch h
        | ok rest =>
            rw [hrest] at h
            obtain rfl := Except.ok.inj h
            intro o ho
            rcases List.mem_cons.1 ho with ho | ho
            · exact hobj o ho.symm
            · exact ih hbr' hrest o ho

end Sound

/-! ## A file of objects -/

/-- The calls of the reader over the lines of well-formed objects. -/
theorem readPemObjects_objectLines {objs : List PemObject} (h : ∀ obj ∈ objs, obj.WellFormed) :
    readPemObjects (objs.length + 1) (objs.flatMap objectLines) =
      .ok (objs.map some ++ [none]) := by
  induction objs with
  | nil => rfl
  | cons obj objs ih =>
      obtain ⟨hobj, hobjs⟩ := List.forall_mem_cons.1 h
      rw [List.length_cons, readPemObjects, List.flatMap_cons, readPemObject_objectLines hobj]
      dsimp only
      rw [ih hobjs]
      rfl

theorem readLines_writeObjects {objs : List PemObject} (h : ∀ obj ∈ objs, obj.WellFormed) :
    readLines (objs.flatMap writeObject) = objs.flatMap objectLines := by
  induction objs with
  | nil => rfl
  | cons obj objs ih =>
      obtain ⟨hobj, hobjs⟩ := List.forall_mem_cons.1 h
      rw [List.flatMap_cons, readLines_writeObject hobj, ih hobjs, List.flatMap_cons]

/-- **A PEM file is read as it was written**, every object in its turn and then the end, exactly if
every object has a content and a type and headers that fit on their lines: no dash, colon or line
end in the type, no colon or line end in the name of a header, and no line end or outer white space
in its value. -/
theorem readPemObjects_iff (objs : List PemObject) :
    readPemObjects (objs.length + 1) (readLines (objs.flatMap writeObject)) =
        .ok (objs.map some ++ [none]) ↔
      ∀ obj ∈ objs, obj.WellFormed := by
  constructor
  · intro h obj hobj
    exact readPemObjects_sound (fun _ hl => unbroken_of_mem_readLines hl) h obj
      (List.mem_append_left _ (List.mem_map_of_mem hobj))
  · intro h
    rw [readLines_writeObjects h]
    exact readPemObjects_objectLines h

end PortVpn.Keystore
