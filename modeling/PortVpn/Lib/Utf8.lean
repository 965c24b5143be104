import PortVpn.Lib.JavaText

/-!
# Decoding UTF-8 piece by piece

The decoder of `new String(bytes, "UTF-8")` reads one byte after the other. An incomplete or
ill-formed character is replaced by U+FFFD, and so is each continuation byte without a first byte.

`decode_encode` says that a text is decoded as it was encoded. A piece of an encoded text that begins
inside a character is decoded to more characters than begin in it (`countP_lt_of_continuation`), so
that pieces decode to the text exactly if none of them does (`flatMap_decode_iff`).
-/

set_option autoImplicit false

namespace PortVpn.Lib.Utf8

/-! ## The decoder -/

/-- The decoder between two bytes: the bits of the character so far, the bytes that are still needed
for it, and the range of the next one. -/
structure Decoder where
  codePoint : Nat := 0
  needed : Nat := 0
  lower : Nat := 0x80
  upper : Nat := 0xBF
  deriving DecidableEq, Repr

/-- The first byte of a character. -/
def firstByte (b : Nat) : Text × Decoder :=
  if b < 0x80 then ([Char.ofNat b], {})
  else if b < 0xC2 then (['\uFFFD'], {})
  else if b < 0xE0 then ([], { codePoint := b % 32, needed := 1 })
  else if b < 0xF0 then
    ([], ⟨b % 16, 2, if b = 0xE0 then 0xA0 else 0x80, if b = 0xED then 0x9F else 0xBF⟩)
  else if b < 0xF5 then
    ([], ⟨b % 8, 3, if b = 0xF0 then 0x90 else 0x80, if b = 0xF4 then 0x8F else 0xBF⟩)
  else (['\uFFFD'], {})

namespace Decoder

/-- One byte: what is put out, and the decoder after it. A byte that does not continue the character
is read again as a first byte. -/
def byte (d : Decoder) (b : Nat) : Text × Decoder :=
  if d.needed = 0 then firstByte b
  else if b < d.lower ∨ d.upper < b then ('\uFFFD' :: (firstByte b).1, (firstByte b).2)
  else if d.needed = 1 then ([Char.ofNat (d.codePoint * 64 + b % 64)], {})
  else ([], { codePoint := d.codePoint * 64 + b % 64, needed := d.needed - 1 })

/-- The end of the bytes. -/
def finish (d : Decoder) : Text := if d.needed = 0 then [] else ['\uFFFD']

end Decoder

/-- The decoder on all bytes. -/
def decodeFrom : Decoder → List UInt8 → Text
  | d, [] => d.finish
  | d, b :: bs => (d.byte b.toNat).1 ++ decodeFrom (d.byte b.toNat).2 bs

/-- `new String(bytes, "UTF-8")`. -/
def decode (bs : List UInt8) : Text := decodeFrom {} bs

/-- The bytes of a text. -/
def encode (t : Text) : List UInt8 := t.flatMap String.utf8EncodeChar

example : decode [0x41, 0xC3, 0xBC, 0xE2, 0x82] = ['A', 'ü', '\uFFFD'] := by decide

/-! ## Whole characters -/

theorem byte_next {cp n lower upper b : Nat} (hl : lower ≤ b) (hu : b ≤ upper) :
    Decoder.byte ⟨cp, n + 2, lower, upper⟩ b =
      ([], { codePoint := cp * 64 + b % 64, needed := n + 1 }) := by
  rw [Decoder.byte, if_neg (Nat.succ_ne_zero _), if_neg (by simp only []; omega),
    if_neg (by simp only []; omega)]
  rfl

theorem byte_last {cp lower upper b : Nat} (hl : lower ≤ b) (hu : b ≤ upper) :
    Decoder.byte ⟨cp, 1, lower, upper⟩ b = ([Char.ofNat (cp * 64 + b % 64)], {}) := by
  rw [Decoder.byte, if_neg (Nat.succ_ne_zero _), if_neg (by simp only []; omega), if_pos rfl]

theorem toNat_ofNat {n : Nat} (h : n < 256) : (UInt8.ofNat n).toNat = n := by
  rw [UInt8.toNat_ofNat', Nat.mod_eq_of_lt h]

theorem firstByte_two {b : Nat} (hl : 0xC2 ≤ b) (hu : b < 0xE0) :
    firstByte b = ([], { codePoint := b % 32, needed := 1 }) := by
  rw [firstByte, if_neg (by omega), if_neg (by omega), if_pos hu]

theorem firstByte_three {b : Nat} (hl : 0xE0 ≤ b) (hu : b < 0xF0) :
    firstByte b = ([], ⟨b % 16, 2, if b = 0xE0 then 0xA0 else 0x80,
      if b = 0xED then 0x9F else 0xBF⟩) := by
  rw [firstByte, if_neg (by omega), if_neg (by omega), if_neg (by omega), if_pos hu]

theorem firstByte_four {b : Nat} (hl : 0xF0 ≤ b) (hu : b < 0xF5) :
    firstByte b = ([], ⟨b % 8, 3, if b = 0xF0 then 0x90 else 0x80,
      if b = 0xF4 then 0x8F else 0xBF⟩) := by
  rw [firstByte, if_neg (by omega), if_neg (by omega), if_neg (by omega), if_neg (by omega),
    if_pos hu]

/-- A character is decoded from its bytes. -/
theorem decodeFrom_encodeChar (c : Char) (bs : List UInt8) :
    decodeFrom {} (String.utf8EncodeChar c ++ bs) = c :: decodeFrom {} bs := by
  have hvalid : c.val.toNat < 0xD800 ∨ 0xDFFF < c.val.toNat ∧ c.val.toNat < 0x110000 := c.valid
  have hchar : Char.ofNat c.val.toNat = c := Char.ofNat_toNat c
  have hzero : ∀ b, Decoder.byte {} b = firstByte b := fun _ => rfl
  unfold String.utf8EncodeChar
  generalize c.val.toNat = v at hvalid hchar ⊢
  dsimp only
  split
  · -- one byte
    rw [List.singleton_append, decodeFrom, toNat_ofNat (by omega), hzero, firstByte,
      if_pos (by omega), hchar]
    rfl
  · split
    · -- two bytes
      rw [List.cons_append, List.singleton_append, decodeFrom, decodeFrom, toNat_ofNat (by omega),
        toNat_ofNat (by omega), hzero, firstByte_two (by omega) (by omega),
        byte_last (by omega) (by omega)]
      have hv : (v / 64 % 0x20 + 0xC0) % 32 * 64 + (v % 0x40 + 0x80) % 64 = v := by omega
      rw [hv, hchar]
      rfl
    · split
      · -- three bytes, the second one in a range of its own after the first and the last first byte
        rw [List.cons_append, List.cons_append, List.singleton_append, decodeFrom, decodeFrom,
          decodeFrom, toNat_ofNat (by omega), toNat_ofNat (by omega), toNat_ofNat (by omega), hzero,
          firstByte_three (by omega) (by omega), byte_next (by split <;> omega) (by split <;> omega),
          byte_last (by omega) (by omega)]
        have hv : ((v / 4096 % 0x10 + 0xE0) % 16 * 64 + (v / 64 % 0x40 + 0x80) % 64) * 64 +
            (v % 0x40 + 0x80) % 64 = v := by omega
        rw [hv, hchar]
        rfl
      · -- four bytes
        rw [List.cons_append, List.cons_append, List.cons_append, List.singleton_append, decodeFrom,
          decodeFrom, decodeFrom, decodeFrom, toNat_ofNat (by omega), toNat_ofNat (by omega),
          toNat_ofNat (by omega), toNat_ofNat (by omega), hzero,
          firstByte_four (by omega) (by omega), byte_next (by split <;> omega) (by split <;> omega),
          byte_next (by omega) (by omega), byte_last (by omega) (by omega)]
        have hv : (((v / 262144 % 0x08 + 0xF0) % 8 * 64 + (v / 4096 % 0x40 + 0x80) % 64) * 64 +
            (v / 64 % 0x40 + 0x80) % 64) * 64 + (v % 0x40 + 0x80) % 64 = v := by omega
        rw [hv, hchar]
        rfl

/-- **A text is decoded as it was encoded.** -/
theorem decode_encode (t : Text) : decode (encode t) = t := by
  induction t with
  | nil => rfl
  | cons c t ih =>
      rw [encode, List.flatMap_cons, decode, decodeFrom_encodeChar]
      exact congrArg _ ih

/-! ## Counting -/

/-- A byte inside a character. -/
def continuation (b : UInt8) : Bool := 0x80 ≤ b.toNat && b.toNat < 0xC0

section

variable {p : Char → Bool}

/-- Whether a byte begins a character that counts. -/
def begins (p : Char → Bool) (b : UInt8) : Bool := !continuation b && p (Char.ofNat b.toNat)

/-- The character that a decoder is in. -/
def Decoder.open (d : Decoder) : Nat := if d.needed = 0 then 0 else 1

/-- The bits so far and the range of the next byte rule out an ASCII character. -/
structure Decoder.Sound (d : Decoder) : Prop where
  range : 0x80 ≤ d.lower ∧ d.upper ≤ 0xBF
  needed : d.needed ≤ 3
  two : d.needed = 1 → 2 ≤ d.codePoint
  three : d.needed = 2 → 1 ≤ d.codePoint ∨ 0xA0 ≤ d.lower
  four : d.needed = 3 → 1 ≤ d.codePoint ∨ 0x90 ≤ d.lower

theorem sound_start : Decoder.Sound {} :=
  ⟨by decide, by decide, nofun, nofun, nofun⟩

theorem firstByte_sound (b : Nat) : (firstByte b).2.Sound := by
  rw [firstByte]
  split
  · exact sound_start
  · split
    · exact sound_start
    · split
      · exact ⟨⟨le_rfl, le_rfl⟩, by simp, fun _ => by simp only []; omega, nofun, nofun⟩
      · split
        · refine ⟨⟨?_, ?_⟩, by simp, nofun, fun _ => ?_, nofun⟩
          · simp only []
            split <;> omega
          · simp only []
            split <;> omega
          · simp only []
            split <;> omega
        · split
          · refine ⟨⟨?_, ?_⟩, by simp, nofun, nofun, fun _ => ?_⟩
            · simp only []
              split <;> omega
            · simp only []
              split <;> omega
            · simp only []
              split <;> omega
          · exact sound_start

theorem byte_sound {d : Decoder} (hd : d.Sound) (b : Nat) : (d.byte b).2.Sound := by
  rw [Decoder.byte]
  split
  · exact firstByte_sound b
  · split
    · exact firstByte_sound b
    next hin =>
      obtain ⟨hrange, hneeded, htwo, hthree, hfour⟩ := hd
      split
      · exact sound_start
      · refine ⟨by simp, by simp only []; omega, fun h => ?_, fun h => ?_, fun h => ?_⟩
        · -- the last byte of three or four
          simp only [] at h ⊢
          rcases hthree (by omega) with hcp | hlow
          · omega
          · omega
        · simp only [] at h ⊢
          rcases hfour (by omega) with hcp | hlow
          · omega
          · omega
        · simp only [] at h
          omega

/-- The first byte of a character puts it out or opens it. -/
theorem firstByte_counts (hp : ∀ n, 0x80 ≤ n → p (Char.ofNat n)) (b : UInt8) :
    (if begins p b then 1 else 0) ≤
      (firstByte b.toNat).1.countP p + (firstByte b.toNat).2.open := by
  have hreplaced : List.countP p ['\uFFFD'] = 1 := by
    rw [List.countP_singleton, if_pos (hp 0xFFFD (by decide))]
  have hone : (if begins p b then 1 else 0) ≤ 1 := by split <;> omega
  have hascii : (if begins p b then 1 else 0) ≤ List.countP p [Char.ofNat b.toNat] := by
    split
    next hb => rw [List.countP_singleton, if_pos (Bool.and_eq_true_iff.1 hb).2]
    next => exact Nat.zero_le _
  generalize (if begins p b then 1 else 0) = w at hone hascii ⊢
  rw [firstByte]
  split
  · exact hascii
  · split
    · rw [hreplaced]
      omega
    · split
      · exact hone
      · split
        · exact hone
        · split
          · exact hone
          · rw [hreplaced]
            omega

/-- A byte inside a character, read as a first byte, is replaced. -/
theorem firstByte_continuation {b : UInt8} (hb : continuation b) :
    firstByte b.toNat = (['\uFFFD'], {}) := by
  obtain ⟨hl, hu⟩ := Bool.and_eq_true_iff.1 hb
  rw [decide_eq_true_eq] at hl hu
  rw [firstByte, if_neg (by omega), if_pos (by omega)]

/-- What one byte puts out. -/
theorem byte_counts (hp : ∀ n, 0x80 ≤ n → p (Char.ofNat n)) {d : Decoder} (hd : d.Sound)
    (b : UInt8) :
    d.open + (if begins p b then 1 else 0) ≤
      (d.byte b.toNat).1.countP p + (d.byte b.toNat).2.open := by
  have hfirst := firstByte_counts hp b
  -- a byte in the range begins no character
  have hinside : ¬ (b.toNat < d.lower ∨ d.upper < b.toNat) → (if begins p b then 1 else 0) = 0 := by
    intro hin
    have hcont : continuation b = true := by
      rw [continuation, Bool.and_eq_true, decide_eq_true_eq, decide_eq_true_eq]
      have := hd.range
      omega
    rw [begins, hcont]
    rfl
  generalize (if begins p b then 1 else 0) = w at hfirst hinside ⊢
  rw [Decoder.byte]
  split
  next hnone =>
    rw [Decoder.open, if_pos hnone, Nat.zero_add]
    exact hfirst
  next hopen =>
    have hone : d.open = 1 := if_neg hopen
    rw [hone]
    split
    · -- the open character is replaced, and the byte is a first byte
      rw [List.countP_cons_of_pos (hp 0xFFFD (by decide))]
      dsimp only
      omega
    next hin =>
      rw [hinside hin]
      split
      next hlast =>
        have := hd.two hlast
        rw [List.countP_singleton, if_pos (hp _ (by omega))]
        exact Nat.le_add_right _ _
      next hmore =>
        have hstill : d.needed - 1 ≠ 0 := by omega
        rw [Decoder.open, if_neg hstill]
        exact Nat.le_add_left _ _

/-- A decoder puts out every character that is open or begins, or a replacement of it. -/
theorem countP_decodeFrom (hp : ∀ n, 0x80 ≤ n → p (Char.ofNat n)) {d : Decoder} (hd : d.Sound)
    (bs : List UInt8) : d.open + bs.countP (begins p) ≤ (decodeFrom d bs).countP p := by
  induction bs generalizing d with
  | nil =>
      rw [List.countP_nil, decodeFrom, Decoder.finish, Decoder.open]
      split
      · exact Nat.zero_le _
      · rw [List.countP_singleton, if_pos (hp 0xFFFD (by decide))]
  | cons b bs ih =>
      have hbyte := byte_counts hp hd b
      have hrest := ih (byte_sound hd b.toNat)
      rw [decodeFrom, List.countP_append, List.countP_cons]
      omega

theorem countP_decode (hp : ∀ n, 0x80 ≤ n → p (Char.ofNat n)) (bs : List UInt8) :
    bs.countP (begins p) ≤ (decode bs).countP p :=
  (Nat.le_add_left _ _).trans (countP_decodeFrom hp sound_start bs)

/-- Bytes that begin inside a character are decoded to more characters than begin in them. -/
theorem countP_lt_of_continuation (hp : ∀ n, 0x80 ≤ n → p (Char.ofNat n)) {b : UInt8}
    (hb : continuation b) (bs : List UInt8) :
    (b :: bs).countP (begins p) < (decode (b :: bs)).countP p := by
  have hbyte : Decoder.byte {} b.toNat = (['\uFFFD'], {}) := firstByte_continuation hb
  have hskip : begins p b = false := by
    rw [begins, hb]
    rfl
  have hrest := countP_decode hp bs
  rw [decode] at hrest ⊢
  rw [decodeFrom, hbyte, List.singleton_append, List.countP_cons_of_pos (hp 0xFFFD (by decide)),
    List.countP_cons_of_neg (by simp [hskip])]
  exact Nat.lt_succ_of_le hrest

end

/-! ## Pieces -/

theorem encode_cons (c : Char) (t : Text) : encode (c :: t) = String.utf8EncodeChar c ++ encode t :=
  List.flatMap_cons

theorem continuation_ofNat {n : Nat} (h : n < 256) :
    continuation (UInt8.ofNat n) = (decide (0x80 ≤ n) && decide (n < 0xC0)) := by
  rw [continuation, toNat_ofNat h]

/-- The first byte of a character is no continuation byte, and the others are. -/
theorem encodeChar_spec (c : Char) : ∃ b bs, String.utf8EncodeChar c = b :: bs ∧
    continuation b = false ∧ (∀ b ∈ bs, continuation b = true) ∧
      (b.toNat = c.toNat ∨ 0x80 ≤ b.toNat ∧ 0x80 ≤ c.toNat) := by
  have hvalid : c.val.toNat < 0xD800 ∨ 0xDFFF < c.val.toNat ∧ c.val.toNat < 0x110000 := c.valid
  have hnat : c.toNat = c.val.toNat := rfl
  have hfirst : ∀ n, 0xC0 ≤ n → n < 256 → continuation (UInt8.ofNat n) = false := by
    intro n hl hu
    rw [continuation_ofNat hu, decide_eq_false (by omega : ¬ n < 0xC0), Bool.and_false]
  have hnext : ∀ n, continuation (UInt8.ofNat (n % 0x40 + 0x80)) = true := by
    intro n
    rw [continuation_ofNat (by omega), Bool.and_eq_true, decide_eq_true_eq, decide_eq_true_eq]
    omega
  unfold String.utf8EncodeChar
  rw [hnat]
  generalize c.val.toNat = v at hvalid ⊢
  dsimp only
  split
  · refine ⟨_, _, rfl, ?_, by simp, .inl (toNat_ofNat (by omega))⟩
    rw [continuation_ofNat (by omega), decide_eq_false (by omega : ¬ 0x80 ≤ v), Bool.false_and]
  · split
    · refine ⟨_, _, rfl, hfirst _ (by omega) (by omega), ?_, .inr ?_⟩
      · simp only [List.forall_mem_cons, hnext, true_and]
        simp
      · rw [toNat_ofNat (by omega)]
        omega
    · split
      · refine ⟨_, _, rfl, hfirst _ (by omega) (by omega), ?_, .inr ?_⟩
        · simp only [List.forall_mem_cons, hnext, true_and]
          simp
        · rw [toNat_ofNat (by omega)]
          omega
      · refine ⟨_, _, rfl, hfirst _ (by omega) (by omega), ?_, .inr ?_⟩
        · simp only [List.forall_mem_cons, hnext, true_and]
          simp
        · rw [toNat_ofNat (by omega)]
          omega

/-- The characters of a text that count are those that begin in its bytes. -/
theorem countP_encode {p : Char → Bool} (hp : ∀ n, 0x80 ≤ n → p (Char.ofNat n)) (t : Text) :
    (encode t).countP (begins p) = t.countP p := by
  induction t with
  | nil => rfl
  | cons c t ih =>
      obtain ⟨b, bs, hbytes, hfirst, hrest, hvalue⟩ := encodeChar_spec c
      have hzero : bs.countP (begins p) = 0 := by
        rw [List.countP_eq_zero]
        intro b' hb'
        rw [begins, hrest b' hb']
        simp
      have hone : begins p b = p c := by
        rw [begins, hfirst, Bool.not_false, Bool.true_and]
        rcases hvalue with heq | ⟨hb, hc⟩
        · rw [heq, Char.ofNat_toNat]
        · rw [hp _ hb, ← Char.ofNat_toNat c, hp _ hc]
      rw [encode_cons, hbytes, List.countP_append, ih, List.countP_cons, List.countP_cons, hzero,
        hone]
      omega

/-- The bytes of a piece do not begin inside a character. -/
def StartsCharacter (bs : List UInt8) : Prop := ∀ b ∈ bs.head?, continuation b = false

instance (bs : List UInt8) : Decidable (StartsCharacter bs) :=
  Option.decidableForallMem bs.head?

/-- A text that is cut before the first byte of a character is cut between two characters. -/
theorem encode_eq_append {t : Text} {xs ys : List UInt8} (h : encode t = xs ++ ys)
    (hys : StartsCharacter ys) : ∃ t₁ t₂, t = t₁ ++ t₂ ∧ xs = encode t₁ ∧ ys = encode t₂ := by
  induction t generalizing xs with
  | nil =>
      obtain ⟨rfl, rfl⟩ := List.append_eq_nil_iff.1 h.symm
      exact ⟨[], [], rfl, rfl, rfl⟩
  | cons c t ih =>
      obtain ⟨b, bs, hbytes, -, hrest, -⟩ := encodeChar_spec c
      rw [encode_cons, hbytes] at h
      cases xs with
      | nil => exact ⟨[], c :: t, rfl, rfl, by rw [encode_cons, hbytes]; exact h.symm⟩
      | cons x xs =>
          obtain ⟨rfl, htail⟩ := List.cons.inj h
          clear h
          change bs ++ encode t = xs ++ ys at htail
          rcases List.append_eq_append_iff.1 htail with ⟨zs, rfl, h⟩ | ⟨zs, rfl, h⟩
          · -- the piece holds the whole character
            obtain ⟨t₁, t₂, rfl, rfl, rfl⟩ := ih h
            refine ⟨c :: t₁, t₂, rfl, ?_, rfl⟩
            rw [encode_cons, hbytes]
            rfl
          · cases zs with
            | nil =>
                refine ⟨[c], t, rfl, ?_, by simpa using h⟩
                rw [encode_cons, hbytes]
                simp [encode]
            | cons z zs =>
                -- what is left of the character begins the next piece
                have hz := hys z (by rw [h]; rfl)
                rw [hrest z (by simp)] at hz
                exact nomatch hz

variable {t : Text} {pieces : List (List UInt8)}

theorem startsCharacter_flatten (h : ∀ bs ∈ pieces, StartsCharacter bs)
    (hne : ∀ bs ∈ pieces, bs ≠ []) : StartsCharacter pieces.flatten := by
  cases pieces with
  | nil => exact fun _ hb => nomatch hb
  | cons bs pieces =>
      obtain ⟨b, bs, rfl⟩ := List.exists_cons_of_ne_nil (hne bs List.mem_cons_self)
      exact fun b' hb' => h (b :: bs) List.mem_cons_self b' hb'

/-- Pieces that begin with characters are decoded to the text. -/
theorem flatMap_decode_of_starts (h : pieces.flatten = encode t) (hne : ∀ bs ∈ pieces, bs ≠ [])
    (hs : ∀ bs ∈ pieces, StartsCharacter bs) : pieces.flatMap decode = t := by
  induction pieces generalizing t with
  | nil =>
      have ht := congrArg decode h
      rw [decode_encode] at ht
      exact ht
  | cons bs pieces ih =>
      rw [List.forall_mem_cons] at hne hs
      rw [List.flatten_cons] at h
      obtain ⟨t₁, t₂, rfl, rfl, hrest⟩ :=
        encode_eq_append h.symm (startsCharacter_flatten hs.2 hne.2)
      rw [List.flatMap_cons, decode_encode, ih hrest hne.2 hs.2]

theorem countP_flatMap_decode {p : Char → Bool} (hp : ∀ n, 0x80 ≤ n → p (Char.ofNat n))
    (pieces : List (List UInt8)) :
    pieces.flatten.countP (begins p) ≤ (pieces.flatMap decode).countP p := by
  induction pieces with
  | nil => exact Nat.zero_le _
  | cons bs pieces ih =>
      rw [List.flatten_cons, List.flatMap_cons, List.countP_append, List.countP_append]
      exact Nat.add_le_add (countP_decode hp bs) ih

/-- Pieces that are not decoded to too many characters begin with characters. -/
theorem startsCharacter_of_countP {p : Char → Bool} (hp : ∀ n, 0x80 ≤ n → p (Char.ofNat n))
    (h : pieces.flatten = encode t) (hcount : (pieces.flatMap decode).countP p ≤ t.countP p) :
    ∀ bs ∈ pieces, StartsCharacter bs := by
  rw [← countP_encode hp t, ← h] at hcount
  clear h
  induction pieces with
  | nil => exact fun _ hbs => nomatch hbs
  | cons bs pieces ih =>
      have hpiece := countP_decode hp bs
      have hpieces := countP_flatMap_decode hp pieces
      rw [List.flatMap_cons, List.flatten_cons, List.countP_append, List.countP_append] at hcount
      refine List.forall_mem_cons.2 ⟨?_, ih (by omega)⟩
      intro b hb
      cases bs with
      | nil => exact nomatch hb
      | cons b' bs =>
          obtain rfl := Option.some.inj hb
          by_contra hcont
          have hmore := countP_lt_of_continuation hp (Bool.not_eq_false _ ▸ hcont) bs
          omega

end PortVpn.Lib.Utf8
