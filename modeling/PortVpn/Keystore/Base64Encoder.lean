import PortVpn.Lib.JavaText
import PortVpn.Lib.SixBits

/-!
# The Base64 encoder of the PEM files

`Base64Encoder` of the package `org.spongycastle.util.encoders`. Its `decode` passes over white
space, except among the last four characters, which it takes by their position. `decode_spaced_iff`
says for which spacings of an encoded text the bytes come back.

`decode` is given the `char` values of its input. The method for byte arrays has the same code; a
negative byte is the `char` that the cast makes of it.
-/

set_option autoImplicit false

namespace PortVpn.Keystore

open PortVpn.Lib PortVpn.Lib.SixBits

/-! ## Encoding -/

/-- `Base64Encoder.encodingTable`. -/
def encodingTable : List Char :=
  "ABCDEFGHIJKLMNOPQRSTUVWXYZabcdefghijklmnopqrstuvwxyz0123456789+/".toList

/-- An entry of the table. -/
def letter (d : Nat) : Char := encodingTable.getD d '='

/-- `Base64Encoder.encode` and `Base64.encode`, with the bytes that are written as characters: the
whole groups, and then the tail of the input. -/
def encode : List UInt8 → Text
  | [] => []
  | [data₁] =>
      let d₁ := data₁.toNat
      [letter ((d₁ >>> 2) &&& 0x3f), letter ((d₁ <<< 4) &&& 0x3f), '=', '=']
  | [data₁, data₂] =>
      let d₁ := data₁.toNat
      let d₂ := data₂.toNat
      [letter ((d₁ >>> 2) &&& 0x3f), letter ((d₁ <<< 4 ||| d₂ >>> 4) &&& 0x3f),
        letter ((d₂ <<< 2) &&& 0x3f), '=']
  | data₁ :: data₂ :: data₃ :: data =>
      let a₁ := data₁.toNat
      let a₂ := data₂.toNat
      let a₃ := data₃.toNat
      letter ((a₁ >>> 2) &&& 0x3f) :: letter ((a₁ <<< 4 ||| a₂ >>> 4) &&& 0x3f) ::
        letter ((a₂ <<< 2 ||| a₃ >>> 6) &&& 0x3f) :: letter (a₃ &&& 0x3f) :: encode data

/-- The characters that fill the last group of four. -/
def paddings (bytes : Nat) : Text := List.replicate ((3 - bytes % 3) % 3) '='

/-! ## Decoding -/

/-- The `char` values of a text: a character outside the basic multilingual plane has two. -/
def charValues (t : Text) : List Nat :=
  t.flatMap fun c =>
    if c.toNat < 0x10000 then [c.toNat]
    else [0xD800 + (c.toNat - 0x10000) / 0x400, 0xDC00 + (c.toNat - 0x10000) % 0x400]

/-- `Base64Encoder.decodingTable`, which has 128 entries: those of characters that are not in
`encodingTable` are zero. -/
def decodingTable (c : Nat) : Option Nat :=
  if c < 128 then some ((encodingTable.findIdx? fun e => e.toNat == c).getD 0) else none

/-- `Base64Encoder.ignore`. -/
def ignore (c : Nat) : Bool := c == 10 || c == 13 || c == 9 || c == 32

/-- A place in the input: the number of characters before `finish`, and the input from there. -/
abbrev Cursor := Nat × List Nat

/-- `Base64Encoder.nextI`. -/
def nextI : Nat → List Nat → Cursor
  | left + 1, c :: data => if ignore c then nextI left data else (left + 1, c :: data)
  | left, data => (left, data)

/-- `decodingTable[data.charAt(i++)]`. -/
def readDigit : Cursor → Option (Nat × Cursor)
  | (left, c :: data) => (decodingTable c).map fun b => (b, left - 1, data)
  | (_, []) => none

/-- The bytes of a group; `write` takes the low eight bits of its argument. -/
def groupBytes (b₁ b₂ b₃ b₄ : Nat) : List UInt8 :=
  [UInt8.ofNat (b₁ <<< 2 ||| b₂ >>> 4), UInt8.ofNat (b₂ <<< 4 ||| b₃ >>> 2),
    UInt8.ofNat (b₃ <<< 6 ||| b₄)]

/-- The loop of `decode`. Every round takes a character, so that the characters before `finish`
bound the rounds. -/
def decodeLoop : Nat → Cursor → Option (List UInt8)
  | 0, _ => some []
  | n + 1, s =>
      if s.1 = 0 then some []
      else do
        let (b₁, s) ← readDigit s
        let (b₂, s) ← readDigit (nextI s.1 s.2)
        let (b₃, s) ← readDigit (nextI s.1 s.2)
        let (b₄, s) ← readDigit (nextI s.1 s.2)
        let out ← decodeLoop n (nextI s.1 s.2)
        some (groupBytes b₁ b₂ b₃ b₄ ++ out)

/-- `Base64Encoder.decodeLastBlock`. -/
def decodeLastBlock (c₁ c₂ c₃ c₄ : Nat) : Option (List UInt8) :=
  if c₃ = '='.toNat then do
    let b₁ ← decodingTable c₁
    let b₂ ← decodingTable c₂
    some [UInt8.ofNat (b₁ <<< 2 ||| b₂ >>> 4)]
  else if c₄ = '='.toNat then do
    let b₁ ← decodingTable c₁
    let b₂ ← decodingTable c₂
    let b₃ ← decodingTable c₃
    some [UInt8.ofNat (b₁ <<< 2 ||| b₂ >>> 4), UInt8.ofNat (b₂ <<< 4 ||| b₃ >>> 2)]
  else do
    let b₁ ← decodingTable c₁
    let b₂ ← decodingTable c₂
    let b₃ ← decodingTable c₃
    let b₄ ← decodingTable c₄
    some (groupBytes b₁ b₂ b₃ b₄)

/-- The input without the characters at its end that are ignored. -/
def dropIgnored (data : List Nat) : List Nat := (data.reverse.dropWhile ignore).reverse

/-- `Base64Encoder.decode` and `Base64.decode`; `none` for an index out of bounds. -/
def decode (data : List Nat) : Option (List UInt8) := do
  let data := dropIgnored data
  let finish := data.length - 4
  match data.drop finish with
  | [c₁, c₂, c₃, c₄] =>
      let out ← decodeLoop finish (nextI finish data)
      let last ← decodeLastBlock c₁ c₂ c₃ c₄
      some (out ++ last)
  -- with fewer than four characters the index `end - 4` is negative
  | _ => none

example : decode (charValues "QmF\n zZQ==\r\n".toList) = some [0x42, 0x61, 0x73, 0x65] := by decide

/-! ## The two tables -/

theorem decodingTable_letter {d : Nat} (h : d < 64) :
    decodingTable (letter d).toNat = some d := by
  have hall : ∀ d < 64, decodingTable (letter d).toNat = some d := by decide +kernel
  exact hall d h

theorem ignore_letter {d : Nat} (h : d < 64) : ignore (letter d).toNat = false := by
  have hall : ∀ d < 64, ignore (letter d).toNat = false := by decide +kernel
  exact hall d h

theorem letter_ne_padding {d : Nat} (h : d < 64) : (letter d).toNat ≠ '='.toNat := by
  have hall : ∀ d < 64, (letter d).toNat ≠ '='.toNat := by decide +kernel
  exact hall d h

/-- **What is encoded**: the digits of the bytes, and the padding. -/
theorem encode_eq (bs : List UInt8) :
    encode bs = (toDigits bs).map letter ++ paddings bs.length := by
  induction bs using encode.induct with
  | case1 => rfl
  | case2 a =>
      have ha : a.toNat / 4 < 64 := by
        have := a.toNat_lt
        omega
      have hb : a.toNat * 16 % 64 = a.toNat % 4 * 16 := by omega
      simp only [encode, toDigits, and_63, Nat.shiftRight_eq_div_pow, Nat.shiftLeft_eq,
        Nat.reducePow, Nat.mod_eq_of_lt ha, hb]
      rfl
  | case3 a b =>
      have hb := b.toNat_lt
      have ha : a.toNat / 4 < 64 := by
        have := a.toNat_lt
        omega
      have hor : a.toNat * 2 ^ 4 ||| b.toNat / 16 = a.toNat * 2 ^ 4 + b.toNat / 16 :=
        mul_or (by omega)
      have h₂ : (a.toNat * 16 + b.toNat / 16) % 64 = a.toNat % 4 * 16 + b.toNat / 16 := by omega
      have h₃ : b.toNat * 4 % 64 = b.toNat % 16 * 4 := by omega
      simp only [Nat.reducePow] at hor
      simp only [encode, toDigits, and_63, Nat.shiftRight_eq_div_pow, Nat.shiftLeft_eq,
        Nat.reducePow, hor, Nat.mod_eq_of_lt ha, h₂, h₃]
      rfl
  | case4 a b c bs ih =>
      have hb := b.toNat_lt
      have hc := c.toNat_lt
      have ha : a.toNat / 4 < 64 := by
        have := a.toNat_lt
        omega
      have hor₂ : a.toNat * 2 ^ 4 ||| b.toNat / 16 = a.toNat * 2 ^ 4 + b.toNat / 16 :=
        mul_or (by omega)
      have hor₃ : b.toNat * 2 ^ 2 ||| c.toNat / 64 = b.toNat * 2 ^ 2 + c.toNat / 64 :=
        mul_or (by omega)
      have h₂ : (a.toNat * 16 + b.toNat / 16) % 64 = a.toNat % 4 * 16 + b.toNat / 16 := by omega
      have h₃ : (b.toNat * 4 + c.toNat / 64) % 64 = b.toNat % 16 * 4 + c.toNat / 64 := by omega
      have hpad : paddings (a :: b :: c :: bs).length = paddings bs.length := by
        simp only [paddings, List.length_cons]
        rw [show bs.length + 1 + 1 + 1 = bs.length + 3 from rfl, Nat.add_mod_right]
      simp only [Nat.reducePow] at hor₂ hor₃
      simp only [encode, toDigits, and_63, Nat.shiftRight_eq_div_pow, Nat.shiftLeft_eq,
        Nat.reducePow, hor₂, hor₃, Nat.mod_eq_of_lt ha, h₂, h₃, hpad, ih, List.map_cons,
        List.cons_append]

/-- The bytes of a group of digits. -/
theorem groupBytes_eq {b₁ b₂ b₃ b₄ : Nat} (h₂ : b₂ < 64) (h₃ : b₃ < 64) (h₄ : b₄ < 64) :
    groupBytes b₁ b₂ b₃ b₄ = ofDigits [b₁, b₂, b₃, b₄] := by
  have hor₁ : b₁ * 2 ^ 2 ||| b₂ / 16 = b₁ * 2 ^ 2 + b₂ / 16 := mul_or (by omega)
  have hor₂ : b₂ * 2 ^ 4 ||| b₃ / 4 = b₂ * 2 ^ 4 + b₃ / 4 := mul_or (by omega)
  have hor₃ : b₃ * 2 ^ 6 ||| b₄ = b₃ * 2 ^ 6 + b₄ := mul_or h₄
  simp only [Nat.reducePow] at hor₁ hor₂ hor₃
  simp only [groupBytes, ofDigits, Nat.shiftRight_eq_div_pow, Nat.shiftLeft_eq, Nat.reducePow,
    hor₁, hor₂, hor₃, List.cons.injEq, true_and, and_true]
  constructor
  · apply UInt8.toNat_inj.mp
    simp only [UInt8.toNat_ofNat']
    omega
  · apply UInt8.toNat_inj.mp
    simp only [UInt8.toNat_ofNat']
    omega

/-! ## The loop -/

/-- The characters before `finish` that are not ignored. -/
def solids (s : Cursor) : List Nat := (s.2.take s.1).filter fun c => !ignore c

/-- The place that is found has a character that is not ignored, unless it is `finish`. -/
theorem nextI_cases {left : Nat} {data : List Nat} (h : left ≤ data.length) :
    (nextI left data).1 = 0 ∧ solids (left, data) = [] ∨
      ∃ rest c behind, nextI left data = (rest + 1, c :: behind) ∧ rest < left ∧
        rest ≤ behind.length ∧ solids (left, data) = c :: solids (rest, behind) := by
  induction data generalizing left with
  | nil =>
      obtain rfl : left = 0 := by simpa using h
      exact .inl ⟨rfl, rfl⟩
  | cons c data ih =>
      cases left with
      | zero => exact .inl ⟨rfl, rfl⟩
      | succ left =>
          have hle := Nat.le_of_succ_le_succ h
          by_cases hc : ignore c
          · have hsolid : solids (left + 1, c :: data) = solids (left, data) := by
              rw [solids, solids, List.take_succ_cons, List.filter_cons_of_neg (by simp [hc])]
            rw [nextI, if_pos hc, hsolid]
            rcases ih hle with hend | ⟨rest, d, behind, hnext, hlt, hrest, hcons⟩
            · exact .inl hend
            · exact .inr ⟨rest, d, behind, hnext, Nat.lt_succ_of_lt hlt, hrest, hcons⟩
          · refine .inr ⟨left, c, data, by rw [nextI, if_neg hc], Nat.lt_succ_self _, hle, ?_⟩
            rw [solids, List.take_succ_cons, List.filter_cons_of_pos (by simp [hc]), solids]

/-- The next digit is that of the next character that is not ignored. -/
theorem readDigit_nextI {left : Nat} {data cs : List Nat} {c : Nat} (h : left ≤ data.length)
    (hs : solids (left, data) = c :: cs) :
    ∃ rest behind, rest < left ∧ rest ≤ behind.length ∧ solids (rest, behind) = cs ∧
      readDigit (nextI left data) = (decodingTable c).map fun b => (b, rest, behind) := by
  rcases nextI_cases h with ⟨-, hnil⟩ | ⟨rest, d, behind, hnext, hlt, hle, hcons⟩
  · rw [hnil] at hs
    exact nomatch hs
  · rw [hcons] at hs
    obtain ⟨rfl, rfl⟩ := List.cons.inj hs
    exact ⟨rest, behind, hlt, hle, rfl, by rw [hnext]; rfl⟩

/-- **Groups of digits, however they are spaced**, give their bytes. -/
theorem decodeLoop_letters {ds : List Nat} (h4 : 4 ∣ ds.length) (hds : ∀ d ∈ ds, d < 64) :
    ∀ {n left : Nat} {data : List Nat}, left ≤ n → left ≤ data.length →
      solids (left, data) = ds.map (fun d => (letter d).toNat) →
        decodeLoop n (nextI left data) = some (ofDigits ds) := by
  induction ds using ofDigits.induct with
  | case1 d₁ d₂ d₃ d₄ ds ih =>
      intro n left data hn hle hs
      simp only [List.forall_mem_cons] at hds
      obtain ⟨h₁, h₂, h₃, h₄, hds⟩ := hds
      have h4 : 4 ∣ ds.length := by
        simp only [List.length_cons] at h4
        omega
      obtain ⟨rest₁, data₁, hlt₁, hle₁, hs₁, hr₁⟩ := readDigit_nextI hle hs
      obtain ⟨rest₂, data₂, hlt₂, hle₂, hs₂, hr₂⟩ := readDigit_nextI hle₁ hs₁
      obtain ⟨rest₃, data₃, hlt₃, hle₃, hs₃, hr₃⟩ := readDigit_nextI hle₂ hs₂
      obtain ⟨rest₄, data₄, hlt₄, hle₄, hs₄, hr₄⟩ := readDigit_nextI hle₃ hs₃
      obtain ⟨n, rfl⟩ : ∃ m, n = m + 1 := ⟨n - 1, by omega⟩
      have hne : (nextI left data).1 ≠ 0 := by
        rcases nextI_cases hle with ⟨-, hnil⟩ | ⟨rest, c, behind, hnext, -⟩
        · rw [hnil] at hs
          cases hs
        · rw [hnext]
          exact Nat.succ_ne_zero _
      rw [decodeLoop, if_neg hne]
      simp only [hr₁, hr₂, hr₃, hr₄, decodingTable_letter h₁, decodingTable_letter h₂,
        decodingTable_letter h₃, decodingTable_letter h₄, Option.map_some, Option.bind_eq_bind,
        Option.bind_some, ih h4 hds (by omega : rest₄ ≤ n) hle₄ hs₄, groupBytes_eq h₂ h₃ h₄]
      rw [← ofDigits_append (by simp)]
      rfl
  | case2 => exact absurd h4 (by simp)
  | case3 => exact absurd h4 (by simp)
  | case4 => exact absurd h4 (by simp)
  | case5 =>
      intro n left data hn hle hs
      cases n with
      | zero => rfl
      | succ n =>
          rcases nextI_cases hle with ⟨hzero, -⟩ | ⟨rest, c, behind, -, -, -, hcons⟩
          · rw [decodeLoop, if_pos hzero]
            rfl
          · rw [hcons] at hs
            cases hs

theorem readDigit_length {left : Nat} {data : List Nat} {b : Nat} {s : Cursor}
    (h : left ≤ data.length) (hread : readDigit (nextI left data) = some (b, s)) :
    s.1 ≤ s.2.length ∧ s.1 ≤ left - 1 ∧
      (solids s).length = (solids (left, data)).length - 1 := by
  rcases nextI_cases h with ⟨hzero, hnil⟩ | ⟨rest, c, behind, hnext, hlt, hle, hcons⟩
  · obtain ⟨z, data', hnext⟩ : ∃ z data', nextI left data = (z, data') := ⟨_, _, rfl⟩
    rw [hnext] at hzero hread
    obtain rfl : z = 0 := hzero
    cases data' with
    | nil => exact nomatch hread
    | cons c data' =>
        obtain ⟨d, -, hd⟩ := Option.map_eq_some_iff.1 hread
        obtain ⟨-, rfl⟩ := Prod.mk.inj hd
        rw [hnil]
        exact ⟨Nat.zero_le _, Nat.zero_le _, rfl⟩
  · rw [hnext] at hread
    obtain ⟨d, -, hd⟩ := Option.map_eq_some_iff.1 hread
    obtain ⟨-, rfl⟩ := Prod.mk.inj hd
    rw [hcons]
    exact ⟨hle, Nat.le_sub_one_of_lt hlt, rfl⟩

/-- Three bytes are written for every round that is begun. -/
theorem decodeLoop_length {n : Nat} : ∀ {left : Nat} {data : List Nat} {out : List UInt8},
    left ≤ n → left ≤ data.length → decodeLoop n (nextI left data) = some out →
      out.length = ((solids (left, data)).length + 3) / 4 * 3 := by
  induction n with
  | zero =>
      intro left data out hn hle hout
      obtain rfl := Nat.le_zero.1 hn
      obtain rfl := Option.some.inj hout
      simp [solids]
  | succ n ih =>
      intro left data out hn hle hout
      rw [decodeLoop] at hout
      by_cases hzero : (nextI left data).1 = 0
      · rw [if_pos hzero] at hout
        obtain rfl := Option.some.inj hout
        rcases nextI_cases hle with ⟨-, hnil⟩ | ⟨rest, c, behind, hnext, -⟩
        · rw [hnil]
          rfl
        · rw [hnext] at hzero
          exact nomatch hzero
      · rw [if_neg hzero] at hout
        have hsolid : 0 < (solids (left, data)).length := by
          rcases nextI_cases hle with ⟨h0, -⟩ | ⟨rest, c, behind, -, -, -, hcons⟩
          · exact absurd h0 hzero
          · rw [hcons]
            exact Nat.succ_pos _
        obtain ⟨⟨b₁, s₁⟩, hr₁, hout⟩ := Option.bind_eq_some_iff.1 hout
        obtain ⟨⟨b₂, s₂⟩, hr₂, hout⟩ := Option.bind_eq_some_iff.1 hout
        obtain ⟨⟨b₃, s₃⟩, hr₃, hout⟩ := Option.bind_eq_some_iff.1 hout
        obtain ⟨⟨b₄, s₄⟩, hr₄, hout⟩ := Option.bind_eq_some_iff.1 hout
        obtain ⟨rest, hrest, hout⟩ := Option.bind_eq_some_iff.1 hout
        obtain rfl := Option.some.inj hout
        obtain ⟨hle₁, hlt₁, hs₁⟩ := readDigit_length hle hr₁
        obtain ⟨hle₂, hlt₂, hs₂⟩ := readDigit_length hle₁ hr₂
        obtain ⟨hle₃, hlt₃, hs₃⟩ := readDigit_length hle₂ hr₃
        obtain ⟨hle₄, hlt₄, hs₄⟩ := readDigit_length hle₃ hr₄
        have hlen := ih (by omega) hle₄ hrest
        -- four of the characters that are left, or all of them, belong to this round
        have hs₁ : (solids (s₁.1, s₁.2)).length = (solids (left, data)).length - 1 := hs₁
        have hs₂ : (solids (s₂.1, s₂.2)).length = (solids (s₁.1, s₁.2)).length - 1 := hs₂
        have hs₃ : (solids (s₃.1, s₃.2)).length = (solids (s₂.1, s₂.2)).length - 1 := hs₃
        have hs₄ : (solids (s₄.1, s₄.2)).length = (solids (s₃.1, s₃.2)).length - 1 := hs₄
        rw [List.length_append, hlen]
        have hgroup : (groupBytes b₁ b₂ b₃ b₄).length = 3 := rfl
        omega

/-! ## The last group -/

theorem decodeLastBlock_length {c₁ c₂ c₃ c₄ : Nat} {last : List UInt8}
    (h : decodeLastBlock c₁ c₂ c₃ c₄ = some last) : 1 ≤ last.length := by
  rw [decodeLastBlock] at h
  split at h
  · obtain ⟨b₁, -, h⟩ := Option.bind_eq_some_iff.1 h
    obtain ⟨b₂, -, h⟩ := Option.bind_eq_some_iff.1 h
    rw [← Option.some.inj h]
    exact Nat.le_refl 1
  · split at h
    · obtain ⟨b₁, -, h⟩ := Option.bind_eq_some_iff.1 h
      obtain ⟨b₂, -, h⟩ := Option.bind_eq_some_iff.1 h
      obtain ⟨b₃, -, h⟩ := Option.bind_eq_some_iff.1 h
      rw [← Option.some.inj h]
      exact Nat.le_succ 1
    · obtain ⟨b₁, -, h⟩ := Option.bind_eq_some_iff.1 h
      obtain ⟨b₂, -, h⟩ := Option.bind_eq_some_iff.1 h
      obtain ⟨b₃, -, h⟩ := Option.bind_eq_some_iff.1 h
      obtain ⟨b₄, -, h⟩ := Option.bind_eq_some_iff.1 h
      rw [← Option.some.inj h]
      exact Nat.succ_le_succ (Nat.zero_le _)

theorem charValues_eq_map {t : Text} (h : ∀ c ∈ t, c.toNat < 0x10000) :
    charValues t = t.map Char.toNat := by
  induction t with
  | nil => rfl
  | cons c t ih =>
      obtain ⟨hc, ht⟩ := List.forall_mem_cons.1 h
      rw [charValues, List.flatMap_cons, if_pos hc, List.map_cons, ← ih ht]
      rfl

theorem letter_lt {d : Nat} (h : d < 64) : (letter d).toNat < 128 := by
  have hall : ∀ d < 64, (letter d).toNat < 128 := by decide +kernel
  exact hall d h

theorem charValues_encode (bs : List UInt8) :
    charValues (encode bs) = (toDigits bs).map (fun d => (letter d).toNat) ++
      List.replicate ((3 - bs.length % 3) % 3) '='.toNat := by
  rw [charValues_eq_map, encode_eq, List.map_append, List.map_map, paddings, List.map_replicate]
  · rfl
  · intro c hc
    rw [encode_eq, List.mem_append, List.mem_map] at hc
    rcases hc with ⟨d, hd, rfl⟩ | hc
    · exact (letter_lt (lt_of_mem_toDigits d hd)).trans (by decide)
    · rw [List.eq_of_mem_replicate hc]
      decide

theorem length_encode (bs : List UInt8) :
    (charValues (encode bs)).length = (bs.length + 2) / 3 * 4 := by
  rw [charValues_encode, List.length_append, List.length_map, length_toDigits,
    List.length_replicate]
  omega

/-- The last group of an encoded text gives the bytes after the whole groups. -/
theorem decodeLastBlock_encode {tail : List UInt8} (h0 : 0 < tail.length) (h3 : tail.length ≤ 3) :
    ∃ c₁ c₂ c₃ c₄, charValues (encode tail) = [c₁, c₂, c₃, c₄] ∧
      decodeLastBlock c₁ c₂ c₃ c₄ = some tail := by
  have hof := ofDigits_toDigits tail
  have hlt : ∀ d ∈ toDigits tail, d < 64 := lt_of_mem_toDigits
  have hpad := charValues_encode tail
  match tail with
  | [a] =>
      simp only [toDigits, List.forall_mem_cons] at hlt hof
      refine ⟨_, _, _, _, hpad, ?_⟩
      rw [decodeLastBlock, if_pos rfl, decodingTable_letter hlt.1, decodingTable_letter hlt.2.1,
        ← hof]
      have hgroup : groupBytes (a.toNat / 4) (a.toNat % 4 * 16) 0 0 = _ :=
        groupBytes_eq hlt.2.1 (by omega) (by omega)
      simp only [Option.bind_eq_bind, Option.bind_some, Option.some.injEq]
      exact congrArg (List.take 1) hgroup
  | [a, b] =>
      simp only [toDigits, List.forall_mem_cons] at hlt hof
      refine ⟨_, _, _, _, hpad, ?_⟩
      rw [decodeLastBlock, if_neg (letter_ne_padding hlt.2.2.1), if_pos rfl,
        decodingTable_letter hlt.1, decodingTable_letter hlt.2.1, decodingTable_letter hlt.2.2.1,
        ← hof]
      have hgroup : groupBytes (a.toNat / 4) _ _ 0 = _ :=
        groupBytes_eq hlt.2.1 hlt.2.2.1 (by omega)
      simp only [Option.bind_eq_bind, Option.bind_some, Option.some.injEq]
      exact congrArg (List.take 2) hgroup
  | [a, b, c] =>
      have hpad : charValues (encode [a, b, c]) =
          (toDigits [a, b, c]).map fun d => (letter d).toNat := by
        simpa using hpad
      simp only [toDigits, List.forall_mem_cons] at hlt hof
      refine ⟨_, _, _, _, hpad, ?_⟩
      rw [decodeLastBlock, if_neg (letter_ne_padding hlt.2.2.1),
        if_neg (letter_ne_padding hlt.2.2.2.1), decodingTable_letter hlt.1,
        decodingTable_letter hlt.2.1, decodingTable_letter hlt.2.2.1,
        decodingTable_letter hlt.2.2.2.1, ← hof]
      have hgroup : groupBytes (a.toNat / 4) _ _ _ = _ :=
        groupBytes_eq hlt.2.1 hlt.2.2.1 hlt.2.2.2.1
      simp only [Option.bind_eq_bind, Option.bind_some, Option.some.injEq]
      exact hgroup

/-! ## Spaced texts -/

theorem filter_dropIgnored (data : List Nat) :
    (dropIgnored data).filter (fun c => !ignore c) = data.filter fun c => !ignore c := by
  have hdrop : ∀ l : List Nat, (l.dropWhile ignore).filter (fun c => !ignore c) =
      l.filter fun c => !ignore c := by
    intro l
    induction l with
    | nil => rfl
    | cons c l ih =>
        by_cases hc : ignore c
        · rw [List.dropWhile_cons_of_pos hc, ih, List.filter_cons_of_neg (by simp [hc])]
        · rw [List.dropWhile_cons_of_neg hc]
  rw [dropIgnored, List.filter_reverse, hdrop, List.filter_reverse, List.reverse_reverse]

/-- The last four characters, those at the end that are ignored apart, stand together. -/
def LastGroupUnbroken (data : List Nat) : Prop :=
  ∀ c ∈ (dropIgnored data).drop ((dropIgnored data).length - 4), ignore c = false

instance (data : List Nat) : Decidable (LastGroupUnbroken data) := by
  rw [LastGroupUnbroken]
  infer_instance

/-- The groups before the last one, and the last one. -/
theorem exists_split {bs : List UInt8} (h : bs ≠ []) : ∃ front tail, bs = front ++ tail ∧
    3 ∣ front.length ∧ 0 < tail.length ∧ tail.length ≤ 3 ∧
      charValues (encode bs) =
        (toDigits front).map (fun d => (letter d).toNat) ++ charValues (encode tail) := by
  have hpos : 0 < bs.length := List.length_pos_iff.2 h
  refine ⟨bs.take ((bs.length - 1) / 3 * 3), bs.drop ((bs.length - 1) / 3 * 3),
    (List.take_append_drop _ _).symm, ?_, ?_, ?_, ?_⟩
  · rw [List.length_take, Nat.min_eq_left (by omega)]
    exact Nat.dvd_mul_left _ _
  · rw [List.length_drop]
    omega
  · rw [List.length_drop]
    omega
  · have hwhole : 3 ∣ (bs.take ((bs.length - 1) / 3 * 3)).length := by
      rw [List.length_take, Nat.min_eq_left (by omega)]
      exact Nat.dvd_mul_left _ _
    have hdigits := toDigits_append hwhole (bs.drop ((bs.length - 1) / 3 * 3))
    rw [List.take_append_drop] at hdigits
    have hmod : (bs.drop ((bs.length - 1) / 3 * 3)).length % 3 = bs.length % 3 := by
      rw [List.length_drop]
      omega
    rw [charValues_encode, charValues_encode, hdigits, List.map_append, List.append_assoc, hmod]

section Spaced

variable {bs : List UInt8} {data : List Nat}

theorem split_solids (data : List Nat) :
    data.filter (fun c => !ignore c) = solids (data.length - 4, data) ++
      (data.drop (data.length - 4)).filter fun c => !ignore c := by
  rw [solids, ← List.filter_append, List.take_append_drop]

/-- An ignored character among the last four would cost a round more. -/
theorem lastGroup_of_decode (h : data.filter (fun c => !ignore c) = charValues (encode bs))
    (hdec : decode data = some bs) : bs ≠ [] ∧ LastGroupUnbroken data := by
  have hlen : ((dropIgnored data).filter fun c => !ignore c).length = (bs.length + 2) / 3 * 4 := by
    rw [filter_dropIgnored, h, length_encode]
  rw [LastGroupUnbroken]
  rw [decode] at hdec
  generalize dropIgnored data = data' at hdec hlen ⊢
  split at hdec
  · rename_i c₁ c₂ c₃ c₄ hlast
    obtain ⟨out, hout, hdec⟩ := Option.bind_eq_some_iff.1 hdec
    obtain ⟨last, hblock, hdec⟩ := Option.bind_eq_some_iff.1 hdec
    have hbs := Option.some.inj hdec
    have hblock := decodeLastBlock_length hblock
    have hout := decodeLoop_length (Nat.le_refl _) (Nat.sub_le _ _) hout
    have hsum : out.length + last.length = bs.length := by rw [← hbs, List.length_append]
    refine ⟨fun hnil => ?_, fun c hc => ?_⟩
    · rw [hnil, List.length_nil] at hsum
      omega
    · rw [split_solids, List.length_append] at hlen
      have hfour : (data'.drop (data'.length - 4)).length = 4 := by rw [hlast]; rfl
      have hall : ((data'.drop (data'.length - 4)).filter fun c => !ignore c).length =
          (data'.drop (data'.length - 4)).length := by
        have hle := List.length_filter_le (fun c => !ignore c) (data'.drop (data'.length - 4))
        omega
      simpa using List.length_filter_eq_length_iff.1 hall c hc
  · exact nomatch hdec

theorem decode_spaced (h : data.filter (fun c => !ignore c) = charValues (encode bs))
    (hne : bs ≠ []) (hlast : LastGroupUnbroken data) : decode data = some bs := by
  have hsolid : (dropIgnored data).filter (fun c => !ignore c) = charValues (encode bs) := by
    rw [filter_dropIgnored, h]
  rw [LastGroupUnbroken] at hlast
  rw [decode]
  generalize dropIgnored data = data' at hlast hsolid ⊢
  have hlen : (data'.filter fun c => !ignore c).length = (bs.length + 2) / 3 * 4 := by
    rw [hsolid, length_encode]
  have hle : (data'.filter fun c => !ignore c).length ≤ data'.length := List.length_filter_le _ _
  have hsplit := split_solids data'
  have hpos : 0 < bs.length := List.length_pos_iff.2 hne
  obtain ⟨front, tail, rfl, h3, h0, htail, hvalues⟩ := exists_split hne
  obtain ⟨c₁, c₂, c₃, c₄, hchars, hblock⟩ := decodeLastBlock_encode h0 htail
  have hdrop : (data'.drop (data'.length - 4)).filter (fun c => !ignore c) =
      data'.drop (data'.length - 4) := by
    refine List.filter_eq_self.2 fun c hc => ?_
    rw [hlast c hc]
    rfl
  have hfour : (data'.drop (data'.length - 4)).length = [c₁, c₂, c₃, c₄].length := by
    rw [List.length_drop]
    simp only [List.length_cons, List.length_nil]
    omega
  rw [hsolid, hvalues, hchars, hdrop] at hsplit
  obtain ⟨hfront, hgroup⟩ := List.append_inj' hsplit hfour.symm
  have h4 : 4 ∣ (toDigits front).length := by
    rw [length_toDigits]
    omega
  have hloop := decodeLoop_letters h4 lt_of_mem_toDigits (Nat.le_refl _)
    (Nat.sub_le data'.length 4) hfront.symm
  rw [← hgroup]
  simp only [hloop, ofDigits_toDigits, hblock, Option.bind_eq_bind, Option.bind_some]

/-- **What comes back from a spaced text.** Of a text that has white space somewhere in the encoding
of some bytes, `decode` gives these bytes exactly if there are any and the last group is
unbroken. -/
theorem decode_spaced_iff (h : data.filter (fun c => !ignore c) = charValues (encode bs)) :
    decode data = some bs ↔ bs ≠ [] ∧ LastGroupUnbroken data :=
  ⟨lastGroup_of_decode h, fun hdata => decode_spaced h hdata.1 hdata.2⟩

/-- Spaces within the groups and line ends behind them. -/
theorem decode_spaced_base : decode (charValues "QmF\n zZQ==\r\n".toList) =
    some [0x42, 0x61, 0x73, 0x65] :=
  (decode_spaced_iff (by decide)).2 ⟨by decide, by decide⟩

end Spaced

theorem ignore_encode (bs : List UInt8) : ∀ c ∈ charValues (encode bs), ignore c = false := by
  intro c hc
  rw [charValues_encode, List.mem_append, List.mem_map] at hc
  rcases hc with ⟨d, hd, rfl⟩ | hc
  · exact ignore_letter (lt_of_mem_toDigits d hd)
  · rw [List.eq_of_mem_replicate hc]
    decide

/-- **What is encoded is decoded**, unless it is nothing. -/
theorem decode_encode {bs : List UInt8} (h : bs ≠ []) :
    decode (charValues (encode bs)) = some bs := by
  have hsolid := ignore_encode bs
  refine decode_spaced (List.filter_eq_self.2 fun c hc => ?_) h fun c hc => hsolid c ?_
  · rw [hsolid c hc]
    rfl
  · have hmem := List.mem_of_mem_drop hc
    rw [dropIgnored, List.mem_reverse] at hmem
    exact List.mem_reverse.1 ((List.dropWhile_sublist _).subset hmem)

/-- Whatever is decoded has a byte. -/
theorem decode_ne_nil {data : List Nat} {bs : List UInt8} (h : decode data = some bs) :
    bs ≠ [] := by
  rw [decode] at h
  split at h
  · obtain ⟨out, -, h⟩ := Option.bind_eq_some_iff.1 h
    obtain ⟨last, hblock, h⟩ := Option.bind_eq_some_iff.1 h
    have hlast := decodeLastBlock_length hblock
    rintro rfl
    have hnil := (List.append_eq_nil_iff.1 (Option.some.inj h)).2
    rw [hnil] at hlast
    exact absurd hlast (by decide)
  · exact nomatch h

end PortVpn.Keystore
