import PortVpn.Lib.UniqueReading

/-!
# IPv6 addresses as text

The text forms: eight groups of one to four hexadecimal digits with colons between them; a pair of
colons, at most once, for one or more groups of zeros; and for the last two groups the four decimal
bytes of an IPv4 address. `parse` reads a text, `hexGroups` writes groups without leading zeros, and
the lemmas say what `parse` makes of what `hexGroups` writes, alone (`parse_hexGroups`) or with a
pair of colons behind it (`parse_hexGroups_colons`).
-/

set_option autoImplicit false

namespace PortVpn.Lib.IPv6Text

def hexDigit (c : Char) : Option Nat :=
  if '0' ≤ c ∧ c ≤ '9' then some (c.toNat - 48)
  else if 'a' ≤ c ∧ c ≤ 'f' then some (c.toNat - 87)
  else if 'A' ≤ c ∧ c ≤ 'F' then some (c.toNat - 55)
  else none

/-- One to four hexadecimal digits. -/
def parseGroup (t : Text) : Option Nat :=
  if t = [] ∨ 4 < t.length then none
  else t.foldlM (fun n c => (hexDigit c).map (16 * n + ·)) 0

/-- A byte in decimal. -/
def parseByte (t : Text) : Option Nat :=
  if t = [] ∨ 3 < t.length ∨ !t.all Char.isDigit then none
  else
    let n := Nat.ofDigitChars 10 t 0
    if n < 256 then some n else none

/-- An IPv4 address, as two groups. -/
def parseDotted (t : Text) : Option (List Nat) :=
  match (t.splitOn '.').mapM parseByte with
  | some [a, b, c, d] => some [256 * a + b, 256 * c + d]
  | _ => none

/-- Groups that were separated by colons; the last of the text may be an IPv4 address. -/
def parseParts (atEnd : Bool) : List Text → Option (List Nat)
  | [] => some []
  | [last] =>
      if atEnd && last.contains '.' then parseDotted last else (parseGroup last).map fun g => [g]
  | t :: ts => do
      let g ← parseGroup t
      let gs ← parseParts atEnd ts
      some (g :: gs)

/-- No group, or groups with colons between them. -/
def parseGroups (atEnd : Bool) (t : Text) : Option (List Nat) :=
  if t = [] then some [] else parseParts atEnd (t.splitOn ':')

/-- The parts of a text around its first pair of colons. -/
def cut : Text → Option (Text × Text)
  | [] => none
  | [_] => none
  | c :: d :: t =>
      if c = ':' ∧ d = ':' then some ([], t) else (cut (d :: t)).map fun p => (c :: p.1, p.2)

/-- The number with these groups, the first one first. -/
def value (gs : List Nat) : Nat := gs.foldl (fun n g => 2 ^ 16 * n + g) 0

/-- The address that a text stands for; `none` if it is no IPv6 address. -/
def parse (t : Text) : Option Nat :=
  match cut t with
  | none => do
      let gs ← parseGroups true t
      if gs.length = 8 then some (value gs) else none
  | some (before, behind) => do
      let gs ← parseGroups false before
      let hs ← parseGroups true behind
      if gs.length + hs.length < 8 then
        some (value (gs ++ List.replicate (8 - gs.length - hs.length) 0 ++ hs))
      else none

example : parse "2001:DB8::8:800:200c:417a".toList = some 0x20010db80000000000080800200c417a := by
  decide +kernel

example : parse "::FFFF:129.144.52.38".toList = some 0xffff81903426 := by decide +kernel

example : ["1:2:3:4:5:6:7".toList, "1::2::3".toList, ":1".toList, "12345::".toList].map parse =
    [none, none, none, none] := by decide +kernel

/-! ## Groups -/

/-- Groups in hexadecimal, with colons between them. -/
def hexGroups (gs : List Nat) : Text := [':'].intercalate (gs.map (Nat.toDigits 16))

theorem hexDigit_digitChar {d : Nat} (h : d < 16) : hexDigit (Nat.digitChar d) = some d := by
  have hall : ∀ d < 16, hexDigit (Nat.digitChar d) = some d := by decide
  exact hall d h

/-- A group without leading zeros is read back. -/
theorem parseGroup_toDigits {g : Nat} (h : g < 2 ^ 16) :
    parseGroup (Nat.toDigits 16 g) = some g := by
  have hfold : ∀ n : Nat,
      (Nat.toDigits 16 n).foldlM (fun n c => (hexDigit c).map (16 * n + ·)) 0 = some n := by
    intro n
    induction n using Nat.base_induction 16 (by decide) with
    | single m hm =>
        rw [Nat.toDigits_of_lt_base hm, List.foldlM_cons, hexDigit_digitChar hm]
        simp
    | digit m k hk hm ih =>
        rw [← Nat.toDigits_append_toDigits (by decide) hm hk, List.foldlM_append, ih,
          Nat.toDigits_of_lt_base hk]
        simp [List.foldlM_cons, hexDigit_digitChar hk]
  have hlen : (Nat.toDigits 16 g).length ≤ 4 :=
    (Nat.length_toDigits_le_iff (by decide) (by decide)).2 h
  rw [parseGroup, if_neg (not_or.2 ⟨Nat.toDigits_ne_nil, by omega⟩)]
  exact hfold g

theorem parseParts_toDigits {gs : List Nat} (h : ∀ g ∈ gs, g < 2 ^ 16) (atEnd : Bool) :
    parseParts atEnd (gs.map (Nat.toDigits 16)) = some gs := by
  induction gs with
  | nil => rfl
  | cons g gs ih =>
      obtain ⟨hg, hgs⟩ := List.forall_mem_cons.1 h
      have hdot : '.' ∉ Nat.toDigits 16 g := by
        intro hmem
        exact absurd (mem_toDigits hmem) (by decide)
      cases gs with
      | nil => simp [parseParts, hdot, parseGroup_toDigits hg]
      | cons g' gs =>
          rw [List.map_cons, List.map_cons, parseParts, parseGroup_toDigits hg, ← List.map_cons,
            ih hgs]
          · rfl
          · simp

theorem colon_notMem_toDigits (g : Nat) : ':' ∉ Nat.toDigits 16 g :=
  fun h => absurd (mem_toDigits h) (by decide)

/-- **Groups are read back.** -/
theorem parseGroups_hexGroups {gs : List Nat} (h : ∀ g ∈ gs, g < 2 ^ 16) (atEnd : Bool) :
    parseGroups atEnd (hexGroups gs) = some gs := by
  cases gs with
  | nil => rfl
  | cons g gs =>
      have hsplit : (hexGroups (g :: gs)).splitOn ':' = (g :: gs).map (Nat.toDigits 16) := by
        apply List.splitOn_intercalate
        · intro t ht
          obtain ⟨g', -, rfl⟩ := List.mem_map.1 ht
          exact colon_notMem_toDigits g'
        · simp
      have hne : hexGroups (g :: gs) ≠ [] := by
        intro hnil
        rw [hnil] at hsplit
        have hfirst := (List.cons.inj hsplit).1
        exact Nat.toDigits_ne_nil hfirst.symm
      rw [parseGroups, if_neg hne, hsplit]
      exact parseParts_toDigits h atEnd

/-! ## The pair of colons -/

theorem cut_append {a t : Text} (ha : ':' ∉ a) :
    cut (a ++ t) = (cut t).map fun p => (a ++ p.1, p.2) := by
  induction a with
  | nil => simp
  | cons c a ih =>
      rw [List.mem_cons, not_or] at ha
      have hcut : ∀ u : Text, cut (c :: u) = (cut u).map fun p => (c :: p.1, p.2) := by
        intro u
        cases u with
        | nil => rfl
        | cons d u =>
            rw [cut, if_neg]
            exact fun h => ha.1 h.1.symm
      rw [List.cons_append, hcut, ih ha.2, Option.map_map]
      rfl

/-- No pair of colons ends in front of a text that does not begin with one. -/
theorem cut_colon {t : Text} (h : t.head? ≠ some ':') :
    cut (':' :: t) = (cut t).map fun p => (':' :: p.1, p.2) := by
  cases t with
  | nil => rfl
  | cons d t =>
      rw [cut, if_neg]
      intro hd
      exact h (by rw [hd.2]; rfl)

theorem head?_hexGroups_append {gs : List Nat} (h : gs ≠ []) (t : Text) :
    (hexGroups gs ++ t).head? ≠ some ':' := by
  cases gs with
  | nil => exact absurd rfl h
  | cons g gs =>
      obtain ⟨c, u, hu⟩ := List.exists_cons_of_ne_nil (Nat.toDigits_ne_nil (n := g) (b := 16))
      have hc : c ≠ ':' := by
        rintro rfl
        exact colon_notMem_toDigits g (by simp [hu])
      have hgroups : ∃ v, hexGroups (g :: gs) = c :: v := by
        cases gs with
        | nil => exact ⟨u, by simp [hexGroups, hu]⟩
        | cons g' gs =>
            refine ⟨u ++ ':' :: hexGroups (g' :: gs), ?_⟩
            rw [hexGroups, List.map_cons, List.intercalate_cons_of_ne_nil (by simp), hu]
            simp [hexGroups]
      obtain ⟨v, hv⟩ := hgroups
      rw [hv]
      simpa using hc

/-- Groups have no pair of colons. -/
theorem cut_hexGroups {gs : List Nat} (t : Text) (hne : gs ≠ []) :
    cut (hexGroups gs ++ t) = (cut t).map fun p => (hexGroups gs ++ p.1, p.2) := by
  induction gs with
  | nil => exact absurd rfl hne
  | cons g gs ih =>
      cases gs with
      | nil =>
          have hone : hexGroups [g] = Nat.toDigits 16 g := by simp [hexGroups]
          rw [hone]
          exact cut_append (colon_notMem_toDigits g)
      | cons g' gs =>
          have hcons : hexGroups (g :: g' :: gs) =
              Nat.toDigits 16 g ++ ':' :: hexGroups (g' :: gs) := by
            rw [hexGroups, List.map_cons, List.intercalate_cons_of_ne_nil (by simp)]
            simp [hexGroups]
          rw [hcons, List.append_assoc, List.cons_append, cut_append (colon_notMem_toDigits g),
            cut_colon (head?_hexGroups_append (by simp) t), ih (by simp), Option.map_map,
            Option.map_map]
          simp [Function.comp_def]

/-- **Groups alone** are an address when they are eight. -/
theorem parse_hexGroups {gs : List Nat} (h : ∀ g ∈ gs, g < 2 ^ 16) (hne : gs ≠ []) :
    parse (hexGroups gs) = if gs.length = 8 then some (value gs) else none := by
  have hcut : cut (hexGroups gs) = none := by
    have := cut_hexGroups [] hne
    rwa [List.append_nil] at this
  rw [parse, hcut]
  simp only [parseGroups_hexGroups h, Option.bind_eq_bind, Option.bind_some]

/-- **Groups and a pair of colons** are an address when they are fewer than eight; the groups of
zeros stand at its end. -/
theorem parse_hexGroups_colons {gs : List Nat} (h : ∀ g ∈ gs, g < 2 ^ 16) :
    parse (hexGroups gs ++ [':', ':']) =
      if gs.length < 8 then some (2 ^ (16 * (8 - gs.length)) * value gs) else none := by
  have hcut : cut (hexGroups gs ++ [':', ':']) = some (hexGroups gs, []) := by
    cases gs with
    | nil => rfl
    | cons g gs =>
        rw [cut_hexGroups _ (by simp)]
        simp [cut]
  have hzeros : ∀ k n : Nat, (List.replicate k 0).foldl (fun n g => 2 ^ 16 * n + g) n =
      2 ^ (16 * k) * n := by
    intro k
    induction k with
    | zero => intro n; simp
    | succ k ih =>
        intro n
        rw [List.replicate_succ, List.foldl_cons, ih, Nat.mul_succ, pow_add, Nat.add_zero,
          Nat.mul_assoc]
  have hvalue : value (gs ++ List.replicate (8 - gs.length) 0) =
      2 ^ (16 * (8 - gs.length)) * value gs := by
    rw [value, List.foldl_append, hzeros, ← value]
  have hnone : parseGroups true [] = some [] := rfl
  rw [parse, hcut]
  simp only [parseGroups_hexGroups h, hnone, Option.bind_eq_bind, Option.bind_some,
    List.length_nil, Nat.add_zero, Nat.sub_zero, List.append_nil, hvalue]

end PortVpn.Lib.IPv6Text
