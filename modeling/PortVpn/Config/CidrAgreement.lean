import PortVpn.Config.RouteImport
import PortVpn.Net.MostSpecificRoute
import PortVpn.Net.NetworkText

/-!
# Three computations with prefixes

The constructor of `CIDRIP` counts the zeros of a netmask, `cidrToIPAndNetmask` shifts a netmask
into place, `normalise` takes the `&` with one, and `getMaskedAddress` clears one bit after the
other. They mean the same prefix for all addresses and netmasks of 32 bits, but `normalise` writes
what it clears in the default locale and `getIPv4Address` in `Locale.US`. `cidr_agree_iff` says when
the texts are the same.
-/

set_option autoImplicit false

namespace PortVpn.Config

open PortVpn.Lib
open PortVpn.Net

/-- Four fields from 0 to 255. -/
structure DottedQuad where
  a : UInt8
  b : UInt8
  c : UInt8
  d : UInt8
  deriving DecidableEq, Repr

namespace DottedQuad

def text (q : DottedQuad) : Text :=
  decimal q.a.toNat ++ '.' :: (decimal q.b.toNat ++ '.' ::
    (decimal q.c.toNat ++ '.' :: decimal q.d.toNat))

/-- The 32 bits that the fields stand for. -/
def value (q : DottedQuad) : Int :=
  q.a.toNat * 2 ^ 24 + q.b.toNat * 2 ^ 16 + q.c.toNat * 2 ^ 8 + q.d.toNat

/-- The value with all bits behind the first `n` cleared. -/
def cleared (q : DottedQuad) (n : Nat) : Int := q.value / 2 ^ (32 - n) * 2 ^ (32 - n)

variable (q : DottedQuad)

theorem value_range : 0 ≤ q.value ∧ q.value < 2 ^ 32 := by
  have ha := q.a.toNat_lt
  have hb := q.b.toNat_lt
  have hc := q.c.toNat_lt
  have hd := q.d.toNat_lt
  rw [value]
  omega

theorem cleared_range (n : Nat) : 0 ≤ q.cleared n ∧ q.cleared n ≤ q.value := by
  obtain ⟨hlow, -⟩ := q.value_range
  have hpos : (0 : Int) < 2 ^ (32 - n) := by positivity
  rw [cleared]
  constructor
  · exact Int.mul_nonneg (Int.ediv_nonneg hlow hpos.le) hpos.le
  · exact Int.ediv_mul_le _ hpos.ne'

theorem cleared_cleared (n : Nat) :
    q.cleared n / 2 ^ (32 - n) * 2 ^ (32 - n) = q.cleared n := by
  have hpos : (0 : Int) < 2 ^ (32 - n) := by positivity
  rw [cleared, Int.mul_ediv_cancel _ hpos.ne']

/-- The fields are the bytes of the value. -/
theorem text_eq_dotted : q.text = CIDRIP.dotted .us q.value := by
  obtain ⟨hlow, hhigh⟩ := q.value_range
  have ha := q.a.toNat_lt
  have hb := q.b.toNat_lt
  have hc := q.c.toNat_lt
  have hd := q.d.toNat_lt
  have hfields : q.value / 2 ^ 24 = q.a.toNat ∧ q.value / 2 ^ 16 % 256 = q.b.toNat ∧
      q.value / 2 ^ 8 % 256 = q.c.toNat ∧ q.value % 256 = q.d.toNat := by
    rw [value]
    omega
  obtain ⟨h₁, h₂, h₃, h₄⟩ := hfields
  rw [CIDRIP.dotted_eq .us (by omega) (by omega), h₁, h₂, h₃, h₄, text]
  simp only [LocaleDigits.us_decimal]

theorem getIntOf_text : CIDRIP.getIntOf q.text = some q.value := by
  obtain ⟨hlow, hhigh⟩ := q.value_range
  rw [text_eq_dotted]
  exact CIDRIP.getIntOf_dotted .us (by omega) (by omega)

theorem oneToken_text : OneToken q.text := by
  have hdecimal : ∀ z : Int, ∀ c ∈ decimal z, c ≠ '/' ∧ c ≠ ' ' ∧ c ≠ '\t' ∧ c ≠ '\n' := by
    intro z c hc
    have hsign : '-' ≠ '/' ∧ '-' ≠ ' ' ∧ '-' ≠ '\t' ∧ '-' ≠ '\n' := by decide
    rcases mem_decimal hc with rfl | hdigit
    · exact hsign
    · refine ⟨?_, ?_, ?_, ?_⟩ <;> rintro rfl <;> exact absurd hdigit (by decide)
  have hdot : '.' ≠ '/' ∧ '.' ≠ ' ' ∧ '.' ≠ '\t' ∧ '.' ≠ '\n' := by decide
  intro c hc
  simp only [text, List.mem_append, List.mem_cons] at hc
  rcases hc with h | rfl | h | rfl | h | rfl | h
  · exact hdecimal _ c h
  · exact hdot
  · exact hdecimal _ c h
  · exact hdot
  · exact hdecimal _ c h
  · exact hdot
  · exact hdecimal _ c h

end DottedQuad

/-! ## The agreement -/

/-- The length that the constructor of `CIDRIP` reads off a netmask. -/
theorem ofMask_text (ip mask : DottedQuad) :
    ∃ len, CIDRIP.ofMask ip.text mask.text = some ⟨ip.text, len⟩ ∧
      (∀ n ≤ 32, mask.value = CIDRIP.maskOf n → len = n) ∧
      ((∀ n ≤ 32, mask.value ≠ CIDRIP.maskOf n) → len = 32) := by
  obtain ⟨hlow, hhigh⟩ := mask.value_range
  have hread := mask.getIntOf_text
  obtain ⟨c, hc⟩ := Option.isSome_iff_exists.1
    (CIDRIP.ofMask_isSome hread (by omega) ip.text)
  obtain ⟨hip, -, -, -⟩ := CIDRIP.ofMask_len hc
  refine ⟨c.len, ?_, ?_, ?_⟩
  · rw [hc, ← hip]
  -- a contiguous mask is read as its length
  · intro n hn hvalue
    rw [hvalue] at hread
    rw [CIDRIP.ofMask_contiguous hn hread] at hc
    obtain rfl := Option.some.inj hc
    rfl
  · intro hnot
    rw [CIDRIP.ofMask_not_contiguous hread hlow hhigh hnot hc]

/-- What one prefix means for an address, in the default locale `l`. -/
structure Agrees (l : LocaleDigits) (ip : DottedQuad) (n : Nat) (changed : Bool)
    (normalised : CIDRIP) : Prop where
  normalise : CIDRIP.normalise l ⟨ip.text, n⟩ = some (changed, normalised)
  len : normalised.len = n
  getInt : normalised.getInt = some (ip.cleared n)
  changed_iff : changed = true ↔ ip.cleared n ≠ ip.value
  again : CIDRIP.normalise l normalised = some (false, normalised)
  getFirstAddress : ∀ included, ∃ a, IpAddress.ofCIDR ⟨ip.text, n⟩ included = some a ∧
    a.getFirstAddress = ip.cleared n
  printed : ∀ included, ∃ a, IpAddress.ofCIDR normalised included = some a ∧
    a.netAddress = ip.cleared n ∧ a.getFirstAddress = ip.cleared n ∧
      a.getIPv4Address = normalised.mIp

/-- The bits that are cleared one after the other are those behind the prefix. -/
theorem getFirstAddress_ofCIDR {text : Text} {x : Int} (hread : CIDRIP.getIntOf text = some x)
    {n : Nat} (hn : n ≤ 32) (included : Bool) :
    ∃ a, IpAddress.ofCIDR ⟨text, n⟩ included = some a ∧ a.netAddress = x ∧
      a.getFirstAddress = x / 2 ^ (32 - n) * 2 ^ (32 - n) := by
  refine ⟨⟨x, n, included, true⟩, ?_, rfl, ?_⟩
  · rw [IpAddress.ofCIDR, CIDRIP.getInt, hread]
    rfl
  · have hbits : (⟨x, n, included, true⟩ : IpAddress).numBits = 32 - n := by
      simp only [IpAddress.numBits, if_true]
      omega
    rw [IpAddress.getFirstAddress_eq, IpAddress.block, Block.first, hbits]

/-- A printed address is the text that `normalise` writes in `Locale.US`. -/
theorem getIPv4Address_eq_dotted {a : IpAddress} (hlow : 0 ≤ a.netAddress)
    (hhigh : a.netAddress < 2 ^ 32) : a.getIPv4Address = CIDRIP.dotted .us a.netAddress := by
  have hfirst : a.netAddress / 2 ^ 24 % 256 = a.netAddress / 2 ^ 24 := by omega
  rw [IpAddress.getIPv4Address_eq ⟨hlow, hhigh⟩, CIDRIP.dotted_eq .us (by omega) (by omega), hfirst]
  simp only [LocaleDigits.us_decimal]

theorem exists_agrees {l : LocaleDigits} {ip : DottedQuad} {n : Nat} (hn : n ≤ 32)
    (h : l.zeroDigit = '0' ∨ ip.cleared n = ip.value) :
    ∃ changed normalised, Agrees l ip n changed normalised := by
  obtain ⟨hlow, hhigh⟩ := ip.value_range
  obtain ⟨hclow, hchigh⟩ := ip.cleared_range n
  have hnormalise := CIDRIP.normalise_eq l ip.getIntOf_text hlow hhigh hn
  have hcleared : ip.value / 2 ^ (32 - n) * 2 ^ (32 - n) = ip.cleared n := rfl
  rw [hcleared] at hnormalise
  have hread : CIDRIP.getIntOf (CIDRIP.dotted l (ip.cleared n)) = some (ip.cleared n) :=
    CIDRIP.getIntOf_dotted l (by omega) (by omega)
  have hfirst : ∀ included, ∃ a, IpAddress.ofCIDR ⟨ip.text, n⟩ included = some a ∧
      a.getFirstAddress = ip.cleared n := by
    intro included
    obtain ⟨a, ha, -, haddress⟩ := getFirstAddress_ofCIDR ip.getIntOf_text hn included
    exact ⟨a, ha, haddress⟩
  -- the text of the cleared address is read and printed as that address
  have hprinted : ∀ {text}, CIDRIP.getIntOf text = some (ip.cleared n) →
      text = CIDRIP.dotted .us (ip.cleared n) → ∀ included,
        ∃ a, IpAddress.ofCIDR ⟨text, n⟩ included = some a ∧ a.netAddress = ip.cleared n ∧
          a.getFirstAddress = ip.cleared n ∧ a.getIPv4Address = text := by
    intro text hread htext included
    obtain ⟨a, ha, haddress, hagain⟩ := getFirstAddress_ofCIDR hread hn included
    refine ⟨a, ha, haddress, ?_, ?_⟩
    · rw [hagain, ip.cleared_cleared]
    · rw [getIPv4Address_eq_dotted (by omega) (by omega), haddress, htext]
  by_cases hchanged : ip.cleared n ≠ ip.value
  · rw [if_pos hchanged] at hnormalise
    have hus : CIDRIP.dotted l (ip.cleared n) = CIDRIP.dotted .us (ip.cleared n) :=
      (CIDRIP.dotted_eq_us_iff hclow (by omega)).2 (h.resolve_right hchanged)
    refine ⟨true, ⟨CIDRIP.dotted l (ip.cleared n), n⟩, ?_⟩
    constructor
    case normalise => exact hnormalise
    case len => rfl
    case getInt => exact hread
    case changed_iff => exact iff_of_true rfl hchanged
    case again =>
      rw [CIDRIP.normalise_eq l hread hclow (by omega) hn, ip.cleared_cleared,
        if_neg (not_not.2 rfl)]
    case getFirstAddress => exact hfirst
    case printed => exact hprinted hread hus
  · rw [if_neg hchanged] at hnormalise
    have hsame : ip.cleared n = ip.value := not_not.1 hchanged
    have hreadText : CIDRIP.getIntOf ip.text = some (ip.cleared n) := by
      rw [hsame]
      exact ip.getIntOf_text
    refine ⟨false, ⟨ip.text, n⟩, ?_⟩
    constructor
    case normalise => exact hnormalise
    case len => rfl
    case getInt => exact hreadText
    case changed_iff => exact iff_of_false Bool.false_ne_true hchanged
    case again => exact hnormalise
    case getFirstAddress => exact hfirst
    case printed =>
      apply hprinted hreadText
      rw [hsame, ip.text_eq_dotted]

/-- What is cleared is printed as it was written only with the digits from `0` on. -/
theorem Agrees.zeroDigit {l : LocaleDigits} {ip : DottedQuad} {n : Nat} {changed : Bool}
    {normalised : CIDRIP} (h : Agrees l ip n changed normalised) (hn : n ≤ 32)
    (hchanged : ip.cleared n ≠ ip.value) : l.zeroDigit = '0' := by
  obtain ⟨hlow, hhigh⟩ := ip.value_range
  obtain ⟨hclow, hchigh⟩ := ip.cleared_range n
  have hnormalise := h.normalise
  have hcleared : ip.value / 2 ^ (32 - n) * 2 ^ (32 - n) = ip.cleared n := rfl
  rw [CIDRIP.normalise_eq l ip.getIntOf_text hlow hhigh hn, hcleared, if_pos hchanged] at hnormalise
  have htext : CIDRIP.dotted l (ip.cleared n) = normalised.mIp :=
    congrArg (fun r => r.2.mIp) (Option.some.inj hnormalise)
  obtain ⟨a, -, haddress, -, hprinted⟩ := h.printed true
  rw [getIPv4Address_eq_dotted (by omega) (by omega), haddress, ← htext] at hprinted
  exact (CIDRIP.dotted_eq_us_iff hclow (by omega)).1 hprinted.symm

/-- **When the computations agree.** The constructor reads the length of a contiguous netmask and
takes every other netmask for the length 32, and the netmask that is written for a length is read
back as that length. A normalised address is the first address of the network, and its text is
printed exactly if the default locale writes digits from `0` on or nothing is cleared. -/
theorem cidr_agree_iff (l : LocaleDigits) (ip mask : DottedQuad) {n : Nat} (hn : n ≤ 32) :
    ((∃ len, CIDRIP.ofMask ip.text mask.text = some ⟨ip.text, len⟩ ∧
        (∀ k : Nat, k ≤ 32 → mask.value = 2 ^ 32 - 2 ^ (32 - k) → len = k) ∧
        ((∀ k : Nat, k ≤ 32 → mask.value ≠ 2 ^ 32 - 2 ^ (32 - k)) → len = 32)) ∧
      (∃ netmask, cidrToIPAndNetmask (ip.text ++ '/' :: decimal n) =
          some (ip.text ++ "  ".toList ++ netmask) ∧
        CIDRIP.ofMask ip.text netmask = some ⟨ip.text, n⟩) ∧
      ∃ changed normalised, Agrees l ip n changed normalised) ↔
    l.zeroDigit = '0' ∨ ip.cleared n = ip.value := by
  constructor
  · rintro ⟨-, -, changed, normalised, hagrees⟩
    by_cases hchanged : ip.cleared n = ip.value
    · exact .inr hchanged
    · exact .inl (hagrees.zeroDigit hn hchanged)
  · intro h
    refine ⟨ofMask_text ip mask, ⟨writtenMask n, ?_, ?_⟩, exists_agrees hn h⟩
    · exact cidrToIPAndNetmask_toText ip.oneToken_text hn
    · exact CIDRIP.ofMask_contiguous hn (writtenMask_facts hn).2 ip.text

/-- The digits that a locale of Egypt writes. -/
def arabicIndic : LocaleDigits := ⟨'\u0660', by decide⟩

/-- A network that has no bits to clear, in the locale of Egypt. -/
theorem cidr_agree_network :
    (8 : Nat) ≤ 32 ∧ ∃ changed normalised, Agrees arabicIndic ⟨10, 0, 0, 0⟩ 8 changed normalised :=
  ⟨by decide, ((cidr_agree_iff arabicIndic ⟨10, 0, 0, 0⟩ ⟨255, 0, 0, 0⟩ (by decide)).2
    (.inr (by decide))).2.2⟩

/-- **Other digits**: `10.1.2.3/8` is normalised to a text that `getIPv4Address` does not print. -/
theorem cidr_agree_counterexample :
    ¬ ∃ changed normalised, Agrees arabicIndic ⟨10, 1, 2, 3⟩ 8 changed normalised := by
  rintro ⟨changed, normalised, h⟩
  exact absurd (h.zeroDigit (by decide) (by decide)) (by decide)

end PortVpn.Config
