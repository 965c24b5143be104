import Mathlib.Data.List.Infix
import PortVpn.Lib.JavaText

/-!
# Texts that can be read in one way only

A text is often put together from parts with nothing but markers and separators between them. The
lemmas say when the parts can be told from the whole: before a marker that does not overlap itself,
before a character that does not occur in the part, and in a list of parts joined by a separator.
-/

set_option autoImplicit false

namespace PortVpn.Lib

variable {α : Type}

/-- No part at the start of the marker is also at its end, so that the marker cannot overlap
itself. -/
def Borderless (m : List α) : Prop := ∀ e, e ≠ [] → e <+: m → e <:+ m → e = m

instance [DecidableEq α] (m : List α) : Decidable (Borderless m) :=
  decidable_of_iff (∀ e ∈ m.inits, e ≠ [] → e <:+ m → e = m) (by
    simp only [List.mem_inits, Borderless]
    exact forall_congr' fun e => ⟨fun h h₁ h₂ => h h₂ h₁, fun h h₁ h₂ => h h₂ h₁⟩)

section

variable {m a a' b b' : List α}

/-- The text in front of the first marker. -/
theorem eq_of_append_marker_of_prefix (hm : Borderless m) (ha' : ¬ m <:+: a') {d : List α}
    (hd : a' = a ++ d) (h : m ++ b = d ++ m ++ b') : d = [] := by
  by_contra hne
  have hpre : m <+: d ++ (m ++ b') := ⟨b, by rw [h, List.append_assoc]⟩
  rcases List.prefix_or_prefix_of_prefix hpre (List.prefix_append d _) with hmd | hdm
  · exact ha' (hd ▸ (hmd.isInfix.trans (List.suffix_append a d).isInfix))
  · obtain ⟨e, he⟩ := hdm
    have hrest : e ++ b = m ++ b' := by
      rw [← he, List.append_assoc, List.append_assoc] at h
      rw [List.append_cancel_left h, he]
    have hem : e <+: m := by
      refine List.prefix_of_prefix_length_le (List.prefix_append e b) ?_ ?_
      · rw [hrest]
        exact List.prefix_append m b'
      · rw [← he, List.length_append]
        omega
    have hlt : e.length < m.length := by
      have := List.length_pos_of_ne_nil hne
      rw [← he, List.length_append]
      omega
    by_cases hnil : e = []
    · rw [hnil, List.append_nil] at he
      exact ha' (hd ▸ he ▸ (List.suffix_append a d).isInfix)
    · rw [hm e hnil hem ⟨d, he⟩] at hlt
      exact absurd hlt (lt_irrefl _)

/-- **Two texts around a marker** are the same when their first parts do not contain it. -/
theorem append_marker_inj (hm : Borderless m) (ha : ¬ m <:+: a) (ha' : ¬ m <:+: a')
    (h : a ++ m ++ b = a' ++ m ++ b') : a = a' ∧ b = b' := by
  have heq : a = a' := by
    rw [List.append_assoc, List.append_assoc] at h
    rcases List.append_eq_append_iff.1 h with ⟨d, hd, hrest⟩ | ⟨d, hd, hrest⟩
    · rw [← List.append_assoc] at hrest
      rw [hd, eq_of_append_marker_of_prefix hm ha' hd hrest, List.append_nil]
    · rw [← List.append_assoc] at hrest
      rw [hd, eq_of_append_marker_of_prefix hm ha hd hrest, List.append_nil]
  subst heq
  exact ⟨rfl, List.append_cancel_left h⟩

/-- Two texts around a character that their first parts do not contain. -/
theorem append_cons_inj {x : α} (ha : x ∉ a) (ha' : x ∉ a') (h : a ++ x :: b = a' ++ x :: b') :
    a = a' ∧ b = b' := by
  refine append_marker_inj (m := [x]) ?_ ?_ ?_ (by simpa using h)
  · intro e hne hpre _
    exact hpre.eq_of_length_le (List.length_pos_of_ne_nil hne)
  · rwa [List.singleton_infix_iff]
  · rwa [List.singleton_infix_iff]

/-- Two texts around a character that their last parts do not contain. -/
theorem append_cons_inj_last {x : α} (hb : x ∉ b) (hb' : x ∉ b')
    (h : a ++ x :: b = a' ++ x :: b') : a = a' ∧ b = b' := by
  have hrev := congrArg List.reverse h
  simp only [List.reverse_append, List.reverse_cons, List.append_assoc,
    List.singleton_append] at hrev
  obtain ⟨hbb, haa⟩ := append_cons_inj (mt List.mem_reverse.1 hb) (mt List.mem_reverse.1 hb') hrev
  exact ⟨List.reverse_injective haa, List.reverse_injective hbb⟩

/-- A marker without the separator lies on one side of it. -/
theorem infix_append_cons {x : α} (hx : x ∉ m) (h : m <:+: a ++ x :: b) : m <:+: a ∨ m <:+: b := by
  rw [List.infix_append_iff] at h
  rcases h with h | h | ⟨s, t, rfl, hs, ht⟩
  · exact .inl h
  · rcases List.infix_cons_iff.1 h with h | h
    · cases m with
      | nil => exact .inl (List.nil_infix)
      | cons y m =>
          obtain ⟨rfl, -⟩ := List.cons_prefix_cons.1 h
          exact absurd List.mem_cons_self hx
    · exact .inr h
  · cases t with
    | nil =>
        rw [List.append_nil]
        exact .inl hs.isInfix
    | cons y t =>
        obtain ⟨rfl, -⟩ := List.cons_prefix_cons.1 ht
        exact absurd (List.mem_append_right s List.mem_cons_self) hx

end

section

variable {x : α} {l l' : List (List α)}

theorem not_infix_intercalate {m : List α} (hm : m ≠ []) (hx : x ∉ m)
    (h : ∀ t ∈ l, ¬ m <:+: t) : ¬ m <:+: [x].intercalate l := by
  induction l with
  | nil =>
      intro hinf
      exact hm (List.infix_nil.1 hinf)
  | cons t l ih =>
      cases l with
      | nil =>
          rw [List.intercalate_singleton]
          exact h t List.mem_cons_self
      | cons t' l =>
          rw [List.intercalate_cons_cons, List.append_assoc, List.singleton_append]
          intro hinf
          rcases infix_append_cons hx hinf with hinf | hinf
          · exact h t List.mem_cons_self hinf
          · exact ih (fun t ht => h t (List.mem_cons_of_mem _ ht)) hinf

theorem intercalate_eq_nil (h : ∀ t ∈ l, t ≠ []) (hnil : [x].intercalate l = []) : l = [] := by
  cases l with
  | nil => rfl
  | cons t l =>
      exfalso
      cases l with
      | nil =>
          rw [List.intercalate_singleton] at hnil
          exact h t List.mem_cons_self hnil
      | cons t' l =>
          rw [List.intercalate_cons_cons] at hnil
          simp at hnil

/-- **Parts joined by a separator** that none of them contains, when none of them is empty. -/
theorem intercalate_inj [DecidableEq α] (h : ∀ t ∈ l, t ≠ [] ∧ x ∉ t)
    (h' : ∀ t ∈ l', t ≠ [] ∧ x ∉ t) (heq : [x].intercalate l = [x].intercalate l') : l = l' := by
  by_cases hl : l = []
  · subst hl
    exact (intercalate_eq_nil (fun t ht => (h' t ht).1) heq.symm).symm
  · by_cases hl' : l' = []
    · subst hl'
      exact intercalate_eq_nil (fun t ht => (h t ht).1) heq
    · rw [← List.splitOn_intercalate x (fun t ht => (h t ht).2) hl, heq,
        List.splitOn_intercalate x (fun t ht => (h' t ht).2) hl']

end

/-! ## Numbers -/

theorem digitChar_inj {m n : Nat} (hm : m < 16) (hn : n < 16) (h : m.digitChar = n.digitChar) :
    m = n := by
  have hall : ∀ m < 16, ∀ n < 16, m.digitChar = n.digitChar → m = n := by decide
  exact hall m hm n hn h

/-- A number is the value of its digits. -/
theorem toDigits_inj {b : Nat} (hb : 1 < b) (hb' : b ≤ 16) {m n : Nat}
    (h : Nat.toDigits b m = Nat.toDigits b n) : m = n := by
  induction m using Nat.strong_induction_on generalizing n with
  | _ m ih =>
      have hpos : ∀ k, k % b < 16 := fun k => (Nat.mod_lt k (by omega)).trans_le hb'
      rw [Nat.toDigits_eq_if hb, Nat.toDigits_eq_if hb (n := n)] at h
      have hsingle : ∀ k c c', [c] = Nat.toDigits b k ++ [c'] → False := by
        intro k c c' hk
        have hlen := congrArg List.length hk
        have := Nat.length_toDigits_pos (b := b) (n := k)
        simp only [List.length_singleton, List.length_append] at hlen
        omega
      split at h
      · split at h
        · exact digitChar_inj (by omega) (by omega) (List.singleton_inj.1 h)
        · exact (hsingle _ _ _ h).elim
      · split at h
        · exact (hsingle _ _ _ h.symm).elim
        · obtain ⟨hq, hr⟩ := List.append_inj' h rfl
          have hquot := ih (m / b) (Nat.div_lt_self (by omega) hb) hq
          have hrem := digitChar_inj (hpos m) (hpos n) (List.singleton_inj.1 hr)
          rw [← Nat.div_add_mod m b, hquot, hrem, Nat.div_add_mod]

theorem mem_toDigits {n : Nat} {c : Char} (h : c ∈ Nat.toDigits 16 n) :
    c ∈ "0123456789abcdef".toList := by
  have hall : ∀ d < 16, d.digitChar ∈ "0123456789abcdef".toList := by decide
  induction n using Nat.strong_induction_on with
  | _ n ih =>
      rw [Nat.toDigits_eq_if (by omega)] at h
      split at h
      · rw [List.mem_singleton.1 h]
        exact hall n (by omega)
      · rcases List.mem_append.1 h with h | h
        · exact ih (n / 16) (Nat.div_lt_self (by omega) (by omega)) h
        · rw [List.mem_singleton.1 h]
          exact hall _ (Nat.mod_lt n (by omega))

theorem mem_decimal {n : Int} {c : Char} (h : c ∈ decimal n) : c = '-' ∨ c.isDigit := by
  cases n with
  | ofNat n => exact .inr (Nat.isDigit_of_mem_toDigits (by omega) (by omega) h)
  | negSucc n =>
      rcases List.mem_cons.1 h with h | h
      · exact .inl h
      · exact .inr (Nat.isDigit_of_mem_toDigits (by omega) (by omega) h)

theorem decimal_ne_nil (n : Int) : decimal n ≠ [] := by
  cases n with
  | ofNat n => exact Nat.toDigits_ne_nil
  | negSucc n => exact List.cons_ne_nil _ _

theorem decimal_inj {m n : Int} (h : decimal m = decimal n) : m = n := by
  have hminus : ∀ k l, Nat.toDigits 10 k = '-' :: l → False := by
    intro k l hk
    have hd := Nat.isDigit_of_mem_toDigits (b := 10) (n := k) (c := '-') (by omega) (by omega)
      (by rw [hk]; exact List.mem_cons_self)
    exact absurd hd (by decide)
  cases m with
  | ofNat m =>
      cases n with
      | ofNat n => rw [toDigits_inj (by omega) (by omega) h]
      | negSucc n => exact (hminus _ _ h).elim
  | negSucc m =>
      cases n with
      | ofNat n => exact (hminus _ _ h.symm).elim
      | negSucc n =>
          have := toDigits_inj (by omega) (by omega) (List.cons.inj h).2
          simp only [Int.negSucc.injEq]
          omega

end PortVpn.Lib
