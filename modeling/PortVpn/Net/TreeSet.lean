import Mathlib.Data.Prod.Lex
import PortVpn.Net.MostSpecificRoute

/-!
# The tree set of networks

`NetworkSpace` keeps its networks in a tree set ordered by `compareTo`, which looks at the first
address and the prefix length only. Of the networks that are equal for it, the set keeps the one that
was added first.
-/

set_option autoImplicit false

namespace PortVpn.Net

open PortVpn.Lib

namespace IpAddress

variable {a b c : IpAddress}

/-- What `compareTo` looks at; smaller networks come first. -/
def key (a : IpAddress) : Int ×ₗ Int := toLex (a.getFirstAddress, -a.networkMask)

theorem compareTo_eq_compare (a b : IpAddress) : a.compareTo b = compare a.key b.key := by
  unfold compareTo key
  generalize a.getFirstAddress = x
  generalize b.getFirstAddress = y
  rcases lt_trichotomy x y with h | rfl | h
  · rw [compare_lt_iff_lt.2 h]
    exact (compare_lt_iff_lt.2 (Prod.Lex.toLex_lt_toLex.2 (.inl h))).symm
  · rw [compare_eq_iff_eq.2 rfl]
    rcases lt_trichotomy a.networkMask b.networkMask with hm | hm | hm
    · have hlt : toLex (x, -b.networkMask) < toLex (x, -a.networkMask) :=
        Prod.Lex.toLex_lt_toLex.2 (.inr ⟨rfl, neg_lt_neg hm⟩)
      rw [compare_gt_iff_gt.2 hlt]
      simp [hm.not_gt, hm.ne']
    · rw [hm, compare_eq_iff_eq.2 rfl]
      simp
    · have hlt : toLex (x, -a.networkMask) < toLex (x, -b.networkMask) :=
        Prod.Lex.toLex_lt_toLex.2 (.inr ⟨rfl, neg_lt_neg hm⟩)
      rw [compare_lt_iff_lt.2 hlt]
      simp [hm]
  · rw [compare_gt_iff_gt.2 h]
    exact (compare_gt_iff_gt.2 (Prod.Lex.toLex_lt_toLex.2 (.inl h))).symm

theorem key_eq_iff :
    a.key = b.key ↔ a.getFirstAddress = b.getFirstAddress ∧ a.networkMask = b.networkMask := by
  rw [key, key, toLex_inj, Prod.mk.injEq, neg_inj]

end IpAddress

/-! ## Adding -/

section

variable {a b : IpAddress} {s : List IpAddress}

/-- The networks of a tree set in their order. -/
def Sorted (s : List IpAddress) : Prop := s.Pairwise fun a b => a.key < b.key

theorem treeAdd_cons :
    treeAdd a (b :: s) =
      if a.key < b.key then a :: b :: s else if a.key = b.key then b :: s else b :: treeAdd a s := by
  rw [treeAdd, IpAddress.compareTo_eq_compare]
  rcases lt_trichotomy a.key b.key with h | h | h
  · simp [compare_lt_iff_lt.2 h, h]
  · simp [h]
  · simp [compare_gt_iff_gt.2 h, h.not_gt, h.ne']

theorem mem_treeAdd (h : b ∈ treeAdd a s) : b = a ∨ b ∈ s := by
  induction s with
  | nil => exact .inl (List.mem_singleton.1 h)
  | cons c s ih =>
      rw [treeAdd_cons] at h
      split at h
      · exact List.mem_cons.1 h
      · split at h
        · exact .inr h
        · rcases List.mem_cons.1 h with rfl | h
          · exact .inr List.mem_cons_self
          · exact (ih h).imp_right (List.mem_cons_of_mem c)

theorem sorted_treeAdd (h : Sorted s) : Sorted (treeAdd a s) := by
  induction s with
  | nil => exact List.pairwise_singleton _ _
  | cons b s ih =>
      obtain ⟨hb, hs⟩ := List.pairwise_cons.1 h
      rw [treeAdd_cons]
      split
      · rename_i hab
        refine List.pairwise_cons.2 ⟨fun c hc => ?_, h⟩
        rcases List.mem_cons.1 hc with rfl | hc
        · exact hab
        · exact hab.trans (hb c hc)
      · rename_i hab
        split
        · exact h
        · rename_i hne
          refine List.pairwise_cons.2 ⟨fun c hc => ?_, ih hs⟩
          rcases mem_treeAdd hc with rfl | hc
          · exact lt_of_le_of_ne (not_lt.1 hab) (Ne.symm hne)
          · exact hb c hc

/-- A network that the set knows is not added. -/
theorem treeAdd_of_known (hs : Sorted s) (hb : b ∈ s) (h : a.key = b.key) : treeAdd a s = s := by
  induction s with
  | nil => exact absurd hb (List.not_mem_nil)
  | cons c s ih =>
      obtain ⟨hc, hs⟩ := List.pairwise_cons.1 hs
      rw [treeAdd_cons]
      rcases List.mem_cons.1 hb with rfl | hb
      · rw [if_neg h.not_lt, if_pos h]
      · have hlt := hc b hb
        rw [← h] at hlt
        rw [if_neg hlt.not_gt, if_neg hlt.ne', ih hs hb]

/-- A network that the set does not know is added. -/
theorem length_treeAdd (h : ∀ b ∈ s, a.key ≠ b.key) : (treeAdd a s).length = s.length + 1 := by
  induction s with
  | nil => rfl
  | cons b s ih =>
      rw [treeAdd_cons]
      split
      · rfl
      · rw [if_neg (h b List.mem_cons_self), List.length_cons,
          ih fun c hc => h c (List.mem_cons_of_mem b hc), List.length_cons]

theorem treeAdd_comm_of_lt (h : a.key < b.key) :
    treeAdd a (treeAdd b s) = treeAdd b (treeAdd a s) := by
  induction s with
  | nil =>
      rw [treeAdd, treeAdd, treeAdd_cons, treeAdd_cons, if_pos h, if_neg h.not_gt, if_neg h.ne']
      rfl
  | cons c s ih =>
      rw [treeAdd_cons, treeAdd_cons]
      rcases lt_trichotomy b.key c.key with hbc | hbc | hbc
      · simp [treeAdd_cons, h, h.not_gt, h.ne', hbc, h.trans hbc]
      · have hac : a.key < c.key := hbc ▸ h
        simp [treeAdd_cons, hbc, hac, hac.le, hac.ne']
      · rcases lt_trichotomy a.key c.key with hac | hac | hac
        · simp [treeAdd_cons, h.not_gt, h.ne', hac, hbc.not_gt, hbc.ne']
        · simp [treeAdd_cons, hac, hbc.not_gt, hbc.ne']
        · simp [treeAdd_cons, hac.not_gt, hac.ne', hbc.not_gt, hbc.ne', ih]

/-- Two networks can be added in any order, unless they are different and equal for the set. -/
theorem treeAdd_comm (h : a.key = b.key → a = b) :
    treeAdd a (treeAdd b s) = treeAdd b (treeAdd a s) := by
  rcases lt_trichotomy a.key b.key with hab | hab | hab
  · exact treeAdd_comm_of_lt hab
  · rw [h hab]
  · exact (treeAdd_comm_of_lt hab).symm

end

/-! ## What the set contains -/

/-- `TreeSet.contains`. -/
def treeContains (a : IpAddress) : List IpAddress → Bool
  | [] => false
  | b :: s =>
      match a.compareTo b with
      | .lt => false
      | .eq => true
      | .gt => treeContains a s

/-- A tree set stays what it is exactly if it contains the element that is added. -/
theorem treeAdd_eq_self_iff (a : IpAddress) (s : List IpAddress) :
    treeAdd a s = s ↔ treeContains a s := by
  induction s with
  | nil => simp [treeAdd, treeContains]
  | cons b s ih =>
      rw [treeAdd, treeContains]
      cases a.compareTo b with
      | lt =>
          have hlen : a :: b :: s ≠ b :: s := fun h => by
            have := congrArg List.length h
            simp at this
          simp [hlen]
      | eq => simp
      | gt => simpa using ih

/-- The routes contain the network, whichever way it is routed. -/
def NetworkSpace.Knows (s : NetworkSpace) (a : IpAddress) : Prop := treeContains a s.mIpAddresses

instance (s : NetworkSpace) (a : IpAddress) : Decidable (s.Knows a) :=
  inferInstanceAs (Decidable (_ = true))

theorem NetworkSpace.add_eq_self_iff {s : NetworkSpace} {a : IpAddress} :
    s.add a = s ↔ s.Knows a := by
  obtain ⟨mIpAddresses⟩ := s
  exact (NetworkSpace.mk.injEq _ _).to_iff.trans (treeAdd_eq_self_iff a mIpAddresses)

/-- The network of an address and its prefix, without the bits outside the prefix. -/
def CIDRIP.network (c : CIDRIP) (included : Bool) : Option IpAddress :=
  (c.normalise .us).bind fun r => IpAddress.ofCIDR r.2 included

/-- A network that is added is the same in every locale. -/
theorem addIP_normalise (l : LocaleDigits) (s : NetworkSpace) (c : CIDRIP) (included : Bool) :
    ((c.normalise l).bind fun r => s.addIP r.2 included) =
      (c.normalise .us).bind fun r => s.addIP r.2 included := by
  have hadd : ∀ o : Option (Bool × CIDRIP), (o.bind fun r => s.addIP r.2 included) =
      (o.map fun r => (r.1, r.2.getInt, r.2.len)).bind fun r =>
        r.2.1.map fun n => s.add ⟨n, r.2.2, included, true⟩ := by
    intro o
    cases o with
    | none => rfl
    | some r => simp [NetworkSpace.addIP, IpAddress.ofCIDR, Function.comp_def]
  rw [hadd, hadd, CIDRIP.normalise_locale l .us]

/-- Whether a network is known does not depend on the way it is routed. -/
theorem knows_included {s : NetworkSpace} (n len : Int) (i j v : Bool) :
    s.Knows ⟨n, len, i, v⟩ ↔ s.Knows ⟨n, len, j, v⟩ := by
  unfold NetworkSpace.Knows
  induction s.mIpAddresses with
  | nil => exact Iff.rfl
  | cons b l ih =>
      have hcompare : IpAddress.compareTo ⟨n, len, i, v⟩ b = IpAddress.compareTo ⟨n, len, j, v⟩ b :=
        rfl
      rw [treeContains, treeContains, hcompare]
      cases IpAddress.compareTo ⟨n, len, j, v⟩ b with
      | lt => exact Iff.rfl
      | eq => exact Iff.rfl
      | gt => exact ih

/-- Adding the network of an address fails if the address cannot be read, and otherwise changes
the routes unless they contain it. -/
theorem addNetwork_cases (s : NetworkSpace) (c : CIDRIP) (included : Bool) :
    (c.network true = none ∧ ((c.normalise .us).bind fun r => s.addIP r.2 included) = none) ∨
      ∃ a s', c.network true = some a ∧
        ((c.normalise .us).bind fun r => s.addIP r.2 included) = some s' ∧ (s' = s ↔ s.Knows a) := by
  rw [CIDRIP.network]
  cases c.normalise .us with
  | none => exact .inl ⟨rfl, rfl⟩
  | some r =>
      have hadd : ((some r).bind fun r => s.addIP r.2 included) =
          (r.2.getInt.map fun n => s.add ⟨n, r.2.len, included, true⟩) := by
        simp [NetworkSpace.addIP, IpAddress.ofCIDR, Function.comp_def]
      have hnet : ((some r).bind fun r => IpAddress.ofCIDR r.2 true) =
          r.2.getInt.map fun n => ⟨n, r.2.len, true, true⟩ := rfl
      rw [hadd, hnet]
      cases r.2.getInt with
      | none => exact .inl ⟨rfl, rfl⟩
      | some n =>
          refine .inr ⟨_, _, rfl, rfl, ?_⟩
          rw [NetworkSpace.add_eq_self_iff]
          exact knows_included n r.2.len included true true

end PortVpn.Net
