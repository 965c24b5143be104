import PortVpn.Lib.Rises
import PortVpn.Lib.UniqueReading
import PortVpn.Management.ProcessCommand
import Mathlib.Data.Int.ConditionallyCompleteOrder

/-!
# The byte counts over several processes

The process reports how many bytes it has received and sent since its start, and
`VpnStatus.updateByteCount` tells the listeners these counts and by how much they have risen. The
counts last told stay when the process ends, and the next process counts from zero again. Up to what
the last process had counted, the first count of a new one is then taken for no traffic: the
differences that the listeners are told add up to the traffic less what is missed there
(`differences_sum`).
-/

set_option autoImplicit false

namespace PortVpn.Management

open PortVpn.Lib

/-- A count that a `long` holds and that is not negative. -/
def IsCount (n : Int) : Prop := 0 ≤ n ∧ n < 2 ^ 63

/-- The byte counts that one process reports, received and sent, which never fall. -/
structure CountedProcess where
  first : Int × Int
  later : List (Int × Int)
  sorted : (first :: later).IsChain fun a b => a.1 ≤ b.1 ∧ a.2 ≤ b.2
  counts : ∀ r ∈ first :: later, IsCount r.1 ∧ IsCount r.2

namespace CountedProcess

def reports (p : CountedProcess) : List (Int × Int) := p.first :: p.later

def received (p : CountedProcess) : Counter Int where
  first := p.first.1
  later := p.later.map Prod.fst
  sorted := (List.isChain_map Prod.fst).2 (p.sorted.imp fun _ _ h => h.1)

def sent (p : CountedProcess) : Counter Int where
  first := p.first.2
  later := p.later.map Prod.snd
  sorted := (List.isChain_map Prod.snd).2 (p.sorted.imp fun _ _ h => h.2)

end CountedProcess

/-- The argument of a `>BYTECOUNT:` message. -/
def byteCountArgument (r : Int × Int) : Text := decimal r.1 ++ ',' :: decimal r.2

theorem IsCount.parseLong {n : Int} (h : IsCount n) : parseLong (decimal n) = some n :=
  parseSigned_decimal (le_trans (by norm_num) h.1) (Int.le_sub_one_of_lt h.2)

theorem splitLimit_byteCountArgument (r : Int × Int) :
    Session.splitLimit ',' 1 (byteCountArgument r) = [decimal r.1, decimal r.2] := by
  have hcomma : ∀ c ∈ decimal r.1, decide (c ≠ ',') = true := by
    intro c hc
    rcases mem_decimal hc with rfl | hdigit
    · rfl
    · exact decide_eq_true fun h => absurd (h ▸ hdigit) (by decide)
  rw [byteCountArgument, Session.splitLimit, List.dropWhile_append_of_pos hcomma,
    List.takeWhile_append_of_pos hcomma]
  simp [Session.splitLimit]

/-- The message is read as it was written. -/
theorem processByteCount_report (s : Session) {r : Int × Int} (h₁ : IsCount r.1)
    (h₂ : IsCount r.2) :
    s.processByteCount (byteCountArgument r) =
      { state := { s with status := s.status.updateByteCount r.1 r.2 } } := by
  rw [Session.processByteCount, splitLimit_byteCountArgument]
  simp only [h₁.parseLong, h₂.parseLong]

/-- The byte counts that the listeners are told in the course of messages. -/
def told (s : Session) : List Text → List ByteCount
  | [] => []
  | argument :: arguments =>
      let s' := (s.processByteCount argument).state
      s'.status.mlastByteCount :: told s' arguments

theorem max_wrap64_sub {m n : Int} (hm : IsCount m) (hn : IsCount n) :
    max 0 (wrap64 (n - m)) = max 0 (n - m) := by
  obtain ⟨hm₀, hm₁⟩ := hm
  obtain ⟨hn₀, hn₁⟩ := hn
  rw [wrap64_eq_self (by omega) (by omega)]

/-- The listeners are told how much the counts have risen. -/
theorem told_reports {reports : List (Int × Int)} (h : ∀ r ∈ reports, IsCount r.1 ∧ IsCount r.2) :
    ∀ {s : Session}, IsCount s.status.mlastByteCount.received →
      IsCount s.status.mlastByteCount.sent →
      (told s (reports.map byteCountArgument)).map ByteCount.diffIn =
        rises s.status.mlastByteCount.received (reports.map Prod.fst) ∧
      (told s (reports.map byteCountArgument)).map ByteCount.diffOut =
        rises s.status.mlastByteCount.sent (reports.map Prod.snd) := by
  induction reports with
  | nil => intro s _ _; exact ⟨rfl, rfl⟩
  | cons r reports ih =>
      intro s hreceived hsent
      obtain ⟨h₁, h₂⟩ := h r List.mem_cons_self
      have hrest := ih (fun r' hr' => h r' (List.mem_cons_of_mem _ hr'))
        (s := { s with status := s.status.updateByteCount r.1 r.2 }) h₁ h₂
      rw [List.map_cons, told]
      simp only [processByteCount_report s h₁ h₂]
      constructor
      · rw [List.map_cons, hrest.1]
        exact congrArg (· :: _) (max_wrap64_sub hreceived h₁)
      · rw [List.map_cons, hrest.2]
        exact congrArg (· :: _) (max_wrap64_sub hsent h₂)

/-- Nothing is missed exactly if each process first reports zero, or follows one that has counted
nothing. -/
theorem nothing_missed_iff (ps : List CountedProcess) :
    (Counter.missed 0 (ps.map CountedProcess.received) = 0 ↔
        ps.IsChain fun p next => p.received.last = 0 ∨ next.received.first = 0) ∧
      (Counter.missed 0 (ps.map CountedProcess.sent) = 0 ↔
        ps.IsChain fun p next => p.sent.last = 0 ∨ next.sent.first = 0) := by
  constructor
  · rw [Counter.missed_eq_zero_iff, List.isChain_map]
    intro c hc
    obtain ⟨p, -, rfl⟩ := List.mem_map.1 hc
    exact (p.counts p.first List.mem_cons_self).1.1
  · rw [Counter.missed_eq_zero_iff, List.isChain_map]
    intro c hc
    obtain ⟨p, -, rfl⟩ := List.mem_map.1 hc
    exact (p.counts p.first List.mem_cons_self).2.1

/-- **What the differences add up to.** Over all the processes since the application started, the
differences that the listeners are told are the whole traffic, less what is missed at the start of a
process: what it has counted when it first reports, or what the process before had counted in all, if
that is less. -/
theorem differences_sum (ps : List CountedProcess) :
    let counts := told {} ((ps.flatMap CountedProcess.reports).map byteCountArgument)
    (counts.map ByteCount.diffIn).sum =
        (ps.map fun p => p.received.last).sum - Counter.missed 0 (ps.map CountedProcess.received) ∧
      (counts.map ByteCount.diffOut).sum =
        (ps.map fun p => p.sent.last).sum - Counter.missed 0 (ps.map CountedProcess.sent) := by
  have hcounts : ∀ r ∈ ps.flatMap CountedProcess.reports, IsCount r.1 ∧ IsCount r.2 := by
    intro r hr
    obtain ⟨p, -, hp⟩ := List.mem_flatMap.1 hr
    exact p.counts r hp
  obtain ⟨hin, hout⟩ := told_reports hcounts (s := {}) ⟨le_refl 0, by decide⟩
    ⟨le_refl 0, by decide⟩
  have hreceived := Counter.sum_rises_counters (ps.map CountedProcess.received) 0
  have hsent := Counter.sum_rises_counters (ps.map CountedProcess.sent) 0
  rw [List.flatMap_map, List.map_map] at hreceived hsent
  refine ⟨?_, ?_⟩
  · rw [hin, List.map_flatMap]
    exact hreceived
  · rw [hout, List.map_flatMap]
    exact hsent

end PortVpn.Management
