import Mathlib.Data.List.Nodup
import PortVpn.Lib.Machine

/-!
# The registry of management threads

Every `OpenVpnManagementThread` puts itself into the static vector `active` when its `run` method
starts, and `stopVPN` writes `signal SIGINT` to all that are there. `run` takes itself out after an
`IOException`, but returns from the middle of its loop when the stream ends, and is left by every
other exception; and the loop of `stopOpenVPN` keeps only the result of its last round.
`registry_exact_iff` says that these are the only steps at which the registry and the result of
`stopVPN` are not exact.
-/

set_option autoImplicit false

namespace PortVpn.Management

open PortVpn.Lib

universe u

/-- Progress of `run`: not called; in `accept`; in its loop; behind an `IOException`, before it
takes itself out of `active`; done. -/
inductive RunPc where
  | notStarted
  | accepting
  | reading
  | failed
  | finished
  deriving DecidableEq, Repr

/-- `mSocket`: null, connected, or closed by `stopOpenVPN`. -/
inductive SocketState where
  | null
  | connected
  | closed
  deriving DecidableEq, Repr

/-- What one instance has of its own. -/
structure ThreadFields where
  pc : RunPc := .notStarted
  mSocket : SocketState := .null
  mShuttingDown : Bool := false
  deriving DecidableEq, Repr

/-- The instances, and the static vector of the registered ones in the order of their
registration. -/
structure Registry (ι : Type u) where
  thread : ι → ThreadFields
  active : List ι

/-- What an instance does next, or a call of `stopVPN` with the instances whose sockets can be
written to. -/
inductive RegistryEvent (ι : Type u) where
  | run (mt : ι)
  | accept (mt : ι)
  | receive (mt : ι)
  | endOfStream (mt : ι)
  | ioException (mt : ι)
  | uncheckedException (mt : ι)
  | remove (mt : ι)
  | stopVPN (caller : ι) (writable : ι → Bool)

/-- What the world sees: the signal that is written to an instance's socket, and the result of
`stopVPN`. -/
inductive RegistryOut (ι : Type u) where
  | signalSIGINT (mt : ι)
  | stopSucceed (result : Bool)

namespace Registry

variable {ι : Type u} [DecidableEq ι]

/-- An instance changes its fields. -/
def update (s : Registry ι) (mt : ι) (fields : ThreadFields) : Registry ι :=
  { s with thread := fun i => if i = mt then fields else s.thread i }

def setPc (s : Registry ι) (mt : ι) (pc : RunPc) : Registry ι :=
  s.update mt { s.thread mt with pc := pc }

/-- `managmentCommand` for a socket that may be written to. -/
def managmentCommand (s : Registry ι) (mt : ι) (writable : ι → Bool) : Bool :=
  (s.thread mt).mSocket == .connected && writable mt

/-- `mt.mSocket.close()`, if there is a socket. -/
def closeSocket (s : Registry ι) (mt : ι) : Registry ι :=
  if (s.thread mt).mSocket = .null then s
  else s.update mt { s.thread mt with mSocket := .closed }

/-- The loop of `stopOpenVPN` over the instances that are left. -/
def stopLoop (writable : ι → Bool) :
    List ι → Registry ι → Bool → Registry ι × List (RegistryOut ι) × Bool
  | [], s, sendCMD => (s, [], sendCMD)
  | mt :: rest, s, _ =>
      let sendCMD := s.managmentCommand mt writable
      let r := stopLoop writable rest (s.closeSocket mt) sendCMD
      (r.1, (if sendCMD then [.signalSIGINT mt] else []) ++ r.2.1, r.2.2)

def stopOpenVPN (s : Registry ι) (writable : ι → Bool) :
    Registry ι × List (RegistryOut ι) × Bool :=
  stopLoop writable s.active s false

/-- `stopVPN` of the instance `caller`. -/
def stopVPN (s : Registry ι) (caller : ι) (writable : ι → Bool) :
    Registry ι × List (RegistryOut ι) :=
  let r := s.stopOpenVPN writable
  (if r.2.2 then r.1.update caller { r.1.thread caller with mShuttingDown := true } else r.1,
    r.2.1 ++ [.stopSucceed r.2.2])

/-- One event. -/
def step : Machine (Registry ι) (RegistryEvent ι) (RegistryOut ι) := fun s e =>
  match e with
  | .run mt =>
      if (s.thread mt).pc = .notStarted then
        some ({ s.setPc mt .accepting with active := s.active ++ [mt] }, [])
      else none
  | .accept mt =>
      if (s.thread mt).pc = .accepting then
        some (s.update mt { s.thread mt with pc := .reading, mSocket := .connected }, [])
      else none
  | .receive mt => if (s.thread mt).pc = .reading then some (s, []) else none
  -- the end of the stream leaves the thread in `active`
  | .endOfStream mt =>
      if (s.thread mt).pc = .reading then some (s.setPc mt .finished, []) else none
  | .ioException mt =>
      if (s.thread mt).pc = .accepting ∨ (s.thread mt).pc = .reading then
        some (s.setPc mt .failed, [])
      else none
  -- from a line or a socket, or from the catch block, whose exception may have no message
  | .uncheckedException mt =>
      if (s.thread mt).pc = .accepting ∨ (s.thread mt).pc = .reading ∨ (s.thread mt).pc = .failed then
        some (s.setPc mt .finished, [])
      else none
  -- behind the catch block one entry is taken out
  | .remove mt =>
      if (s.thread mt).pc = .failed then
        some ({ s.setPc mt .finished with active := s.active.erase mt }, [])
      else none
  | .stopVPN caller writable => some (s.stopVPN caller writable)

/-- Nothing has been started. -/
def init : Registry ι := ⟨fun _ => {}, []⟩

/-! ## The statement -/

/-- `run` has registered the instance and is not done. -/
def Running (s : Registry ι) (mt : ι) : Prop :=
  (s.thread mt).pc ≠ .notStarted ∧ (s.thread mt).pc ≠ .finished

/-- **The registry is exact.** -/
structure Exact (s : Registry ι) : Prop where
  nodup : s.active.Nodup
  mem_iff : ∀ mt, mt ∈ s.active ↔ s.Running mt

/-- Some instance of the registry gets the signal. -/
def Signalled (x : Step (Registry ι) (RegistryEvent ι) (RegistryOut ι)) : Prop :=
  ∃ mt ∈ x.pre.active, .signalSIGINT mt ∈ x.out

/-- **A step is exact** if it leaves an exact registry and a result of `stopVPN` says whether an
instance got the signal. -/
def StepExact (x : Step (Registry ι) (RegistryEvent ι) (RegistryOut ι)) : Prop :=
  x.post.Exact ∧ ∀ result, .stopSucceed result ∈ x.out → (result = true ↔ Signalled x)

/-- The conditions on a step: no stream ends, and no unchecked exception is thrown; and if any
instance can be signalled, then the one that registered last can. -/
def LastAnswers (x : Step (Registry ι) (RegistryEvent ι) (RegistryOut ι)) : Prop :=
  match x.label with
  | .endOfStream _ | .uncheckedException _ => False
  | .stopVPN _ writable =>
      (∃ mt ∈ x.pre.active, x.pre.managmentCommand mt writable) →
        ∃ mt, x.pre.active.getLast? = some mt ∧ x.pre.managmentCommand mt writable
  | _ => True

/-! ## The loop of `stopOpenVPN` -/

section Stop

variable {s : Registry ι} {mt i : ι} {writable : ι → Bool}

@[simp] theorem update_active (s : Registry ι) (mt : ι) (fields : ThreadFields) :
    (s.update mt fields).active = s.active := rfl

@[simp] theorem update_self (s : Registry ι) (mt : ι) (fields : ThreadFields) :
    (s.update mt fields).thread mt = fields := if_pos rfl

theorem update_of_ne (h : i ≠ mt) (fields : ThreadFields) :
    (s.update mt fields).thread i = s.thread i := if_neg h

theorem update_pc {fields : ThreadFields} (h : fields.pc = (s.thread mt).pc) (i : ι) :
    ((s.update mt fields).thread i).pc = (s.thread i).pc := by
  by_cases hi : i = mt
  · rw [hi, update_self, h]
  · rw [update_of_ne hi]

theorem closeSocket_active (s : Registry ι) (mt : ι) : (s.closeSocket mt).active = s.active := by
  rw [closeSocket]
  split
  · rfl
  · rfl

theorem closeSocket_pc (s : Registry ι) (mt i : ι) :
    ((s.closeSocket mt).thread i).pc = (s.thread i).pc := by
  rw [closeSocket]
  split
  · rfl
  · apply update_pc
    rfl

/-- Closing a socket leaves the other instances' sockets alone. -/
theorem managmentCommand_closeSocket (h : i ≠ mt) (writable : ι → Bool) :
    (s.closeSocket mt).managmentCommand i writable = s.managmentCommand i writable := by
  rw [closeSocket]
  split
  · rfl
  · rw [managmentCommand, update_of_ne h, managmentCommand]

/-- What the loop leaves alone. -/
theorem stopLoop_frame (writable : ι → Bool) (mts : List ι) (s : Registry ι) (sendCMD : Bool) :
    (stopLoop writable mts s sendCMD).1.active = s.active ∧
      ∀ i, ((stopLoop writable mts s sendCMD).1.thread i).pc = (s.thread i).pc := by
  induction mts generalizing s sendCMD with
  | nil => exact ⟨rfl, fun _ => rfl⟩
  | cons mt rest ih =>
      obtain ⟨hactive, hpc⟩ := ih (s.closeSocket mt) (s.managmentCommand mt writable)
      refine ⟨hactive.trans (closeSocket_active s mt), fun i => ?_⟩
      exact (hpc i).trans (closeSocket_pc s mt i)

/-- The loop signals every instance that can be signalled. -/
theorem mem_stopLoop (writable : ι → Bool) {mts : List ι} (hnodup : mts.Nodup) (s : Registry ι)
    (sendCMD : Bool) :
    (∀ i, .signalSIGINT i ∈ (stopLoop writable mts s sendCMD).2.1 ↔
      i ∈ mts ∧ s.managmentCommand i writable) ∧
    ∀ result, .stopSucceed result ∉ (stopLoop writable mts s sendCMD).2.1 := by
  induction mts generalizing s sendCMD with
  | nil => simp [stopLoop]
  | cons mt rest ih =>
      obtain ⟨hnot, hrest⟩ := List.nodup_cons.1 hnodup
      obtain ⟨hsignal, hresult⟩ := ih hrest (s.closeSocket mt) (s.managmentCommand mt writable)
      constructor
      · intro i
        have hhead : .signalSIGINT i ∈ (if s.managmentCommand mt writable then
            [RegistryOut.signalSIGINT mt] else []) ↔ i = mt ∧ s.managmentCommand mt writable := by
          split
          next hsend => simp [hsend]
          next hsend => simp [hsend]
        rw [stopLoop, List.mem_append, hhead, hsignal i, List.mem_cons]
        constructor
        · rintro (⟨rfl, hsend⟩ | ⟨hi, hsend⟩)
          · exact ⟨Or.inl rfl, hsend⟩
          · have hne : i ≠ mt := fun h => hnot (h ▸ hi)
            rw [managmentCommand_closeSocket hne] at hsend
            exact ⟨Or.inr hi, hsend⟩
        · rintro ⟨rfl | hi, hsend⟩
          · exact Or.inl ⟨rfl, hsend⟩
          · have hne : i ≠ mt := fun h => hnot (h ▸ hi)
            rw [managmentCommand_closeSocket hne]
            exact Or.inr ⟨hi, hsend⟩
      · intro result hmem
        rw [stopLoop, List.mem_append] at hmem
        rcases hmem with hmem | hmem
        · split at hmem
          · cases List.mem_singleton.1 hmem
          · cases hmem
        · exact hresult result hmem

/-- **Only the last round counts** for the result. -/
theorem stopLoop_result (writable : ι → Bool) {mts : List ι} (hnodup : mts.Nodup)
    (s : Registry ι) (sendCMD : Bool) :
    (stopLoop writable mts s sendCMD).2.2 =
      (mts.getLast?.map fun mt => s.managmentCommand mt writable).getD sendCMD := by
  induction mts generalizing s sendCMD with
  | nil => rfl
  | cons mt rest ih =>
      obtain ⟨hnot, hrest⟩ := List.nodup_cons.1 hnodup
      rw [stopLoop, ih hrest]
      cases hlast : rest.getLast? with
      | none =>
          rw [List.getLast?_eq_none_iff.1 hlast]
          rfl
      | some last =>
          have hmem : last ∈ rest := List.mem_of_getLast? hlast
          have hne : last ≠ mt := fun h => hnot (h ▸ hmem)
          rw [List.getLast?_cons, hlast, Option.map_some, Option.getD_some, Option.getD_some,
            Option.map_some, Option.getD_some, managmentCommand_closeSocket hne]

/-- What `stopVPN` leaves alone. -/
theorem stopVPN_frame (s : Registry ι) (caller : ι) (writable : ι → Bool) :
    (s.stopVPN caller writable).1.active = s.active ∧
      ∀ i, ((s.stopVPN caller writable).1.thread i).pc = (s.thread i).pc := by
  obtain ⟨hactive, hpc⟩ := stopLoop_frame writable s.active s false
  rw [stopVPN]
  constructor
  · dsimp only
    split
    · exact hactive
    · exact hactive
  · intro i
    dsimp only
    split
    · refine Eq.trans (update_pc ?_ i) (hpc i)
      rfl
    · exact hpc i

end Stop

/-! ## One step -/

section Steps

variable {s : Registry ι} {mt : ι} {pc : RunPc}

/-- Another progress of an instance that is as much running as before. -/
theorem Exact.update (h : s.Exact) {fields : ThreadFields}
    (hpc : fields.pc ≠ .notStarted ∧ fields.pc ≠ .finished ↔ s.Running mt) :
    (s.update mt fields).Exact where
  nodup := h.nodup
  mem_iff := fun i => by
    rw [update_active, h.mem_iff, Running, Running]
    by_cases hi : i = mt
    · rw [hi, update_self]
      exact hpc.symm
    · rw [update_of_ne hi]

/-- An instance that registers. -/
theorem Exact.run (h : s.Exact) (hpc : (s.thread mt).pc = .notStarted) :
    Exact { s.setPc mt .accepting with active := s.active ++ [mt] } where
  nodup := by
    refine h.nodup.append (List.nodup_singleton mt) ?_
    intro i hi hmem
    obtain rfl := List.mem_singleton.1 hmem
    exact ((h.mem_iff i).1 hi).1 hpc
  mem_iff := fun i => by
    rw [List.mem_append, List.mem_singleton, h.mem_iff]
    by_cases hi : i = mt
    · refine iff_of_true (Or.inr hi) ?_
      rw [hi, Running]
      simp [setPc]
    · rw [or_iff_left hi, Running, Running]
      simp [setPc, update_of_ne hi]

/-- An instance that takes itself out. -/
theorem Exact.remove (h : s.Exact) :
    Exact { s.setPc mt .finished with active := s.active.erase mt } where
  nodup := h.nodup.erase mt
  mem_iff := fun i => by
    rw [h.nodup.mem_erase_iff, h.mem_iff]
    by_cases hi : i = mt
    · refine iff_of_false (fun hmem => hmem.1 hi) ?_
      rw [hi, Running]
      simp [setPc]
    · rw [Running, Running]
      simp [setPc, update_of_ne hi, hi]

/-- An instance that returns is left in the registry. -/
theorem Exact.not_finished (h : s.Exact) (hmt : s.Running mt) :
    ¬ (s.setPc mt .finished).Exact := by
  intro hafter
  have hmem : mt ∈ s.active := (h.mem_iff mt).2 hmt
  have hrunning := (hafter.mem_iff mt).1 hmem
  simp [Running, setPc] at hrunning

variable {x : Step (Registry ι) (RegistryEvent ι) (RegistryOut ι)}

/-- The result of `stopVPN` and the signals, from an exact registry. -/
theorem stopVPN_out (caller : ι) (writable : ι → Bool) (h : s.Exact) :
    (∀ i, .signalSIGINT i ∈ (s.stopVPN caller writable).2 ↔
      i ∈ s.active ∧ s.managmentCommand i writable) ∧
    ∀ result, .stopSucceed result ∈ (s.stopVPN caller writable).2 ↔
      result = (s.active.getLast?.map fun mt => s.managmentCommand mt writable).getD false := by
  obtain ⟨hsignal, hresult⟩ := mem_stopLoop writable h.nodup s false
  have hlast := stopLoop_result writable h.nodup s false
  constructor
  · intro i
    rw [← hsignal i, stopVPN, stopOpenVPN]
    simp
  · intro result
    rw [← hlast, stopVPN, stopOpenVPN]
    simp [hresult result]

/-- A call of `stopVPN` from an exact registry is exact if and only if the last instance takes the
signal or none does. -/
theorem stopVPN_exact_iff {pre : Registry ι} (caller : ι) (writable : ι → Bool) (h : pre.Exact) :
    StepExact ⟨pre, .stopVPN caller writable, (pre.stopVPN caller writable).1,
        (pre.stopVPN caller writable).2⟩ ↔
      LastAnswers ⟨pre, .stopVPN caller writable, (pre.stopVPN caller writable).1,
        (pre.stopVPN caller writable).2⟩ := by
  obtain ⟨hactive, hpc⟩ := stopVPN_frame pre caller writable
  obtain ⟨hsignal, hresult⟩ := stopVPN_out caller writable h
  have hpost : (pre.stopVPN caller writable).1.Exact := by
    refine ⟨hactive ▸ h.nodup, fun i => ?_⟩
    rw [hactive, h.mem_iff, Running, Running, hpc i]
  have hsome : Signalled ⟨pre, .stopVPN caller writable, (pre.stopVPN caller writable).1,
      (pre.stopVPN caller writable).2⟩ ↔
      ∃ mt ∈ pre.active, pre.managmentCommand mt writable := by
    simp only [Signalled, hsignal]
    exact ⟨fun ⟨mt, hmem, _, hsend⟩ => ⟨mt, hmem, hsend⟩,
      fun ⟨mt, hmem, hsend⟩ => ⟨mt, hmem, hmem, hsend⟩⟩
  -- what is returned is the answer of the last instance
  have hlast : (pre.active.getLast?.map fun mt => pre.managmentCommand mt writable).getD false =
      true ↔ ∃ mt, pre.active.getLast? = some mt ∧ pre.managmentCommand mt writable := by
    cases pre.active.getLast? with
    | none => simp
    | some mt => simp
  constructor
  · rintro ⟨-, hexact⟩ hany
    have htrue := (hexact _ ((hresult _).2 rfl)).2 (hsome.2 hany)
    exact hlast.1 htrue
  · intro hanswers
    refine ⟨hpost, fun result hmem => ?_⟩
    rw [hsome, (hresult result).1 hmem, hlast]
    exact ⟨fun ⟨mt, hget, hsend⟩ => ⟨mt, List.mem_of_getLast? hget, hsend⟩, hanswers⟩

/-- **Step lemma.** From an exact registry, a step is exact if and only if it meets the
conditions. -/
theorem stepExact_iff (htakes : Machine.Takes step x) (h : x.pre.Exact) :
    StepExact x ↔ LastAnswers x := by
  obtain ⟨pre, label, post, out⟩ := x
  simp only [Machine.Takes] at htakes h
  -- a step of an instance has no output, so that only the registry counts
  have hquiet : ∀ {post : Registry ι}, (post.Exact →
      StepExact ⟨pre, label, post, []⟩) := fun hpost => ⟨hpost, by simp⟩
  cases label with
  | run mt =>
      simp only [step] at htakes
      split at htakes
      next hpc =>
        cases htakes
        exact iff_of_true (hquiet (h.run hpc)) trivial
      next => cases htakes
  | accept mt =>
      simp only [step] at htakes
      split at htakes
      next hpc =>
        cases htakes
        exact iff_of_true (hquiet (h.update (by simp [Running, hpc]))) trivial
      next => cases htakes
  | receive mt =>
      simp only [step] at htakes
      split at htakes
      next =>
        cases htakes
        exact iff_of_true (hquiet h) trivial
      next => cases htakes
  | endOfStream mt =>
      simp only [step] at htakes
      split at htakes
      next hpc =>
        cases htakes
        refine iff_of_false (fun hx => h.not_finished ?_ hx.1) id
        simp [Running, hpc]
      next => cases htakes
  | uncheckedException mt =>
      simp only [step] at htakes
      split at htakes
      next hpc =>
        cases htakes
        refine iff_of_false (fun hx => h.not_finished ?_ hx.1) id
        rcases hpc with hpc | hpc | hpc
        · simp [Running, hpc]
        · simp [Running, hpc]
        · simp [Running, hpc]
      next => cases htakes
  | ioException mt =>
      simp only [step] at htakes
      split at htakes
      next hpc =>
        cases htakes
        refine iff_of_true (hquiet (h.update ?_)) trivial
        rcases hpc with hpc | hpc
        · simp [Running, hpc]
        · simp [Running, hpc]
      next => cases htakes
  | remove mt =>
      simp only [step] at htakes
      split at htakes
      next =>
        cases htakes
        exact iff_of_true (hquiet h.remove) trivial
      next => cases htakes
  | stopVPN caller writable =>
      have hpair : pre.stopVPN caller writable = (post, out) := Option.some.inj htakes
      obtain ⟨rfl, rfl⟩ : post = (pre.stopVPN caller writable).1 ∧
          out = (pre.stopVPN caller writable).2 := by
        rw [hpair]
        exact ⟨rfl, rfl⟩
      exact stopVPN_exact_iff caller writable h

end Steps

/-! ## Runs -/

/-- **The registry of a run.** Every step of a run leaves `active` with the instances that are
running, and every `stopVPN` says whether an instance got the signal, if and only if no instance
reaches the end of its stream or throws an unchecked exception, and at every `stopVPN` the instance
that registered last can be signalled if any can. -/
theorem registry_exact_iff (events : List (RegistryEvent ι)) :
    (∀ x ∈ Machine.history step (init : Registry ι) events, StepExact x) ↔
      ∀ x ∈ Machine.history step (init : Registry ι) events, LastAnswers x := by
  have hinit : (init : Registry ι).Exact := ⟨List.nodup_nil, fun mt => by simp [init, Running]⟩
  refine Machine.forall_history_iff (I := Exact) ?_ ?_ hinit
  · intro x htakes hpre hanswers
    have hexact := (stepExact_iff htakes hpre).2 hanswers
    exact ⟨hexact.1, hexact⟩
  · intro x htakes hpre hexact
    exact (stepExact_iff htakes hpre).1 hexact

/-- **A dead instance that stays**: its stream has ended, and it is still in the registry. -/
theorem registry_exact_counterexample :
    ¬ ∀ events : List (RegistryEvent Nat),
      ∀ x ∈ Machine.history step (init : Registry Nat) events, StepExact x := by
  intro h
  have hend := (h [.run 0, .accept 0, .endOfStream 0] _ (List.mem_of_getElem? (i := 2) rfl)).1
  exact absurd ((hend.mem_iff 0).1 (by decide)) (fun hrunning => hrunning.2 rfl)

end Registry

end PortVpn.Management
