import PortVpn.Lib.JavaText
import PortVpn.Lib.OnceFilled

/-!
# The OpenVPN binary in the cache directory

`VPNLaunchHelper.writeMiniVPN` copies the binary out of the assets of the application into its cache
directory, marks it executable, and runs it from there. It does not copy again what it finds
executable. The copy is made in pieces and can fail, or be cut off with the process, after any of
them; the permission is set last. So after any history of launches, of new versions of the
application and of the system, and of files that the system clears away, an executable file is the
whole of the asset that was installed when the file was marked, and it stays so until it is cleared
(`executable_iff`), whatever version of the application asks for it.
-/

set_option autoImplicit false

namespace PortVpn.Service

open PortVpn.Lib

/-! ## The source -/

abbrev Bytes := List UInt8

/-- The device, as `Build` and the application's context describe it. -/
structure Device where
  SDK_INT : Nat
  SUPPORTED_ABIS : List Text
  CPU_ABI : Text
  CPU_ABI2 : Text
  nativeAPI : Text
  nativeLibraryDir : Text
  cacheDir : Text
  deriving DecidableEq, Repr

def JELLY_BEAN : Nat := 16
def LOLLIPOP : Nat := 21
def P : Nat := 28

def MININONPIEVPN : Text := "nopie_openvpn".toList
def MINIPIEVPN : Text := "pie_openvpn".toList
def OVPNCONFIGFILE : Text := "android.conf".toList

/-- A file of the cache directory. -/
structure CacheFile where
  content : Bytes
  canExecute : Bool
  deriving DecidableEq, Repr

/-- What is logged during a launch. -/
inductive LaunchLog where
  | abiMismatch (abis : List Text) (nativeAPI : Text)
  | logInfo (message : Text)
  | logError (message : Text)
  | logException
  deriving DecidableEq, Repr

/-- One round of the copying loop: `read` gives at most `n` bytes and `write` takes them all, `read`
throws, or `write` throws when it has taken `k` of them. -/
inductive Round where
  | copied (n : Nat)
  | readThrows
  | writeThrows (n k : Nat)
  deriving DecidableEq, Repr

/-- What the system does in one call of `writeMiniVPNBinary`. Where the rounds run out, or `marks` is
`none`, the process is killed. -/
structure Attempt where
  opens : Bool
  creates : Bool
  rounds : List Round
  closes : Bool
  marks : Option Bool
  deriving DecidableEq, Repr

/-- How a part of a launch ends. -/
inductive Outcome (α : Type) where
  | returned (a : α)
  | thrown
  | killed
  deriving DecidableEq, Repr

/-- The bytes that one `read` into a buffer of 4096 bytes takes from a stream that has some left. -/
def lenread (n : Nat) (mvpn : Bytes) : Nat := max 1 (min n (min 4096 mvpn.length))

/-- The copying loop: what is left of `mvpn` goes behind what `fout` has. -/
def copyLoop : List Round → Bytes → Bytes → Outcome Unit × Bytes
  | [], _, fout => (.killed, fout)
  | .readThrows :: _, _, fout => (.thrown, fout)
  | .copied n :: rounds, mvpn, fout =>
      if mvpn = [] then (.returned (), fout)
      else copyLoop rounds (mvpn.drop (lenread n mvpn)) (fout ++ mvpn.take (lenread n mvpn))
  | .writeThrows n k :: _, mvpn, fout =>
      if mvpn = [] then (.returned (), fout)
      else (.thrown, fout ++ (mvpn.take (lenread n mvpn)).take k)

/-- What a call of `writeMiniVPNBinary` leaves: its result, the file, and what it has logged. -/
structure Written where
  result : Outcome Bool
  mvpnout : Option CacheFile
  log : List LaunchLog
  deriving DecidableEq, Repr

/-- `writeMiniVPNBinary` for the asset of one ABI, over the file that is there. A new
`FileOutputStream` empties a file and leaves its permissions. -/
def writeMiniVPNBinary (abi : Text) (asset : Option Bytes) (a : Attempt)
    (mvpnout : Option CacheFile) : Written :=
  let file (content : Bytes) : Option CacheFile :=
    some ⟨content, (mvpnout.map CacheFile.canExecute).getD false⟩
  match if a.opens then asset else none with
  | none =>
      ⟨.returned false, mvpnout,
        [.logInfo ("Failed getting assets for archicture ".toList ++ abi)]⟩
  | some mvpn =>
      if !a.creates then ⟨.returned false, mvpnout, [.logException]⟩
      else
        match copyLoop a.rounds mvpn [] with
        | (.killed, content) => ⟨.killed, file content, []⟩
        | (.thrown, content) => ⟨.returned false, file content, [.logException]⟩
        | (.returned _, content) =>
            if !a.closes then ⟨.returned false, file content, [.logException]⟩
            else
              match a.marks with
              | none => ⟨.killed, file content, []⟩
              | some false =>
                  ⟨.returned false, file content,
                    [.logError "Failed to make OpenVPN executable".toList]⟩
              | some true => ⟨.returned true, some ⟨content, true⟩, []⟩

def getMiniVPNExecutableName (d : Device) : Text :=
  if JELLY_BEAN ≤ d.SDK_INT then MINIPIEVPN else MININONPIEVPN

/-- The ABIs that `writeMiniVPN` goes through, and the warning it gives. -/
def launchAbis (d : Device) : List Text × List LaunchLog :=
  let abis := if LOLLIPOP ≤ d.SDK_INT then d.SUPPORTED_ABIS else [d.CPU_ABI, d.CPU_ABI2]
  if abis.head? = some d.nativeAPI then (abis, [])
  else ([d.nativeAPI], [.abiMismatch abis d.nativeAPI])

/-- The name of the binary for an ABI, of the asset and of the file alike. -/
def binaryName (d : Device) (abi : Text) : Text := getMiniVPNExecutableName d ++ '.' :: abi

def pathIn (dir name : Text) : Text := dir ++ '/' :: name

/-- What `writeMiniVPN` leaves: the path it returns, the cache directory, and the log. -/
structure Launched where
  result : Outcome (Option Text)
  cache : Text → Option CacheFile
  log : List LaunchLog

/-- The loop of `writeMiniVPN` over the ABIs. Each call of `writeMiniVPNBinary` takes an attempt; where
they run out the process is killed. -/
def writeMiniVPNLoop (d : Device) (assets : Text → Option Bytes) :
    List Text → List Attempt → (Text → Option CacheFile) → List LaunchLog → Launched
  | [], _, cache, log => ⟨.returned none, cache, log⟩
  | abi :: abis, attempts, cache, log =>
      let name := binaryName d abi
      if (cache name).any CacheFile.canExecute then
        ⟨.returned (some (pathIn d.cacheDir name)), cache, log⟩
      else
        match attempts with
        | [] => ⟨.killed, cache, log⟩
        | a :: attempts =>
            let w := writeMiniVPNBinary abi (assets name) a (cache name)
            let cache' := Function.update cache name w.mvpnout
            match w.result with
            | .returned true =>
                ⟨.returned (some (pathIn d.cacheDir name)), cache', log ++ w.log⟩
            | .returned false => writeMiniVPNLoop d assets abis attempts cache' (log ++ w.log)
            | _ => ⟨.killed, cache', log ++ w.log⟩

/-- From Android P on the binary is one of the native libraries. -/
def writeMiniVPN (d : Device) (assets : Text → Option Bytes) (attempts : List Attempt)
    (cache : Text → Option CacheFile) : Launched :=
  if P ≤ d.SDK_INT then
    ⟨.returned (some (pathIn d.nativeLibraryDir "libovpnexec.so".toList)), cache, []⟩
  else
    writeMiniVPNLoop d assets (launchAbis d).1 attempts cache (launchAbis d).2

def getConfigFilePath (d : Device) : Text := pathIn d.cacheDir OVPNCONFIGFILE

/-- The command line for a path that `writeMiniVPN` returned. -/
def argvFor (d : Device) (binaryName : Text) : List Text :=
  [binaryName, "--config".toList, getConfigFilePath d]

/-- `buildOpenvpnArgv`; `some none` is the `null` it returns, `none` that it does not return. -/
def buildOpenvpnArgv (d : Device) (assets : Text → Option Bytes) (attempts : List Attempt)
    (cache : Text → Option CacheFile) : Option (Option (List Text)) × List LaunchLog :=
  let l := writeMiniVPN d assets attempts cache
  match l.result with
  | .returned (some binaryName) => (some (some (argvFor d binaryName)), l.log)
  | .returned none => (some none, l.log ++ [.logError "Error writing minivpn binary".toList])
  | _ => (none, l.log)

/-- The application on its device: the assets of the installed version and the cache directory. -/
structure Installation where
  device : Device
  assets : Text → Option Bytes
  cache : Text → Option CacheFile

/-- What happens to an installation, one thing after another: a launch, a new version of the
application, a new version of the system, and a file that the system clears away. -/
inductive InstallEvent where
  | launch (attempts : List Attempt)
  | update (assets : Text → Option Bytes)
  | upgrade (SDK_INT : Nat)
  | clear (name : Text)

def Installation.next (s : Installation) : InstallEvent → Installation
  | .launch attempts => { s with cache := (writeMiniVPN s.device s.assets attempts s.cache).cache }
  | .update assets => { s with assets }
  | .upgrade SDK_INT => { s with device := { s.device with SDK_INT } }
  | .clear name => { s with cache := Function.update s.cache name none }

/-- An installation whose cache directory is empty. -/
def newInstallation (d : Device) (assets : Text → Option Bytes) : Installation :=
  ⟨d, assets, fun _ => none⟩

/-! ## One copy -/

/-- What can be run of a file: its bytes, where it is executable. -/
def runnable (f : Option CacheFile) : Option Bytes :=
  f.bind fun f => if f.canExecute then some f.content else none

theorem runnable_eq_none_iff {f : Option CacheFile} :
    runnable f = none ↔ f.any CacheFile.canExecute = false := by
  cases f with
  | none => simp [runnable]
  | some f => simp [runnable]

/-- The loop only returns at the end of the stream, and has then copied all of it. -/
theorem copyLoop_returned {rounds : List Round} {mvpn fout out : Bytes}
    (h : copyLoop rounds mvpn fout = (.returned (), out)) : out = fout ++ mvpn := by
  induction rounds generalizing mvpn fout with
  | nil => simp [copyLoop] at h
  | cons round rounds ih =>
      cases round with
      | readThrows => simp [copyLoop] at h
      | copied n =>
          rw [copyLoop] at h
          split at h
          · rename_i hend
            simp only [Prod.mk.injEq, true_and] at h
            rw [← h, hend, List.append_nil]
          · rw [ih h, List.append_assoc, List.take_append_drop]
      | writeThrows n k =>
          rw [copyLoop] at h
          split at h
          · rename_i hend
            simp only [Prod.mk.injEq, true_and] at h
            rw [← h, hend, List.append_nil]
          · simp at h

/-- How a call of `writeMiniVPNBinary` ends, which is all in the attempt and the asset. -/
def Attempt.outcome (a : Attempt) (asset : Option Bytes) : Outcome Bool :=
  (writeMiniVPNBinary [] asset a none).result

theorem result_writeMiniVPNBinary (abi : Text) (asset : Option Bytes) (a : Attempt)
    (mvpnout : Option CacheFile) :
    (writeMiniVPNBinary abi asset a mvpnout).result = a.outcome asset := by
  rw [Attempt.outcome, writeMiniVPNBinary, writeMiniVPNBinary]
  cases if a.opens = true then asset else none with
  | none => rfl
  | some mvpn =>
      cases a.creates with
      | false => rfl
      | true =>
          dsimp only
          cases copyLoop a.rounds mvpn [] with
          | mk ending content =>
              cases ending with
              | killed => rfl
              | thrown => rfl
              | returned _ =>
                  cases a.closes with
                  | false => rfl
                  | true => rcases a.marks with _ | _ | _ <;> rfl

/-- A file that could not be run can be run after the call exactly if the call returns `true`, and
is then the whole asset. -/
theorem runnable_mvpnout (abi : Text) (asset : Option Bytes) (a : Attempt)
    {mvpnout : Option CacheFile} (h : runnable mvpnout = none) :
    let w := writeMiniVPNBinary abi asset a mvpnout
    (w.result = .returned true ∧ runnable w.mvpnout = asset) ∨
      (w.result ≠ .returned true ∧ runnable w.mvpnout = none) := by
  have hfile : ∀ content : Bytes,
      runnable (some ⟨content, (mvpnout.map CacheFile.canExecute).getD false⟩) = none := by
    intro content
    rw [runnable_eq_none_iff] at h ⊢
    cases mvpnout with
    | none => rfl
    | some f => exact h
  rw [writeMiniVPNBinary]
  cases hopen : if a.opens = true then asset else none with
  | none => exact Or.inr ⟨by simp, h⟩
  | some mvpn =>
      have hasset : asset = some mvpn := by
        split at hopen
        · exact hopen
        · exact nomatch hopen
      cases a.creates with
      | false => exact Or.inr ⟨by simp, h⟩
      | true =>
          dsimp only
          cases hcopy : copyLoop a.rounds mvpn [] with
          | mk ending content =>
              cases ending with
              | killed => exact Or.inr ⟨by simp, hfile content⟩
              | thrown => exact Or.inr ⟨by simp, hfile content⟩
              | returned _ =>
                  have hcontent : content = mvpn := copyLoop_returned hcopy
                  cases a.closes with
                  | false => exact Or.inr ⟨by simp, hfile content⟩
                  | true =>
                      rcases a.marks with _ | _ | _
                      · exact Or.inr ⟨by simp, hfile content⟩
                      · exact Or.inr ⟨by simp, hfile content⟩
                      · exact Or.inl ⟨rfl, by rw [hasset, ← hcontent]; rfl⟩

theorem isSome_of_outcome {a : Attempt} {asset : Option Bytes}
    (h : a.outcome asset = .returned true) : asset.isSome := by
  cases asset with
  | none => simp [Attempt.outcome, writeMiniVPNBinary] at h
  | some mvpn => rfl

/-! ## One launch -/

/-- What can be run of the files of a cache directory. -/
def runnables (cache : Text → Option CacheFile) (name : Text) : Option Bytes :=
  runnable (cache name)

/-- A launch as it should be: of the ABIs in their order it takes the first one whose binary can be
run, or can be installed, and nothing else changes. It knows the binaries that can be run only. -/
def launchBinary (nameOf : Text → Text) (assets : Text → Option Bytes) :
    List Text → List Attempt → (Text → Option Bytes) → Outcome (Option Text) × (Text → Option Bytes)
  | [], _, store => (.returned none, store)
  | abi :: abis, attempts, store =>
      let name := nameOf abi
      if (store name).isSome then (.returned (some name), store)
      else
        match attempts with
        | [] => (.killed, store)
        | a :: attempts =>
            match a.outcome (assets name) with
            | .returned true => (.returned (some name), Function.update store name (assets name))
            | .returned false => launchBinary nameOf assets abis attempts store
            | _ => (.killed, store)

def Outcome.map {α β : Type} (f : α → β) : Outcome α → Outcome β
  | .returned a => .returned (f a)
  | .thrown => .thrown
  | .killed => .killed

section

variable {abi name : Text} {asset : Option Bytes} {a : Attempt} {cache : Text → Option CacheFile}

theorem isSome_runnables (cache : Text → Option CacheFile) (name : Text) :
    (runnables cache name).isSome = (cache name).any CacheFile.canExecute := by
  rw [runnables]
  cases cache name with
  | none => rfl
  | some f => cases hcan : f.canExecute <;> simp [runnable, hcan]

theorem runnables_update (cache : Text → Option CacheFile) (name : Text) (f : Option CacheFile) :
    runnables (Function.update cache name f) =
      Function.update (runnables cache) name (runnable f) := by
  funext other
  by_cases hname : other = name
  · simp [runnables, hname]
  · simp [runnables, hname]

/-- A call that returns `true` has installed the asset. -/
theorem runnables_installed (h : runnables cache name = none)
    (houtcome : a.outcome asset = .returned true) :
    runnables (Function.update cache name (writeMiniVPNBinary abi asset a (cache name)).mvpnout) =
      Function.update (runnables cache) name asset := by
  rcases runnable_mvpnout abi asset a h with ⟨-, hrun⟩ | ⟨hnot, -⟩
  · rw [runnables_update, hrun]
  · exact absurd ((result_writeMiniVPNBinary abi asset a _).trans houtcome) hnot

/-- Any other call leaves what can be run as it was. -/
theorem runnables_not_installed (h : runnables cache name = none)
    (houtcome : a.outcome asset ≠ .returned true) :
    runnables (Function.update cache name (writeMiniVPNBinary abi asset a (cache name)).mvpnout) =
      runnables cache := by
  rcases runnable_mvpnout abi asset a h with ⟨hresult, -⟩ | ⟨-, hrun⟩
  · exact absurd ((result_writeMiniVPNBinary abi asset a _).symm.trans hresult) houtcome
  · rw [runnables_update, hrun, ← h, Function.update_eq_self]

end

/-- `writeMiniVPN` refines it: what cannot be run makes no difference. -/
theorem writeMiniVPNLoop_refines (d : Device) (assets : Text → Option Bytes) (abis : List Text) :
    ∀ (attempts : List Attempt) (cache : Text → Option CacheFile) (log : List LaunchLog),
      let l := writeMiniVPNLoop d assets abis attempts cache log
      let spec := launchBinary (binaryName d) assets abis attempts (runnables cache)
      l.result = spec.1.map (Option.map (pathIn d.cacheDir)) ∧ runnables l.cache = spec.2 := by
  induction abis with
  | nil => intro attempts cache log; exact ⟨rfl, rfl⟩
  | cons abi abis ih =>
      intro attempts cache log
      dsimp only
      rw [writeMiniVPNLoop.eq_def, launchBinary.eq_def]
      dsimp only
      rw [isSome_runnables]
      cases hany : (cache (binaryName d abi)).any CacheFile.canExecute with
      | true => exact ⟨rfl, rfl⟩
      | false =>
          have hnone : runnables cache (binaryName d abi) = none := by
            rw [← Option.not_isSome_iff_eq_none, isSome_runnables, hany]
            exact Bool.false_ne_true
          cases attempts with
          | nil => exact ⟨rfl, rfl⟩
          | cons a attempts =>
              simp only [Bool.false_eq_true, if_false, result_writeMiniVPNBinary]
              cases houtcome : a.outcome (assets (binaryName d abi)) with
              | returned written =>
                  cases written with
                  | true => exact ⟨rfl, runnables_installed hnone houtcome⟩
                  | false =>
                      have hsame : runnables (Function.update cache (binaryName d abi)
                          (writeMiniVPNBinary abi (assets (binaryName d abi)) a
                            (cache (binaryName d abi))).mvpnout) = runnables cache :=
                        runnables_not_installed hnone (by simp [houtcome])
                      rw [← hsame]
                      exact ih attempts _ _
              | thrown =>
                  exact ⟨rfl, runnables_not_installed hnone (by simp [houtcome])⟩
              | killed =>
                  exact ⟨rfl, runnables_not_installed hnone (by simp [houtcome])⟩

/-! ## Which binary a launch takes -/

section

variable {nameOf : Text → Text} {assets : Text → Option Bytes} {store : Text → Option Bytes}
  {abis : List Text} {attempts : List Attempt} {name : Text}

/-- The launch goes past an ABI: its binary cannot be run, and the attempt to write it fails. -/
def Passes (nameOf : Text → Text) (assets store : Text → Option Bytes) (abi : Text) (a : Attempt) :
    Prop :=
  store (nameOf abi) = none ∧ a.outcome (assets (nameOf abi)) = .returned false

/-- The launch takes the binary of this name: it goes past all ABIs before, and the binary can be run
already, or the attempt to write it succeeds. -/
def TakesBinary (nameOf : Text → Text) (assets store : Text → Option Bytes) (abis : List Text)
    (attempts : List Attempt) (name : Text) : Prop :=
  ∃ front abi back tried rest, abis = front ++ abi :: back ∧ attempts = tried ++ rest ∧
    List.Forall₂ (Passes nameOf assets store) front tried ∧ name = nameOf abi ∧
    (store name ≠ none ∨ ∃ a, rest.head? = some a ∧ a.outcome (assets name) = .returned true)

theorem takesBinary_cons {abi : Text} :
    TakesBinary nameOf assets store (abi :: abis) attempts name ↔
      (name = nameOf abi ∧ (store name ≠ none ∨
        ∃ a, attempts.head? = some a ∧ a.outcome (assets name) = .returned true)) ∨
      ∃ a rest, attempts = a :: rest ∧ Passes nameOf assets store abi a ∧
        TakesBinary nameOf assets store abis rest name := by
  constructor
  · rintro ⟨front, abi', back, tried, rest, habis, hattempts, htried, hname, htakes⟩
    cases htried with
    | nil =>
        obtain ⟨rfl, -⟩ := List.cons.inj habis
        rw [List.nil_append] at hattempts
        exact Or.inl ⟨hname, hattempts ▸ htakes⟩
    | @cons abi₁ a front tried hpasses htried =>
        obtain ⟨rfl, hlater⟩ := List.cons.inj habis
        exact Or.inr ⟨a, tried ++ rest, hattempts, hpasses,
          front, abi', back, tried, rest, hlater, rfl, htried, hname, htakes⟩
  · rintro (⟨hname, htakes⟩ | ⟨a, rest, rfl, hpasses, front, abi', back, tried, later, rfl, rfl,
      htried, hname, htakes⟩)
    · exact ⟨[], abi, abis, [], attempts, rfl, rfl, List.Forall₂.nil, hname, htakes⟩
    · exact ⟨abi :: front, abi', back, a :: tried, later, rfl, rfl,
        List.Forall₂.cons hpasses htried, hname, htakes⟩

theorem launchBinary_returned_iff :
    (launchBinary nameOf assets abis attempts store).1 = .returned (some name) ↔
      TakesBinary nameOf assets store abis attempts name := by
  induction abis generalizing attempts with
  | nil =>
      constructor
      · intro h
        simp [launchBinary] at h
      · rintro ⟨front, abi, back, -, -, habis, -⟩
        simp at habis
  | cons abi abis ih =>
      rw [takesBinary_cons, launchBinary.eq_def]
      dsimp only
      cases hstore : store (nameOf abi) with
      | some bytes =>
          simp only [Option.isSome_some, if_true, Outcome.returned.injEq, Option.some.injEq]
          constructor
          · rintro rfl
            exact Or.inl ⟨rfl, Or.inl (by simp [hstore])⟩
          · rintro (⟨rfl, -⟩ | ⟨a, rest, -, ⟨hnone, -⟩, -⟩)
            · rfl
            · rw [hstore] at hnone
              exact nomatch hnone
      | none =>
          cases attempts with
          | nil =>
              constructor
              · intro h
                simp at h
              · rintro (⟨rfl, hsome | ⟨a, hhead, -⟩⟩ | ⟨a, rest, hnil, -⟩)
                · exact absurd hstore hsome
                · exact nomatch hhead
                · exact nomatch hnil
          | cons a attempts =>
              have hfirst : (∃ b, (a :: attempts).head? = some b ∧
                  b.outcome (assets name) = .returned true) ↔
                  a.outcome (assets name) = .returned true := by simp
              have hrest : (∃ b rest, a :: attempts = b :: rest ∧
                  Passes nameOf assets store abi b ∧
                  TakesBinary nameOf assets store abis rest name) ↔
                  Passes nameOf assets store abi a ∧
                    TakesBinary nameOf assets store abis attempts name := by simp
              have hhere : (name = nameOf abi ∧ (store name ≠ none ∨
                  a.outcome (assets name) = .returned true)) ↔
                  name = nameOf abi ∧ a.outcome (assets (nameOf abi)) = .returned true := by
                constructor
                · rintro ⟨rfl, hsome | houtcome⟩
                  · exact absurd hstore hsome
                  · exact ⟨rfl, houtcome⟩
                · rintro ⟨rfl, houtcome⟩
                  exact ⟨rfl, Or.inr houtcome⟩
              rw [hfirst, hrest, hhere, Passes]
              simp only [hstore, Option.isSome_none, Bool.false_eq_true, if_false, true_and]
              cases houtcome : a.outcome (assets (nameOf abi)) with
              | returned written =>
                  cases written with
                  | true => simp [eq_comm]
                  | false => simp [ih]
              | thrown => simp
              | killed => simp

/-- What can be run after a launch: what could be run before, and the binary that it takes. -/
theorem launchBinary_store_iff {bytes : Bytes} :
    (launchBinary nameOf assets abis attempts store).2 name = some bytes ↔
      store name = some bytes ∨
        store name = none ∧ TakesBinary nameOf assets store abis attempts name ∧
          assets name = some bytes := by
  rw [← launchBinary_returned_iff]
  induction abis generalizing attempts with
  | nil => simp [launchBinary]
  | cons abi abis ih =>
      rw [launchBinary.eq_def]
      dsimp only
      cases hstore : store (nameOf abi) with
      | some old =>
          simp only [Option.isSome_some, if_true, Outcome.returned.injEq, Option.some.injEq]
          constructor
          · exact Or.inl
          · rintro (h | ⟨hnone, rfl, -⟩)
            · exact h
            · rw [hstore] at hnone
              exact nomatch hnone
      | none =>
          cases attempts with
          | nil => simp
          | cons a attempts =>
              simp only [Option.isSome_none, Bool.false_eq_true, if_false]
              cases houtcome : a.outcome (assets (nameOf abi)) with
              | returned written =>
                  cases written with
                  | true =>
                      by_cases hname : name = nameOf abi
                      · simp [hname, hstore]
                      · simp [hname, Ne.symm hname]
                  | false => exact ih
              | thrown => simp
              | killed => simp

end

/-! ## Runs -/

/-- The launch takes the binary of this name. -/
def Installation.Takes (s : Installation) (attempts : List Attempt) (name : Text) : Prop :=
  TakesBinary (binaryName s.device) s.assets (runnables s.cache) (launchAbis s.device).1 attempts
    name

theorem runnables_launch_iff {s : Installation} {attempts : List Attempt} {name : Text}
    {bytes : Bytes} :
    runnables (s.next (.launch attempts)).cache name = some bytes ↔
      runnables s.cache name = some bytes ∨
        runnables s.cache name = none ∧ s.device.SDK_INT < P ∧ s.Takes attempts name ∧
          s.assets name = some bytes := by
  rw [Installation.next, writeMiniVPN]
  by_cases hnative : P ≤ s.device.SDK_INT
  · have hnot : ¬ s.device.SDK_INT < P := not_lt.2 hnative
    simp [hnative, hnot]
  · have hold : s.device.SDK_INT < P := not_le.1 hnative
    simp only [hnative, if_false, hold, true_and]
    rw [(writeMiniVPNLoop_refines s.device s.assets _ attempts s.cache _).2]
    exact launchBinary_store_iff

/-- The binaries that can be run, as cells: what is cleared away is dropped. -/
def installCells : Cells Installation InstallEvent Text Bytes where
  next := Installation.next
  cell s := runnables s.cache
  drops l name := l = .clear name
  cell_kept s l name bytes h hkept := by
    cases l with
    | launch attempts => exact runnables_launch_iff.2 (Or.inl h)
    | update assets => exact h
    | upgrade SDK_INT => exact h
    | clear other =>
        have hname : name ≠ other := fun heq => hkept (heq ▸ rfl)
        simpa [Installation.next, runnables, hname] using h
  cell_dropped s l name hdrop := by
    subst hdrop
    simp [Installation.next, runnables, runnable]

/-- The installation after a list of events. -/
abbrev installationAfter (s : Installation) (run : List InstallEvent) : Installation :=
  installCells.after s run

/-- The binary was installed with these bytes: at a launch that took it when it could not be run, and
that found them in the assets. It has not been cleared away since. -/
def Installed (s : Installation) (run : List InstallEvent) (name : Text) (bytes : Bytes) : Prop :=
  ∃ before attempts later, run = before ++ .launch attempts :: later ∧
    runnables (installationAfter s before).cache name = none ∧
    (installationAfter s before).device.SDK_INT < P ∧
    (installationAfter s before).Takes attempts name ∧
    (installationAfter s before).assets name = some bytes ∧ .clear name ∉ later

theorem fills_iff {s : Installation} {l : InstallEvent} {name : Text} {bytes : Bytes} :
    installCells.Fills s l name bytes ↔
      runnables s.cache name = none ∧ ∃ attempts, l = .launch attempts ∧ s.device.SDK_INT < P ∧
        s.Takes attempts name ∧ s.assets name = some bytes := by
  refine and_congr_right fun hnone => ?_
  change runnables s.cache name = none at hnone
  cases l with
  | launch attempts =>
      change runnables (s.next (.launch attempts)).cache name = some bytes ↔ _
      rw [runnables_launch_iff]
      simp [hnone]
  | update assets =>
      change runnables s.cache name = some bytes ↔ _
      simp [hnone]
  | upgrade SDK_INT =>
      change runnables s.cache name = some bytes ↔ _
      simp [hnone]
  | clear other =>
      change runnables (Function.update s.cache other none) name = some bytes ↔ _
      rw [runnables_update]
      by_cases hname : name = other
      · simp [hname, runnable]
      · simp [hname, hnone]

/-- **What can be run.** An executable file of the cache directory is the whole of an asset, as it
was when the file was installed. -/
theorem executable_iff (d : Device) (assets : Text → Option Bytes) (run : List InstallEvent)
    (name : Text) (bytes : Bytes) :
    runnables (installationAfter (newInstallation d assets) run).cache name = some bytes ↔
      Installed (newInstallation d assets) run name bytes := by
  refine (installCells.held_iff rfl run).trans ?_
  constructor
  · rintro ⟨before, l, later, rfl, hfills, hkept⟩
    obtain ⟨hnone, attempts, rfl, hrest⟩ := fills_iff.1 hfills
    exact ⟨before, attempts, later, rfl, hnone, hrest.1, hrest.2.1, hrest.2.2,
      fun hclear => hkept _ hclear rfl⟩
  · rintro ⟨before, attempts, later, rfl, hnone, hold, htakes, hassets, hclear⟩
    refine ⟨before, .launch attempts, later, rfl,
      fills_iff.2 ⟨hnone, attempts, rfl, hold, htakes, hassets⟩, ?_⟩
    rintro x hx rfl
    exact hclear hx

/-- A binary that a launch takes can be run after it. -/
theorem exists_runnable_of_takes {s : Installation} {attempts : List Attempt} {name : Text}
    (hold : s.device.SDK_INT < P) (h : s.Takes attempts name) :
    ∃ bytes, runnables (s.next (.launch attempts)).cache name = some bytes := by
  have htakes := h
  obtain ⟨front, abi, back, tried, rest, -, -, -, -, hstore | ⟨a, -, houtcome⟩⟩ := h
  · obtain ⟨bytes, hbytes⟩ := Option.ne_none_iff_exists'.1 hstore
    exact ⟨bytes, runnables_launch_iff.2 (Or.inl hbytes)⟩
  · cases hrun : runnables s.cache name with
    | some bytes => exact ⟨bytes, runnables_launch_iff.2 (Or.inl hrun)⟩
    | none =>
        obtain ⟨bytes, hbytes⟩ := Option.isSome_iff_exists.1 (isSome_of_outcome houtcome)
        exact ⟨bytes, runnables_launch_iff.2 (Or.inr ⟨hrun, hold, htakes, hbytes⟩)⟩

theorem argv_iff {d : Device} {assets : Text → Option Bytes} {attempts : List Attempt}
    {cache : Text → Option CacheFile} {argv : List Text} :
    (buildOpenvpnArgv d assets attempts cache).1 = some (some argv) ↔
      ∃ path, (writeMiniVPN d assets attempts cache).result = .returned (some path) ∧
        argv = argvFor d path := by
  rw [buildOpenvpnArgv]
  cases (writeMiniVPN d assets attempts cache).result with
  | returned path => cases path <;> simp [eq_comm]
  | thrown => simp
  | killed => simp

theorem result_writeMiniVPN_iff {s : Installation} {attempts : List Attempt} {path : Text}
    (hold : s.device.SDK_INT < P) :
    (writeMiniVPN s.device s.assets attempts s.cache).result = .returned (some path) ↔
      ∃ name, s.Takes attempts name ∧ path = pathIn s.device.cacheDir name := by
  rw [writeMiniVPN, if_neg (not_le.2 hold),
    (writeMiniVPNLoop_refines s.device s.assets _ attempts s.cache _).1]
  simp only [Installation.Takes, ← launchBinary_returned_iff]
  cases (launchBinary (binaryName s.device) s.assets (launchAbis s.device).1 attempts
      (runnables s.cache)).1 with
  | returned name => cases name <;> simp [Outcome.map, eq_comm]
  | thrown => simp [Outcome.map]
  | killed => simp [Outcome.map]

/-- **What a launch runs.** After any history, a launch has a command line exactly if the device runs
the native library, or the launch takes a binary of the cache directory. That binary is installed
then: the whole of an asset, as it was at the launch that installed it. -/
theorem launched_iff (d : Device) (assets : Text → Option Bytes) (run : List InstallEvent)
    (attempts : List Attempt) (argv : List Text) :
    let s := installationAfter (newInstallation d assets) run
    (buildOpenvpnArgv s.device s.assets attempts s.cache).1 = some (some argv) ↔
      (P ≤ s.device.SDK_INT ∧
        argv = argvFor s.device (pathIn s.device.nativeLibraryDir "libovpnexec.so".toList)) ∨
      (s.device.SDK_INT < P ∧ ∃ name bytes, s.Takes attempts name ∧
        argv = argvFor s.device (pathIn s.device.cacheDir name) ∧
        Installed (newInstallation d assets) (run ++ [.launch attempts]) name bytes) := by
  intro s
  rw [argv_iff]
  by_cases hnative : P ≤ s.device.SDK_INT
  · have hnot : ¬ s.device.SDK_INT < P := not_lt.2 hnative
    simp [writeMiniVPN, hnative, hnot, eq_comm]
  · have hold : s.device.SDK_INT < P := not_le.1 hnative
    simp only [hnative, false_and, false_or, hold, true_and, result_writeMiniVPN_iff hold]
    constructor
    · rintro ⟨path, ⟨name, htakes, rfl⟩, rfl⟩
      obtain ⟨bytes, hbytes⟩ := exists_runnable_of_takes hold htakes
      refine ⟨name, bytes, htakes, rfl, (executable_iff d assets _ name bytes).1 ?_⟩
      rw [installationAfter, Cells.after_concat]
      exact hbytes
    · rintro ⟨name, bytes, htakes, rfl, -⟩
      exact ⟨_, ⟨name, htakes, rfl⟩, rfl⟩

end PortVpn.Service
