import PortVpn.Log.OpenVPNThread
import PortVpn.Service.MiniVPN

/-!
# The thread of the OpenVPN process

`OpenVPNThread.run` starts the process, reads what it prints until the end, and reports the end. When
the process has said that it is no position independent executable, and has failed, `run` means to
call itself once more for the binary that is none. `replacePieWithNoPie` changes the array it is
given and returns the same array, and `run` compares the two with `equals`, which for arrays is
identity: they are always equal, and the second process is never started. An item of the log whose
text cannot be made, while the log of a minidump is written, ends `run` before it has said that the
process died (`run_reports`).
-/

set_option autoImplicit false

namespace PortVpn.Service

open PortVpn.Lib PortVpn.Log

/-! ## The source -/

/-- `String.replace` of a target that is not empty; the first argument counts what is left of the
last occurrence. -/
def replaceFrom (target replacement : Text) : Nat → Text → Text
  | _, [] => []
  | n + 1, _ :: t => replaceFrom target replacement n t
  | 0, c :: t =>
      if target.isPrefixOf (c :: t) then
        replacement ++ replaceFrom target replacement (target.length - 1) t
      else c :: replaceFrom target replacement 0 t

def replace (target replacement t : Text) : Text := replaceFrom target replacement 0 t

example : replace MINIPIEVPN MININONPIEVPN "/cache/pie_openvpn.x86".toList =
    "/cache/nopie_openvpn.x86".toList := by decide

/-- The arrays of command lines, by their identity. -/
abbrev Arrays := Nat → List Text

/-- `replacePieWithNoPie`, on the array that `mArgv` refers to: it returns the reference. -/
def replacePieWithNoPie (arrays : Arrays) (mArgv : Nat) : Arrays × Nat :=
  (Function.update arrays mArgv
    ((arrays mArgv).modifyHead (replace MINIPIEVPN MININONPIEVPN)), mArgv)

/-- How `waitFor` ends. -/
inductive WaitFor where
  | exited (exitvalue : Int)
  | illegalState (message : Text)
  | interrupted (message : Text)
  deriving DecidableEq, Repr

/-- What one call of `run` meets. `start` and `close` throw where they have a message, and `noProcess`
is the message of a null pointer. The items of the log have their times, and no text where `getString`
throws; an `IOException` while they are written, in `dump`, comes after that many calls of it. -/
structure ProcessRun where
  start : Option Text
  close : Option Text
  reads : List Read
  wait : WaitFor
  mNoProcessExitStatus : Bool
  logbuffer : List (Text × Option Text)
  dump : Option (Nat × Text)
  noProcess : Text

/-- What the thread does to the outside. -/
inductive ThreadOut where
  | started (argv : List Text)
  | log (call : LogCall)
  | logError (message : Text)
  | destroyed
  | stateNoProcess
  | wroteDump (path text : Text)
  | minidumpGenerated
  | processDied
  deriving DecidableEq, Repr

/-- The fields of `OpenVPNThread`: the reference to the command line, which `buildOpenvpnArgv` may have
left `null`, and what the loop sets. -/
structure ProcessThread where
  mArgv : Option Nat
  scanned : OpenVPNThread := {}
  deriving DecidableEq, Repr

/-- What a call of `startOpenVPNThreadArgs` leaves: whether there is a process, the fields, and what
was done. -/
structure Started where
  mProcess : Bool
  scanned : OpenVPNThread
  out : List ThreadOut
  deriving DecidableEq, Repr

def startingException (message : Text) : ThreadOut :=
  .log (.logException "Starting OpenVPN Thread".toList message)

def readingException (message : Text) : ThreadOut :=
  .log (.logException "Error reading from output of OpenVPN process".toList message)

/-- What the ending of the loop does. -/
def afterReading : Ending → List ThreadOut
  | .returned => []
  | .stopProcess => [.destroyed]
  | .numberFormatException => [startingException []]

/-- The `try` block of `run`: the process is started and read from, and what is thrown is logged. The
`catch` block of `startOpenVPNThreadArgs` has no process to destroy where none was started. -/
def startProcess (cls : CharClasses) (t : ProcessThread) (arrays : Arrays) (p : ProcessRun) :
    Started :=
  match t.mArgv with
  | none => ⟨false, t.scanned, [startingException p.noProcess]⟩
  | some mArgv =>
      match p.start, p.close with
      | some message, _ =>
          ⟨false, t.scanned, [readingException message, startingException p.noProcess]⟩
      | none, some message =>
          ⟨true, t.scanned, [.started (arrays mArgv), readingException message, .destroyed]⟩
      | none, none =>
          let r := startOpenVPNThreadArgs cls t.scanned p.reads
          ⟨true, r.thread, .started (arrays mArgv) :: (r.log.map .log ++ afterReading r.ending)⟩

/-- The exit value that `run` goes by, and what it logs when `waitFor` throws. -/
def exitValue (mProcess : Bool) : WaitFor → Int × List ThreadOut
  | .exited exitvalue => (if mProcess then exitvalue else 0, [])
  | .illegalState message =>
      (0, if mProcess then [.logError ("Illegal Thread state: ".toList ++ message)] else [])
  | .interrupted message =>
      (0, if mProcess then [.logError ("InterruptedException: ".toList ++ message)] else [])

/-- What is logged of the exit value. -/
def logExit (exitvalue : Int) : List ThreadOut :=
  if exitvalue ≠ 0 then
    [.logError ("Process exited with exit value ".toList ++ Lib.decimal exitvalue)]
  else []

/-- How writing the log of a minidump ends. -/
inductive Dump where
  | closed (text : Text)
  | ioException (message : Text)
  | unchecked
  deriving DecidableEq, Repr

/-- What has been written stands before the rest. -/
def Dump.after (line : Text) : Dump → Dump
  | .closed text => .closed (line ++ text)
  | d => d

/-- The items of the log, each on its line. -/
def writeItems : Option (Nat × Text) → List (Text × Option Text) → Dump
  | some (0, message), _ => .ioException message
  | none, [] => .closed []
  | some (_ + 1, message), [] => .ioException message
  | _, (_, none) :: _ => .unchecked
  | dump, (time, some item) :: items =>
      (writeItems (dump.map fun d => (d.1 - 1, d.2)) items).after (time ++ ' ' :: item ++ ['\n'])

/-- The end of `run`, and whether it throws: only an `IOException` is caught. -/
def reportEnd (mDumpPath : Option Text) (p : ProcessRun) : List ThreadOut × Bool :=
  let state := if p.mNoProcessExitStatus then [] else [.stateNoProcess]
  match mDumpPath with
  | none => (state ++ [.processDied], false)
  | some path =>
      match writeItems p.dump p.logbuffer with
      | .closed text =>
          (state ++ [.wroteDump (path ++ ".log".toList) text, .minidumpGenerated, .processDied],
            false)
      | .ioException message =>
          (state ++ [.logError ("Writing minidump log: ".toList ++ message), .processDied], false)
      | .unchecked => (state, true)

/-- What is left when `run` returns, or throws. -/
structure Ended where
  thread : ProcessThread
  arrays : Arrays
  out : List ThreadOut
  thrown : Bool

/-- `run`. Each call of it takes one of the `ProcessRun`s; there is no result where they run out. -/
def run (cls : CharClasses) : List ProcessRun → ProcessThread → Arrays → Option Ended
  | [], _, _ => none
  | p :: later, t, arrays =>
      let s := startProcess cls t arrays p
      let t' : ProcessThread := { t with scanned := s.scanned }
      let e := exitValue s.mProcess p.wait
      let before := s.out ++ e.2 ++ logExit e.1
      let finish (t : ProcessThread) (arrays : Arrays) : Option Ended :=
        let r := reportEnd t.scanned.mDumpPath p
        some ⟨t, arrays, before ++ r.1, r.2⟩
      match t.mArgv with
      | none => finish t' arrays
      | some mArgv =>
          if e.1 ≠ 0 ∧ s.scanned.mBrokenPie then
            let noPie := replacePieWithNoPie arrays mArgv
            if noPie.2 = mArgv then finish t' noPie.1
            else
              (run cls later { t' with mArgv := some noPie.2 } noPie.1).map fun ended =>
                { ended with
                  out := before ++ .log (.logInfo
                    "PIE Version could not be executed. Trying no PIE version".toList) ::
                    ended.out }
          else finish t' arrays

/-! ## What the process has said -/

/-- The lines that the loop reads: it stops at an exception, and behind a line after which the thread
is found interrupted. -/
def linesRead : List Read → List Text
  | [] => []
  | .ioException _ :: _ => []
  | .line logline interrupted :: rest =>
      logline :: if interrupted then [] else linesRead rest

theorem thread_startOpenVPNThreadArgs (cls : CharClasses) (reads : List Read) :
    ∀ t : OpenVPNThread, (startOpenVPNThreadArgs cls t reads).thread =
      (linesRead reads).foldl OpenVPNThread.scan t := by
  induction reads with
  | nil => intro t; rfl
  | cons read reads ih =>
      intro t
      cases read with
      | ioException message => rfl
      | line logline interrupted =>
          obtain ⟨call, hcall⟩ := exists_logCall cls logline
          cases interrupted with
          | true => simp [startOpenVPNThreadArgs, hcall, linesRead, caught]
          | false => simp [startOpenVPNThreadArgs, hcall, linesRead, ih]

/-- The paths of minidumps that lines announce. -/
def announced (lines : List Text) : List Text :=
  lines.filterMap fun l =>
    if DUMP_PATH_STRING.isPrefixOf l then some (l.drop DUMP_PATH_STRING.length) else none

/-- The path is the last one that is announced. -/
theorem mDumpPath_foldl_scan (lines : List Text) (t : OpenVPNThread) :
    (lines.foldl OpenVPNThread.scan t).mDumpPath = (announced lines).getLast?.or t.mDumpPath := by
  induction lines using List.reverseRecOn with
  | nil => rfl
  | append_singleton lines l ih =>
      rw [List.foldl_append, List.foldl_cons, List.foldl_nil, announced, List.filterMap_append,
        ← announced, ← announced]
      by_cases hpre : DUMP_PATH_STRING <+: l
      · have hone : announced [l] = [l.drop DUMP_PATH_STRING.length] := by simp [announced, hpre]
        rw [hone, List.getLast?_concat]
        simp [OpenVPNThread.scan, hpre]
      · have hone : announced [l] = [] := by simp [announced, hpre]
        rw [hone, List.append_nil, ← ih]
        simp [OpenVPNThread.scan, hpre]

/-! ## What the thread reports -/

/-- The command lines of the processes that were started. -/
def starts (out : List ThreadOut) : List (List Text) :=
  out.filterMap fun
    | .started argv => some argv
    | _ => none

/-- What others learn of the end: the state, the log of a minidump, and that the process has died. -/
def ThreadOut.isReport : ThreadOut → Bool
  | .stateNoProcess | .wroteDump _ _ | .processDied => true
  | _ => false

/-- The process is started, and its output can be read. -/
def Runs (mArgv : Option Nat) (p : ProcessRun) : Prop :=
  mArgv.isSome ∧ p.start = none ∧ p.close = none

instance (mArgv : Option Nat) (p : ProcessRun) : Decidable (Runs mArgv p) :=
  inferInstanceAs (Decidable (_ ∧ _ ∧ _))

/-- The minidump whose log is written. -/
def dumped (mArgv : Option Nat) (p : ProcessRun) : Option Text :=
  if Runs mArgv p then (announced (linesRead p.reads)).getLast? else none

theorem startProcess_scanned (cls : CharClasses) (mArgv : Option Nat) (arrays : Arrays)
    (p : ProcessRun) :
    (startProcess cls ⟨mArgv, {}⟩ arrays p).scanned.mDumpPath = dumped mArgv p := by
  rw [startProcess, dumped]
  cases mArgv with
  | none => simp [Runs]
  | some r =>
      cases hstart : p.start with
      | some message => simp [Runs, hstart]
      | none =>
          cases hclose : p.close with
          | some message => simp [Runs, hstart, hclose]
          | none =>
              simp only [Runs, hstart, hclose, Option.isSome_some, and_self, if_true]
              rw [thread_startOpenVPNThreadArgs, mDumpPath_foldl_scan, Option.or_none]

/-- What reading from the process does: it starts nothing and reports nothing. -/
theorem reading_out (calls : List LogCall) (ending : Ending) :
    starts (calls.map ThreadOut.log ++ afterReading ending) = [] ∧
      (calls.map ThreadOut.log ++ afterReading ending).filter ThreadOut.isReport = [] := by
  induction calls with
  | nil => cases ending <;> exact ⟨rfl, rfl⟩
  | cons call calls ih => exact ih

theorem startProcess_out (cls : CharClasses) (mArgv : Option Nat) (arrays : Arrays)
    (p : ProcessRun) :
    let out := (startProcess cls ⟨mArgv, {}⟩ arrays p).out
    starts out = (if p.start = none then (mArgv.map arrays).toList else []) ∧
      out.filter ThreadOut.isReport = [] := by
  cases mArgv with
  | none => exact ⟨(ite_self _).symm, rfl⟩
  | some r =>
      rw [startProcess]
      cases p.start with
      | some message => exact ⟨rfl, rfl⟩
      | none =>
          cases p.close with
          | some message => exact ⟨rfl, rfl⟩
          | none =>
              have hreading := reading_out (startOpenVPNThreadArgs cls {} p.reads).log
                (startOpenVPNThreadArgs cls {} p.reads).ending
              exact ⟨congrArg (arrays r :: ·) hreading.1, hreading.2⟩

theorem starts_append (a b : List ThreadOut) : starts (a ++ b) = starts a ++ starts b :=
  List.filterMap_append

/-- Whatever `waitFor` does, nothing is started and nothing is reported on the way to the end. -/
theorem exitValue_out (mProcess : Bool) (w : WaitFor) :
    starts (exitValue mProcess w).2 = [] ∧
      (exitValue mProcess w).2.filter ThreadOut.isReport = [] := by
  cases mProcess <;> cases w <;> exact ⟨rfl, rfl⟩

/-- An item of the log has no text, and no `IOException` comes before it. -/
def Undescribed (p : ProcessRun) : Prop :=
  ∃ before time after, p.logbuffer = before ++ (time, none) :: after ∧
    (∀ item ∈ before, item.2.isSome) ∧ ∀ d ∈ p.dump, before.length < d.1

/-- The log of a minidump, if it can be written to its end. -/
def logText (p : ProcessRun) : Option Text :=
  match writeItems p.dump p.logbuffer with
  | .closed text => some text
  | _ => none

theorem Dump.after_eq_unchecked_iff {line : Text} {d : Dump} :
    d.after line = .unchecked ↔ d = .unchecked := by
  cases d <;> simp [Dump.after]

variable {dump : Option (Nat × Text)}

/-- Where no `IOException` comes first, an item without a text throws. -/
theorem writeItems_none (hdump : ∀ d ∈ dump, 0 < d.1) (time : Text)
    (items : List (Text × Option Text)) : writeItems dump ((time, none) :: items) = .unchecked := by
  rcases dump with _ | ⟨_ | n, message⟩
  · rfl
  · exact absurd (hdump _ rfl) (Nat.not_lt_zero _)
  · rfl

/-- Where no `IOException` comes first, an item with a text is written before the others. -/
theorem writeItems_some (hdump : ∀ d ∈ dump, 0 < d.1) (time text : Text)
    (items : List (Text × Option Text)) :
    writeItems dump ((time, some text) :: items) =
      (writeItems (dump.map fun d => (d.1 - 1, d.2)) items).after
        (time ++ ' ' :: text ++ ['\n']) := by
  rcases dump with _ | ⟨_ | n, message⟩
  · rfl
  · exact absurd (hdump _ rfl) (Nat.not_lt_zero _)
  · rfl

/-- **When writing throws**: at the first item without a text, unless an `IOException` ends it
before. -/
theorem writeItems_eq_unchecked_iff (items : List (Text × Option Text)) :
    ∀ dump : Option (Nat × Text), writeItems dump items = .unchecked ↔
      ∃ before time after, items = before ++ (time, none) :: after ∧
        (∀ item ∈ before, item.2.isSome) ∧ ∀ d ∈ dump, before.length < d.1 := by
  induction items with
  | nil =>
      intro dump
      refine iff_of_false ?_ (by simp)
      rcases dump with _ | ⟨_ | n, message⟩ <;> simp [writeItems]
  | cons item items ih =>
      intro dump
      obtain ⟨time, text⟩ := item
      by_cases hdump : ∀ d ∈ dump, 0 < d.1
      · cases text with
        | none => exact iff_of_true (writeItems_none hdump _ _) ⟨[], time, items, rfl, by simp, hdump⟩
        | some text =>
            rw [writeItems_some hdump, Dump.after_eq_unchecked_iff, ih]
            constructor
            · rintro ⟨before, time', after, rfl, hbefore, hlt⟩
              refine ⟨(time, some text) :: before, time', after, rfl,
                List.forall_mem_cons.2 ⟨rfl, hbefore⟩, fun d hd => ?_⟩
              have hlt := hlt (d.1 - 1, d.2) (Option.mem_map_of_mem _ hd)
              rw [List.length_cons]
              omega
            · rintro ⟨before, time', after, heq, hbefore, hlt⟩
              cases before with
              | nil => cases (List.cons.inj heq).1
              | cons item before =>
                  obtain ⟨-, rfl⟩ := List.cons.inj heq
                  refine ⟨before, time', after, rfl, (List.forall_mem_cons.1 hbefore).2, ?_⟩
                  intro d hd
                  obtain ⟨d', hd', rfl⟩ := Option.mem_map.1 hd
                  have hlt := hlt d' hd'
                  rw [List.length_cons] at hlt
                  omega
      -- the exception comes before the first item
      · push Not at hdump
        obtain ⟨⟨n, message⟩, rfl, hzero⟩ := hdump
        obtain rfl := Nat.le_zero.1 hzero
        refine iff_of_false (by simp [writeItems]) ?_
        rintro ⟨before, -, -, -, -, hlt⟩
        exact absurd (hlt _ rfl) (Nat.not_lt_zero _)

theorem reportEnd_out (mDumpPath : Option Text) (p : ProcessRun) :
    starts (reportEnd mDumpPath p).1 = [] ∧
      ((reportEnd mDumpPath p).2 = true ↔ mDumpPath.isSome ∧ Undescribed p) ∧
      (reportEnd mDumpPath p).1.filter ThreadOut.isReport =
        (if p.mNoProcessExitStatus then [] else [.stateNoProcess]) ++
        (mDumpPath.toList.flatMap fun path =>
          (logText p).toList.map (.wroteDump (path ++ ".log".toList))) ++
        if (reportEnd mDumpPath p).2 then [] else [.processDied] := by
  rw [Undescribed, ← writeItems_eq_unchecked_iff, logText]
  unfold reportEnd
  cases mDumpPath with
  | none => cases p.mNoProcessExitStatus <;> exact ⟨rfl, by simp, rfl⟩
  | some path =>
      dsimp only
      cases writeItems p.dump p.logbuffer with
      | closed text => cases p.mNoProcessExitStatus <;> exact ⟨rfl, by simp, rfl⟩
      | ioException message => cases p.mNoProcessExitStatus <;> exact ⟨rfl, by simp, rfl⟩
      | unchecked => cases p.mNoProcessExitStatus <;> exact ⟨rfl, by simp, rfl⟩

/-- The array that `replacePieWithNoPie` returns is the one it was given, so `run` does not go on
with the next process. -/
theorem run_cons (cls : CharClasses) (p : ProcessRun) (later : List ProcessRun) (t : ProcessThread)
    (arrays : Arrays) :
    ∃ ended, run cls (p :: later) t arrays = some ended ∧
      ended.thrown = (reportEnd (startProcess cls t arrays p).scanned.mDumpPath p).2 ∧
      ended.out =
        (startProcess cls t arrays p).out ++
        (exitValue (startProcess cls t arrays p).mProcess p.wait).2 ++
        logExit (exitValue (startProcess cls t arrays p).mProcess p.wait).1 ++
        (reportEnd (startProcess cls t arrays p).scanned.mDumpPath p).1 := by
  rw [run]
  obtain ⟨mArgv, scanned⟩ := t
  cases mArgv with
  | none => exact ⟨_, rfl, rfl, rfl⟩
  | some r =>
      dsimp only
      split
      · exact ⟨_, if_pos rfl, rfl, rfl⟩
      · exact ⟨_, rfl, rfl, rfl⟩

/-- **The thread's work, whole.** Whatever the process prints and however it ends, `run` ends. It
starts no second process, it reports the state unless the session is replaced, it writes the log of
the last minidump that the process has announced, and it says once, last, that the process died; only
an item without a text in that log makes it throw, and then it does not say so. -/
theorem run_reports (cls : CharClasses) (mArgv : Option Nat) (arrays : Arrays) (p : ProcessRun)
    (later : List ProcessRun) :
    ∃ ended, run cls (p :: later) ⟨mArgv, {}⟩ arrays = some ended ∧
      starts ended.out = (if p.start = none then (mArgv.map arrays).toList else []) ∧
      (ended.thrown = true ↔ (dumped mArgv p).isSome ∧ Undescribed p) ∧
      ended.out.filter ThreadOut.isReport =
        (if p.mNoProcessExitStatus then [] else [.stateNoProcess]) ++
        ((dumped mArgv p).toList.flatMap fun path =>
          (logText p).toList.map (.wroteDump (path ++ ".log".toList))) ++
        if ended.thrown then [] else [.processDied] := by
  obtain ⟨ended, hrun, hthrown, hout⟩ := run_cons cls p later ⟨mArgv, {}⟩ arrays
  obtain ⟨hstarts, hreports⟩ := startProcess_out cls mArgv arrays p
  obtain ⟨hexit, hexit'⟩ :=
    exitValue_out (startProcess cls ⟨mArgv, {}⟩ arrays p).mProcess p.wait
  have hlog : ∀ exitvalue, starts (logExit exitvalue) = [] ∧
      (logExit exitvalue).filter ThreadOut.isReport = [] := by
    intro exitvalue
    rw [logExit]
    split <;> exact ⟨rfl, rfl⟩
  rw [startProcess_scanned] at hthrown hout
  obtain ⟨hend, hends, hend'⟩ := reportEnd_out (dumped mArgv p) p
  refine ⟨ended, hrun, ?_, ?_, ?_⟩
  · rw [hout, starts_append, starts_append, starts_append, hstarts, hexit, (hlog _).1, hend]
    simp
  · rw [hthrown, hends]
  · rw [hout, hthrown, List.filter_append, List.filter_append, List.filter_append, hreports, hexit',
      (hlog _).2, hend']
    simp

end PortVpn.Service
