import EightBit.Files
import EightBit.Machine.Loading
import EightBit.Machine.Run
import EightBit.Text.Number

namespace EightBit
namespace Console

/-!
# Console sessions

A session loads one program, runs it, and shows the values it emits and, at
the end, its trace.  Opening and closing are separate, so that whoever drives
the run in between can show values as they come.
-/

/-- A comparison without an answer, between a number and a setting that has no
value.  The setting stands before the operator or behind it. -/
structure Incomparable where
  operator : String
  settingFirst : Bool
deriving DecidableEq, Repr

/-- The message of a comparison without an answer.  What is in the place of a
value is an empty list. -/
def Incomparable.message (comparison : Incomparable) : String :=
  let (left, right) := if comparison.settingFirst then ("list", "int") else ("int", "list")
  "'" ++ comparison.operator ++ "' not supported between instances of '" ++ left ++ "' and '" ++
    right ++ "'"

/-- A setting without a value that only the run stumbles over. -/
inductive Flaw where
  /-- The number of executed cycles cannot be compared with the budget, so there
  is no first cycle. -/
  | budget
  /-- The pause after the first cycle cannot be compared with zero, so there is
  no second one. -/
  | pause
deriving DecidableEq, Repr

/-- The comparison that a flaw leaves without an answer. -/
def Flaw.comparison : Flaw → Incomparable
  | budget => ⟨">=", false⟩
  | pause => ⟨">", true⟩

/-- What a session is asked to do. -/
structure Settings where
  /-- Where the program is; without a path it comes from standard input. -/
  program : Option Files.Path := none
  memoryLength : Int := Memory.defaultLength
  strict : Bool := false
  traceLimit : Int := 0
  maxCycles : Option Int := none
  /-- The seconds between two cycles.  They change no result as long as they can
  be waited for.  Infinitely many, or too many for the clock, cannot; the failure
  after the first cycle that they cause is not told here. -/
  interval : Text.Real := .finite false 0 0
  flaw : Option Flaw := none
deriving DecidableEq, Repr

/-- What surrounds a session: what paths lead to, the bytes of standard input,
the diagnostics that are wanted, and what there is room for. -/
structure Host where
  entry : Files.Path → Files.Entry
  input : ByteArray
  selection : Diagnostics.Selection
  room : Extent.Room := {}

/-- Why a session failed. -/
inductive Failure where
  | assembly (error : Machine.AssemblyError)
  | reading (error : Files.ReadError)
  | loading (error : Machine.LoadError)
  | fault (fault : Fault)
  | overflow (cause : Text.Template.Overflow)
  | incomparable (comparison : Incomparable)
deriving DecidableEq, Repr

namespace Failure

def message : Failure → String
  | assembly (.memory error) => error.message
  | assembly (.trace error) => error.message
  | reading error => error.message
  | loading error => error.message
  | fault error => error.message
  | overflow cause => cause.message
  | incomparable comparison => comparison.message

end Failure

/-- A session after its end: its machine and its program as far as there are
any, the lines that show the trace, and what went wrong. -/
structure Report where
  machine : Option Machine := none
  program : Option Program := none
  traceLines : List String := []
  /-- The trace as diagnostic messages. -/
  dumped : List String := []
  failure : Option Failure := none

/-- The wiring of a session.  Its device takes every value. -/
def wiring (settings : Settings) : Wiring where
  strict := settings.strict

def valueLine (value : Int) : String :=
  Numeral.decimal value

/-- The name of a program from standard input. -/
def inputName : String := "<stdin>"

def load (settings : Settings) (host : Host) (machine : Machine) :
    Except (Failure × Machine) (Program × Machine) :=
  let source : Except Failure (String × ByteArray) :=
    match settings.program with
    | some path =>
      ((Files.read path (host.entry path)).mapError .reading).map fun bytes => (path.name, bytes)
    | none => .ok (inputName, host.input)
  match source with
  | .error failure => .error (failure, machine)
  | .ok (name, bytes) =>
    match Machine.loadFile name .utf8 bytes machine with
    | .ok program after => .ok (program, after)
    | .error error after => .error (.loading error, after)

/-- Makes the machine of a session and loads its program.  A session that cannot
be opened has ended. -/
def opening (settings : Settings) (host : Host) : Except Report (Program × Machine) :=
  match Machine.assemble settings.memoryLength settings.traceLimit host.selection host.room with
  | .error error => .error { failure := some (.assembly error) }
  | .ok machine =>
    match load settings host machine with
    | .ok opened => .ok opened
    | .error (failure, after) => .error { machine := some after, failure := some failure }

/-- Shows the trace of a machine whose run is over: on the error stream when the
session asks for it, else among the diagnostics when they want it. -/
def showTrace (settings : Settings) (program : Program) (machine : Machine)
    (failure : Option Failure) : Report :=
  let report : Report := { machine := some machine, program := some program, failure }
  match machine.trace with
  | none => report
  | some trace =>
    if 0 < settings.traceLimit then
      { report with traceLines := trace.lines (some settings.traceLimit) }
    else
      let category := Diagnostics.Category.trace.name
      match trace.dump machine.journal.selection category (some Machine.defaultTraceCapacity) with
      | .ok dumped => { report with dumped }
      | .error cause => { report with failure := some (.overflow cause) }

/-- Ends a session after its run. -/
def closing (settings : Settings) (program : Program) (progress : Machine.Progress) :
    Option Report :=
  match progress with
  | .unfinished _ _ => none
  | .returned executed machine =>
    let noted := { machine with
      journal := machine.journal.add (.finished executed machine.halted) }
    some (showTrace settings program noted none)
  | .faulted fault _ machine => some (showTrace settings program machine (some (.fault fault)))

/-- Ends a session whose run has a flaw.  A first cycle that fails, or a budget
that allows none, comes before the pause. -/
def breakdown (settings : Settings) (program : Program) (flaw : Flaw) (machine : Machine) :
    Option Report :=
  let failure : Failure := .incomparable flaw.comparison
  let started := machine.started
  match flaw with
  | .budget => some (showTrace settings program started.stop (some failure))
  | .pause =>
    if started.goesOn settings.maxCycles 0 then
      match Machine.cycle (wiring settings) started with
      | .ok _ after => some (showTrace settings program after.stop (some failure))
      | .error fault after => closing settings program (.faulted fault 0 after.stop)
    else closing settings program (.returned 0 (started.conclude 0))

/-- A whole session whose run takes at most `fuel` cycles. -/
def session (settings : Settings) (host : Host) (fuel : Nat) : Option Report :=
  match opening settings host with
  | .error report => some report
  | .ok (program, machine) =>
    match settings.flaw with
    | some flaw => breakdown settings program flaw machine
    | none => closing settings program (machine.run (wiring settings) settings.maxCycles fuel)

namespace Report

def outputLines (report : Report) : List String :=
  match report.machine with
  | some machine => machine.emissions.toList.map fun emission => valueLine emission.value
  | none => []

/-- The diagnostic messages, in the order they were made. -/
def diagnosticLines (report : Report) : Except Text.Template.Overflow (List String) :=
  match report.machine with
  | some machine => machine.journal.lines.map fun lines => lines ++ report.dumped
  | none => .ok []

end Report
end Console
end EightBit
