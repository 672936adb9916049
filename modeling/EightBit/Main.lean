import EightBit.CommandLine

namespace EightBit
namespace CommandLine

/-!
# The program

This module connects the command line to files, streams and the clock.  It
reads the program file or standard input, drives the run in pieces so that
values appear while it goes on, and writes what the session leaves.
-/

/-- Whether a reported error number is the given one.  Some calls report it
negated. -/
def isErrorNumber (number reported : UInt32) : Bool :=
  reported = number || reported = 0 - number

/-- What a path leads to on this computer. -/
def entryOf (path : Files.Path) : IO Files.Entry := do
  if path.parts.any fun part => '\x00' ∈ part.toList then return .unnameable
  try
    return .file (← IO.FS.readBinFile path.toText)
  catch
    | .noFileOrDirectory .. => return .missing
    | .inappropriateType _ code _ =>
      return if isErrorNumber 21 code then .directory else .blocked
    | .invalidArgument file code details =>
      if isErrorNumber 36 code then return .overlong
      throw (.invalidArgument file code details)
    | error => throw error

def pauseOf : Text.Real → Option UInt32
  | .finite false digits exponent =>
    if digits = 0 then none
    else if exponent < -1000 then some 0
    else
      let power := exponent + 3
      let milliseconds :=
        if 12 < power then UInt32.size - 1
        else if 0 ≤ power then digits * Nat.pow 10 power.toNat
        else digits / Nat.pow 10 (-power).toNat
      some (UInt32.ofNat (min milliseconds (UInt32.size - 1)))
  | .infinite false => some (UInt32.ofNat (UInt32.size - 1))
  | _ => none

def writeLines (stream : IO.FS.Stream) (lines : List String) : IO Unit := do
  stream.putStr (linesText lines)
  stream.flush

/-- Writes the emitted values that are not shown yet. -/
def showValues (shown : Nat) (machine : Machine) : IO Unit := do
  let fresh := machine.emissions.toList.drop shown
  writeLines (← IO.getStdout) (fresh.map fun emission => Console.valueLine emission.value)

/-- Writes the notes that were made and tears them out of the journal. -/
def showNotes (machine : Machine) : IO Machine := do
  if let .ok lines := machine.journal.lines then writeLines (← IO.getStderr) lines
  return { machine with journal := machine.journal.cleared }

/-- Drives a run to its end, piece by piece. -/
partial def driveOn (settings : Console.Settings) (executed shown : Nat) (machine : Machine) :
    IO (Machine.Progress × Nat) := do
  let pause := pauseOf settings.interval
  let fuel := if pause.isSome then 1 else 4096
  match machine.drive (Console.wiring settings) settings.maxCycles fuel executed with
  | .unfinished executed machine =>
    showValues shown machine
    let shown := machine.emissions.size
    let machine ← showNotes machine
    if let some milliseconds := pause then IO.sleep milliseconds
    driveOn settings executed shown machine
  | progress => return (progress, shown)

/-- Ends the program by a failure that it does not handle. -/
def abort (failure : Console.Failure) : IO UInt32 := do
  writeLines (← IO.getStderr) [failure.message]
  return 1

/-- Writes what a session leaves that is not shown yet, and gives the exit
status. -/
def finish (session : Console.Report) (shown : Nat) : IO UInt32 := do
  if let some machine := session.machine then showValues shown machine
  match session.diagnosticLines with
  | .error cause => abort (.overflow cause)
  | .ok diagnostics =>
    let errors ← IO.getStderr
    writeLines errors (diagnostics ++ session.traceLines)
    let (outcome, line) := ending session.failure
    errors.putStr line
    match outcome with
    | .exit status => return UInt32.ofNat status
    | .failure failure => abort failure

def runSession (settings : Console.Settings) (host : Console.Host) : IO UInt32 := do
  match Console.opening settings host with
  | .error session => finish session 0
  | .ok (program, machine) =>
    let (ended, shown) ←
      match settings.flaw with
      | some flaw => pure (Console.breakdown settings program flaw machine, 0)
      | none => do
        let (progress, shown) ← driveOn settings 0 0 machine.started
        pure (Console.closing settings program progress, shown)
    match ended with
    | some session => finish session shown
    | none => return 1

def writeReport (report : Report) : IO UInt32 := do
  (← IO.getStdout).putStr report.output
  (← IO.getStderr).putStr report.errors
  match report.outcome with
  | .exit status => return UInt32.ofNat status
  | .failure failure => abort failure

def perform (arguments : List String) : IO UInt32 := do
  match Options.parse arguments with
  | .error stop => writeReport (.ofStop stop)
  | .ok options =>
    let entry ← match options.program with
      | some text => entryOf (.ofText text)
      | none => pure .missing
    match settings options fun _ => entry with
    | .error obstacle => writeReport (.ofObstacle obstacle)
    | .ok settings =>
      let input ← match settings.program with
        | some _ => pure ByteArray.empty
        | none => (← IO.getStdin).readBinToEnd
      let wanted := (← IO.getEnv diagnosticsVariable).getD ""
      runSession settings { entry := fun _ => entry, input, selection := .ofText wanted }

end CommandLine
end EightBit

def main (arguments : List String) : IO UInt32 :=
  EightBit.CommandLine.perform arguments
