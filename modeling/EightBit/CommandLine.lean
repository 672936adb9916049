import EightBit.CommandLine.Arguments
import EightBit.Console

namespace EightBit
namespace CommandLine

/-!
# The command line

The program is called with options and the path of a program.  Wrong arguments
end it with status 2 before anything is executed; a refused program or a trap
ends it with status 1 and one line on the error stream.
-/

def usageText : String :=
  "usage: ls8 [-h] [--memory-size MEMORY_SIZE] [--strict] [--trace N]\n" ++
  "           [--interval SECONDS] [--max-cycles N]\n" ++
  "           [program]\n"

def helpText : String :=
  usageText ++
  "\n" ++
  "LS-8 eight-bit virtual machine\n" ++
  "\n" ++
  "positional arguments:\n" ++
  "  program               Machine-code file to run (default: read from standard\n" ++
  "                        input)\n" ++
  "\n" ++
  "options:\n" ++
  "  -h, --help            show this help message and exit\n" ++
  "  --memory-size MEMORY_SIZE\n" ++
  "                        Number of bytes of RAM (default: 256)\n" ++
  "  --strict              Fail on undefined opcodes instead of halting\n" ++
  "  --trace N             Dump the last N executed cycles to stderr after the\n" ++
  "                        run\n" ++
  "  --interval SECONDS    Delay between cycles (default: run as fast as\n" ++
  "                        possible)\n" ++
  "  --max-cycles N        Stop after N cycles even if the program has not halted\n"

/-- The environment variable that selects diagnostics. -/
def diagnosticsVariable : String := "LS8_DEBUG"

/-- How the program ends: with an exit status, or by a failure that it does not
handle. -/
inductive Outcome where
  | exit (status : Nat)
  | failure (failure : Console.Failure)
deriving DecidableEq, Repr

/-- All that the program leaves: its end and the two output streams. -/
structure Report where
  outcome : Outcome
  output : String := ""
  errors : String := ""
deriving DecidableEq, Repr

def linesText (lines : List String) : String :=
  String.join (lines.map fun line => line ++ "\n")

def errorLine (message : String) : String :=
  "ls8: " ++ message ++ "\n"

namespace Report

def ofUsage (error : UsageError) : Report where
  outcome := .exit 2
  errors := usageText ++ errorLine ("error: " ++ error.message)

/-- The report when parsing stopped early. -/
def ofStop : Stop → Report
  | .help => { outcome := .exit 0, output := helpText }
  | .usage error => ofUsage error

end Report

/-- Whether the program ends with an error line when a session fails so.  Files
that cannot be read or decoded and sizes that cannot be had are not handled. -/
def handles : Console.Failure → Bool
  | .assembly (.memory .notPositive) => true
  | .loading (.format _) => true
  | .loading (.address _) => true
  | .fault fault => fault.isTrap
  | _ => false

/-- Why options make no session: they are refused, or the program fails over
them. -/
inductive Obstacle where
  | usage (error : UsageError)
  | failure (failure : Console.Failure)
deriving DecidableEq, Repr

/-- The report on options that make no session. -/
def Report.ofObstacle : Obstacle → Report
  | .usage error => ofUsage error
  | .failure failure => { outcome := .failure failure }

def presentProgram (options : Options) (entry : Files.Path → Files.Entry) :
    Except Obstacle (Option Files.Path) :=
  match options.program.map Files.Path.ofText with
  | none => .ok none
  | some path =>
    match entry path with
    | .overlong => .error (.failure (.reading (.overlong path)))
    | found =>
      if found.present then .ok (some path) else .error (.usage (.programMissing path.toText))

def memoryLength (options : Options) : Except Obstacle Int :=
  match options.memorySize with
  | .value length => if length ≤ 0 then .error (.usage .memorySize) else .ok length
  | .nothing => .error (.failure (.incomparable ⟨"<=", true⟩))

/-- The limit of the trace.  A negative one counts as zero. -/
def traceLimit (options : Options) : Except Obstacle Int :=
  match options.trace with
  | .value limit => .ok (max limit 0)
  | .nothing => .error (.failure (.incomparable ⟨">", false⟩))

/-- The flaw of a run without a budget to compare with or without a pause.  The
budget is looked at first. -/
def flaw (options : Options) : Option Console.Flaw :=
  if options.maxCycles = .nothing then some .budget
  else if options.interval = .nothing then some .pause
  else none

def settings (options : Options) (entry : Files.Path → Files.Entry) :
    Except Obstacle Console.Settings := do
  let program ← presentProgram options entry
  let memoryLength ← memoryLength options
  let traceLimit ← traceLimit options
  return {
    program
    memoryLength
    strict := options.strict
    traceLimit
    maxCycles := options.maxCycles.getD none
    interval := options.interval.getD (.finite false 0 0)
    flaw := flaw options }

/-- How a session ends the program, and the line that it adds to the error
stream. -/
def ending (failure : Option Console.Failure) : Outcome × String :=
  match failure with
  | none => (.exit 0, "")
  | some failure =>
    if handles failure then (.exit 1, errorLine failure.message) else (.failure failure, "")

def Report.ofSession (session : Console.Report) : Report :=
  let output := linesText session.outputLines
  match session.diagnosticLines with
  | .error cause => { outcome := .failure (.overflow cause), output }
  | .ok diagnostics =>
    let (outcome, line) := ending session.failure
    { outcome, output, errors := linesText (diagnostics ++ session.traceLines) ++ line }

/-- The whole program, whose run takes at most `fuel` cycles. -/
def execute (arguments : List String) (host : Console.Host) (fuel : Nat) : Option Report :=
  match Options.parse arguments with
  | .error stop => some (.ofStop stop)
  | .ok options =>
    match settings options host.entry with
    | .error obstacle => some (.ofObstacle obstacle)
    | .ok settings => (Console.session settings host fuel).map .ofSession

end CommandLine
end EightBit
