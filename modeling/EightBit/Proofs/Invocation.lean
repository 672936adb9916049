import EightBit.Proofs.Loading
import EightBit.Proofs.Noting
import EightBit.Proofs.Recording
import EightBit.Proofs.Sessions

namespace EightBit

/-!
# Calling the program

What a call of the program leaves is told here by the cycles of its machine alone, without
sessions and reports: the exit status, the values on standard output, and on the error stream
the lines of the latest cycles before the line of the error, if there is one.

A call goes through stages: arguments, settings, a machine, a program in its memory, a run,
and the report.  Each has its own lemma.  The trace and the journal only watch the run, so its
cycles are those of a machine without them.
-/

open Machine

namespace Machine

variable {wiring : Wiring} {machine : Machine}

theorem entry_unwatched (wiring : Wiring) (machine : Machine) :
    machine.entry wiring = machine.unwatched.entry wiring := by
  have registers : (machine.next wiring).registers = (machine.unwatched.next wiring).registers :=
    eq_of_unwatched registers (fun _ => rfl) (next_unwatched wiring machine)
  have halted : (machine.next wiring).halted = (machine.unwatched.next wiring).halted :=
    eq_of_unwatched Machine.halted (fun _ => rfl) (next_unwatched wiring machine)
  simp only [entry, registers, halted]
  rfl

theorem entries_unwatched (wiring : Wiring) (machine : Machine) (count : Nat) :
    machine.entries wiring count = machine.unwatched.entries wiring count := by
  refine List.map_congr_left fun time _ => ?_
  rw [entry_unwatched, after_unwatched, ← entry_unwatched]

/-- Whether and where a run stops does not depend on what watches the machine. -/
theorem stops_unwatched {budget : Option Int} {executed count : Nat} {fault : Option Fault} :
    Stops wiring budget machine executed fault count ↔
      Stops wiring budget machine.unwatched executed fault count := by
  have goesOn : ∀ time, (machine.after wiring time).goesOn budget (executed + time) =
      (machine.unwatched.after wiring time).goesOn budget (executed + time) := fun time =>
    eq_of_unwatched (fun machine => machine.goesOn budget (executed + time)) (fun _ => rfl)
      (after_unwatched wiring machine time)
  have succeeds : ∀ time, (machine.after wiring time).succeeds wiring =
      (machine.unwatched.after wiring time).succeeds wiring := fun time => by
    rw [succeeds_unwatched, after_unwatched, ← succeeds_unwatched]
  have fails : ∀ time, (machine.after wiring time).fault? wiring =
      (machine.unwatched.after wiring time).fault? wiring := fun time => by
    rw [fault?_unwatched, after_unwatched, ← fault?_unwatched]
  constructor
  · rintro ⟨passes, stays, failing⟩
    simp only [goesOn, succeeds, fails] at passes stays failing
    exact ⟨passes, stays, failing⟩
  · rintro ⟨passes, stays, failing⟩
    simp only [← goesOn, ← succeeds, ← fails] at passes stays failing
    exact ⟨passes, stays, failing⟩

/-- Under a device that takes every value a cycle fails by a trap alone, and emits nothing
then. -/
theorem trap_of_fault? (takes : ∀ index, (wiring.device index).fails = false) {fault : Fault}
    (failed : machine.fault? wiring = some fault) :
    fault.isTrap = true ∧ (machine.next wiring).emissions = machine.emissions := by
  have ended := (fault?_eq_some_iff wiring machine fault).mp failed
  rcases cycle_eq_error ended with ⟨failure, _, _, fault_eq, _⟩ | ⟨_, _, _, refused, _, _⟩
  · have isTrap : fault.isTrap = true := fault_eq ▸ failure.isTrap
    refine ⟨isTrap, (halted_of_trap ended ?_).2⟩
    rintro rfl
    cases isTrap
  · simp [refuses, takes] at refused

/-- A machine that wants no notes has the same journal after any number of cycles. -/
theorem journal_after (quiet : machine.journal.selection = .nothing) (count : Nat) :
    (machine.after wiring count).journal = machine.journal := by
  induction count with
  | zero => rfl
  | succ count inductionHypothesis =>
      have continues := notes_cycle wiring (machine.after wiring count)
      rw [inductionHypothesis] at continues
      rw [Machine.after, next_eq_outcomeOf]
      exact continues.eq_of_nothing quiet

end Machine

namespace CommandLine

/-- A text that a session can read its program from, after its line ends were brought to one
form, with the name that the program gets. -/
inductive Supplied (options : Options) (host : Console.Host) : (name text : String) → Prop where
  | input {decoded : String} (unnamed : options.program = none)
      (decodes : Text.Encoding.utf8.decode host.input = .ok decoded) :
      Supplied options host Console.inputName
        (String.ofList (Text.unixLineEnds decoded.toList))
  | file {path : Files.Path} {bytes : ByteArray} {decoded : String}
      (named : options.program.map Files.Path.ofText = some path)
      (found : host.entry path = .file bytes)
      (decodes : Text.Encoding.utf8.decode bytes = .ok decoded) :
      Supplied options host path.name (String.ofList (Text.unixLineEnds decoded.toList))

/-- Arguments that ask for a memory of some size, a trace of some capacity and a budget, on a
host where no diagnostics are wanted.  Memory and trace can be had. -/
structure Asks (arguments : List String) (host : Console.Host) (options : Options) (size : Nat)
    (capacity : Int) (budget : Option Int) : Prop where
  parsed : Options.parse arguments = .ok options
  memory : options.memorySize = .value size
  positive : 0 < size
  trace : options.trace = .value capacity
  cycles : options.maxCycles = .value budget
  paused : ∃ interval, options.interval = .value interval
  quiet : host.selection = .ofText ""
  memoryFits : host.room.memory.excess? size = none
  traceFits : host.room.trace.excess? capacity = none

/-- The machine at the start of its run: nothing but the bytes of the program is in its
memory, from address zero on. -/
def startOf (program : Program) {size : Nat} (positive : 0 < size) : Machine :=
  started { memory := (Memory.zeroed size positive).overlay program.bytes 0 }

def Report.refused (message : String) : Report where
  outcome := .exit 1
  errors := errorLine message

/-- The lines of the latest cycles, at most as many as the capacity says. -/
def latestLines (wiring : Wiring) (start : Machine) (completed : Nat) (capacity : Int) :
    List String :=
  ((start.entries wiring completed).map TraceEntry.line).rtake capacity.toNat

theorem length_latestLines (wiring : Wiring) (start : Machine) (completed : Nat)
    (capacity : Int) :
    (latestLines wiring start completed capacity).length =
      min (max capacity 0).toNat completed := by
  simp only [latestLines, List.rtake, List.length_drop, List.length_map, entries,
    List.length_range]
  omega

/-- The report on a run that has completed so many cycles and was ended by a fault or not. -/
def Report.ofRun (wiring : Wiring) (start : Machine) (capacity : Int) (fault : Option Fault)
    (completed : Nat) : Report where
  outcome := .exit (if fault.isSome then 1 else 0)
  output := linesText ((start.after wiring completed).values.map Numeral.decimal)
  errors := linesText (latestLines wiring start completed capacity) ++
    (fault.map fun fault => errorLine fault.message).getD ""

theorem ofRun_unwatched (wiring : Wiring) (start : Machine) (capacity : Int)
    (fault : Option Fault) (completed : Nat) :
    Report.ofRun wiring start capacity fault completed =
      .ofRun wiring start.unwatched capacity fault completed := by
  have values : (start.after wiring completed).values =
      (start.unwatched.after wiring completed).values :=
    eq_of_unwatched Machine.values (fun _ => rfl) (after_unwatched wiring start completed)
  simp only [Report.ofRun, latestLines, values, entries_unwatched wiring start]

variable {arguments : List String} {host : Console.Host} {options : Options} {size : Nat}
  {capacity : Int} {budget : Option Int} {name text : String}

/-!
## Stages before the run
-/

/-- The trace that a session has which asks for a capacity. -/
def ringOf (capacity : Int) : Option Trace :=
  if positive : 0 < capacity then
    some (.empty capacity.toNat (Extent.toNat_pos positive))
  else none

def assembled (positive : 0 < size) (capacity : Int) : Machine where
  memory := .zeroed size positive
  trace := ringOf capacity

theorem presentProgram_of_named {entry : Files.Path → Files.Entry} {path : Files.Path}
    (named : options.program.map Files.Path.ofText = some path)
    (short : entry path ≠ .overlong) :
    presentProgram options entry =
      if (entry path).present then .ok (some path)
      else .error (.usage (.programMissing path.toText)) := by
  simp only [presentProgram, named]

def settingsOf (options : Options) (size : Nat) (capacity : Int) (budget : Option Int) :
    Console.Settings where
  program := options.program.map Files.Path.ofText
  memoryLength := size
  strict := options.strict
  traceLimit := max capacity 0
  maxCycles := budget
  interval := options.interval.getD (.finite false 0 0)

theorem Asks.settings_eq (asks : Asks arguments host options size capacity budget)
    (supplied : Supplied options host name text) :
    settings options host.entry = .ok (settingsOf options size capacity budget) := by
  rcases asks.paused with ⟨interval, paused⟩
  have present : presentProgram options host.entry =
      .ok (options.program.map Files.Path.ofText) := by
    cases supplied with
    | input unnamed _ => simp only [presentProgram, unnamed, Option.map_none]
    | @file path _ _ named found _ =>
        have short : host.entry path ≠ .overlong := by
          intro overlong
          cases found.symm.trans overlong
        rw [presentProgram_of_named named short, found, named]
        rfl
  have positive : ¬ (size : Int) ≤ 0 := by
    have := asks.positive
    omega
  have lengthAsked : memoryLength options = .ok size := by
    simp only [memoryLength, asks.memory, if_neg positive]
  have limitAsked : traceLimit options = .ok (max capacity 0) := by
    simp only [traceLimit, asks.trace]
  have flawless : flaw options = none := by
    simp only [flaw, asks.cycles, paused, reduceCtorEq, if_false]
  rw [settings, present, lengthAsked, limitAsked, flawless, asks.cycles]
  rfl

theorem execute_of_settings {asked : Console.Settings}
    (parsed : Options.parse arguments = .ok options)
    (built : settings options host.entry = .ok asked) (fuel : Nat) :
    execute arguments host fuel = (Console.session asked host fuel).map .ofSession := by
  unfold execute
  rw [parsed]
  dsimp only
  rw [built]

theorem assemble_eq {room : Extent.Room} (positive : 0 < size)
    (memoryFits : room.memory.excess? size = none)
    (traceFits : room.trace.excess? capacity = none) :
    assemble size (max capacity 0) .nothing room = .ok (assembled positive capacity) := by
  have positive' : (0 : Int) < size := Int.ofNat_lt.mpr positive
  have made : Memory.create size room.memory = .ok (.zeroed size positive) := by
    rw [Memory.create, dif_pos positive', memoryFits]
    rfl
  have wanted : Diagnostics.Selection.nothing.includes .trace = false := rfl
  simp only [assemble, made, wanted, Bool.false_eq_true, and_false, if_false, assembled, ringOf]
  by_cases traced : 0 < capacity
  · have same : max capacity 0 = capacity := Int.max_eq_left (Int.le_of_lt traced)
    simp only [same, if_pos traced, dif_pos traced, Trace.create, traceFits]
    rfl
  · have none_asked : ¬ 0 < max capacity 0 := by omega
    simp only [if_neg none_asked, dif_neg traced]
    rfl

/-- A session loads its program from the text that it is supplied with. -/
theorem Supplied.load_eq (supplied : Supplied options host name text) (machine : Machine) :
    Console.load (settingsOf options size capacity budget) host machine =
      Console.loadingOf (loadText name text machine) := by
  rw [Console.load_eq, Console.source, settingsOf]
  cases supplied with
  | input unnamed decodes =>
      rw [unnamed]
      simp only [Option.map_none, loadFile, decodes]
  | file named found decodes =>
      rw [named]
      dsimp only
      rw [found]
      simp only [Files.read, Except.mapError, Except.map, loadFile, decodes]

theorem Asks.opening_eq (asks : Asks arguments host options size capacity budget)
    (supplied : Supplied options host name text) :
    Console.opening (settingsOf options size capacity budget) host =
      Console.openingOf (Console.loadingOf
        (loadText name text (assembled asks.positive capacity))) := by
  have quiet : host.selection = .nothing := asks.quiet.trans (by decide)
  have made := assemble_eq asks.positive asks.memoryFits asks.traceFits
  rw [Console.opening_eq, quiet]
  simp only [settingsOf, made]
  exact congrArg Console.openingOf (supplied.load_eq _)

/-- A program that is refused ends the call with its message. -/
theorem Asks.execute_of_refused (asks : Asks arguments host options size capacity budget)
    (supplied : Supplied options host name text) {error : LoadError}
    (refused : loadText name text (assembled asks.positive capacity) =
      .error error (assembled asks.positive capacity))
    (handled : handles (.loading error) = true) (fuel : Nat) :
    execute arguments host fuel = some (.refused error.message) := by
  have opened := asks.opening_eq supplied
  rw [refused] at opened
  rw [execute_of_settings asks.parsed (asks.settings_eq supplied), Console.session, opened]
  simp only [Console.loadingOf, Console.openingOf, Option.map_some, Report.ofSession,
    Console.Report.diagnosticLines, Journal.lines, assembled, ending, handled]
  rfl

/-!
## The run and its report
-/

def loaded (program : Program) (positive : 0 < size) (capacity : Int) : Machine :=
  { assembled positive capacity with
    memory := (Memory.zeroed size positive).overlay program.bytes 0 }

theorem showTrace_eq {settings : Console.Settings} {machine : Machine}
    (entries : List TraceEntry) (program : Program) (failure : Option Console.Failure)
    (limit : settings.traceLimit = max capacity 0)
    (traced : machine.trace = (ringOf capacity).map fun trace => trace.appendAll entries) :
    Console.showTrace settings program machine failure =
      { machine := some machine
        program := some program
        traceLines := (entries.map TraceEntry.line).rtake capacity.toNat
        failure } := by
  by_cases positive : 0 < capacity
  · have same : max capacity 0 = capacity := Int.max_eq_left (Int.le_of_lt positive)
    rw [ringOf, dif_pos positive] at traced
    simp only [Console.showTrace, traced, limit, Option.map_some, same, if_pos positive]
    rw [Trace.lines_appendAll]
  · have nothing : capacity.toNat = 0 := by omega
    rw [ringOf, dif_neg positive] at traced
    simp only [Console.showTrace, traced, Option.map_none, nothing, List.rtake_zero]

/-- The report on a session that shows its trace at the end. -/
theorem ofSession_showTrace {settings : Console.Settings} {machine : Machine}
    (entries : List TraceEntry) (program : Program) (failure : Option Console.Failure)
    (limit : settings.traceLimit = max capacity 0) (quiet : machine.journal = ⟨.nothing, #[]⟩)
    (traced : machine.trace = (ringOf capacity).map fun trace => trace.appendAll entries) :
    Report.ofSession (Console.showTrace settings program machine failure) =
      { outcome := (ending failure).1
        output := linesText (machine.values.map Numeral.decimal)
        errors := linesText ((entries.map TraceEntry.line).rtake capacity.toNat) ++
          (ending failure).2 } := by
  have values : machine.values.map Numeral.decimal =
      machine.emissions.toList.map fun emission => Console.valueLine emission.value := by
    rw [Machine.values, List.map_map]
    rfl
  rw [showTrace_eq entries program failure limit traced]
  simp only [Report.ofSession, Console.Report.diagnosticLines, Journal.lines, quiet, values]
  rfl

/-- A run that stops is reported on by its cycles. -/
theorem closing_stopped {asked : Console.Settings} {wiring : Wiring} {machine : Machine}
    {fault : Option Fault} {completed : Nat} (program : Program)
    (limit : asked.traceLimit = max capacity 0)
    (takes : ∀ index, (wiring.device index).fails = false)
    (quiet : machine.journal = ⟨.nothing, #[]⟩) (traced : machine.trace = ringOf capacity)
    (stops : Stops wiring budget machine 0 fault completed) :
    ∃ session, Console.closing asked program (stopped wiring machine 0 fault completed) =
        some session ∧
      Report.ofSession session = .ofRun wiring machine capacity fault completed := by
  have passes : ∀ time < completed, (machine.after wiring time).halted = false ∧
      (machine.after wiring time).succeeds wiring = true := fun time bound =>
    ⟨(running_of_goesOn (stops.passes time bound).1).2, (stops.passes time bound).2⟩
  have recorded := trace_after passes
  rw [traced] at recorded
  have silent : ∀ count, (machine.after wiring count).journal = ⟨.nothing, #[]⟩ := fun count =>
    (journal_after (congrArg Journal.selection quiet) count).trans quiet
  cases fault with
  | none =>
      have noted : ∀ note, (machine.after wiring completed).journal.add note = ⟨.nothing, #[]⟩ := by
        intro note
        rw [silent]
        rfl
      refine ⟨_, rfl,
        ofSession_showTrace (machine.entries wiring completed) program none limit ?_ recorded⟩
      simp only [conclude, noted]
      rfl
  | some failure =>
      have failed := stops.fails failure rfl
      rcases trap_of_fault? takes failed with ⟨isTrap, emissions⟩
      have fails : (machine.after wiring completed).succeeds wiring = false := by
        unfold Machine.succeeds
        rw [(fault?_eq_some_iff wiring _ failure).mp failed]
      have kept : ((machine.after wiring completed).next wiring).stop.trace =
          (ringOf capacity).map fun trace => trace.appendAll (machine.entries wiring completed) :=
        (trace_next_of_fails fails).trans recorded
      have values : ((machine.after wiring completed).next wiring).stop.values =
          (machine.after wiring completed).values :=
        congrArg (fun emissions => emissions.toList.map Emission.value) emissions
      have handled : handles (.fault failure) = true := isTrap
      refine ⟨_, rfl, (ofSession_showTrace (machine.entries wiring completed) program
        (some (.fault failure)) limit ?_ kept).trans ?_⟩
      · exact silent (completed + 1)
      simp only [ending, handled, if_true, values]
      rfl

theorem loadText_of_fits {program : Program} (positive : 0 < size) (capacity : Int)
    (parsed : Program.parse name text = .ok program) (fits : program.bytes.size ≤ size) :
    loadText name text (assembled positive capacity) =
      .ok program (loaded program positive capacity) := by
  have enough : program.bytes.size ≤ (assembled positive capacity).memory.length := by
    simpa [assembled] using fits
  have offered : (Source.stream text).offer name (assembled positive capacity).memory.length =
      .ok program :=
    Source.offer_eq_ok_iff.mpr ⟨text, rfl, parsed, enough⟩
  exact Source.load_eq_ok_iff.mpr ⟨offered, rfl⟩

theorem loadText_of_exceeds {program : Program} (positive : 0 < size) (capacity : Int)
    (parsed : Program.parse name text = .ok program) (exceeds : size < program.bytes.size) :
    loadText name text (assembled positive capacity) =
      .error (.address ⟨program.bytes.size - 1, size⟩) (assembled positive capacity) := by
  have length : (assembled positive capacity).memory.length = size :=
    Memory.length_zeroed size positive
  have offered : (Source.stream text).offer name (assembled positive capacity).memory.length =
      .error (.address ⟨program.bytes.size - 1, size⟩) := by
    rw [length]
    exact Source.offer_eq_address_iff.mpr ⟨text, program, rfl, parsed, exceeds, rfl⟩
  exact Source.load_eq_error_iff.mpr ⟨offered, rfl⟩

/-- A session that has come to an end has come to the end of its run. -/
theorem ending_of_closing {asked : Console.Settings} {program : Program} {progress : Progress}
    {session : Console.Report} (closed : Console.closing asked program progress = some session) :
    progress.ending.isSome = true := by
  cases progress with
  | unfinished executed machine => cases closed
  | returned executed machine => rfl
  | faulted fault executed machine => rfl

/-- A call whose program fits ends as its run does, and not before.  The trace and the journal
that the session has given to its machine have no part in the report. -/
theorem Asks.execute_of_fits (asks : Asks arguments host options size capacity budget)
    (supplied : Supplied options host name text) {program : Program}
    (parsed : Program.parse name text = .ok program) (fits : program.bytes.size ≤ size)
    (fuel : Nat) (report : Report) :
    let wiring : Wiring := { strict := options.strict }
    let start := startOf program asks.positive
    execute arguments host fuel = some report ↔
      ∃ fault completed, Stops wiring budget start 0 fault completed ∧
        begunOf fault completed ≤ fuel ∧
        report = .ofRun wiring start capacity fault completed := by
  intro wiring start
  let machine := (loaded program asks.positive capacity).started
  have executed : execute arguments host fuel =
      (Console.closing (settingsOf options size capacity budget) program
        (machine.drive wiring budget fuel 0)).map .ofSession := by
    have opened := asks.opening_eq supplied
    rw [loadText_of_fits asks.positive capacity parsed fits] at opened
    rw [execute_of_settings asks.parsed (asks.settings_eq supplied), Console.session, opened]
    rfl
  have reported : ∀ {fault completed}, Stops wiring budget machine 0 fault completed →
      begunOf fault completed ≤ fuel →
      execute arguments host fuel = some (.ofRun wiring start capacity fault completed) := by
    intro fault completed stops enough
    have limit : (settingsOf options size capacity budget).traceLimit = max capacity 0 := rfl
    rcases closing_stopped program limit (fun _ => rfl) rfl rfl stops with
      ⟨session, closed, shown⟩
    rw [executed, stops.drive enough, closed, Option.map_some, shown]
    exact congrArg some (ofRun_unwatched wiring machine capacity fault completed)
  constructor
  · intro ended
    rcases Option.map_eq_some_iff.mp (executed.symm.trans ended) with ⟨session, closed, _⟩
    rcases stops_of_drive (ending_of_closing closed) with ⟨fault, completed, stops, enough⟩
    exact ⟨fault, completed, stops_unwatched.mp stops, enough,
      Option.some.inj (ended.symm.trans (reported stops enough))⟩
  · rintro ⟨fault, completed, stops, enough, rfl⟩
    exact reported (stops_unwatched.mpr stops) enough

/-!
## Calls that are refused
-/

/-- A session ends the program with status 0 or 1 or by a failure. -/
theorem outcome_ofSession (session : Console.Report) :
    (Report.ofSession session).outcome ≠ .exit 2 := by
  unfold Report.ofSession
  cases session.diagnosticLines with
  | error cause => exact nofun
  | ok lines =>
      dsimp only
      unfold ending
      split
      · exact nofun
      · split <;> exact nofun

/-- Arguments that are refused with a usage error are refused before standard input is looked
at, and nothing is written to standard output. -/
theorem usage_of_execute {fuel : Nat} {report : Report}
    (ended : execute arguments host fuel = some report) (usage : report.outcome = .exit 2) :
    report.output = "" ∧ ∀ (input : ByteArray) (selection : Diagnostics.Selection) (other : Nat),
      execute arguments { host with input, selection } other = some report := by
  unfold execute at ended ⊢
  cases parsed : Options.parse arguments with
  | error stop =>
      rw [parsed] at ended
      cases ended
      cases stop with
      | help => cases usage
      | usage error => exact ⟨rfl, fun _ _ _ => rfl⟩
  | ok options =>
      simp only [parsed] at ended
      dsimp only
      cases asked : settings options host.entry with
      | error obstacle =>
          simp only [asked] at ended ⊢
          cases ended
          cases obstacle with
          | usage error => exact ⟨rfl, fun _ _ _ => rfl⟩
          | failure failure => cases usage
      | ok settings =>
          simp only [asked] at ended
          rcases Option.map_eq_some_iff.mp ended with ⟨session, _, rfl⟩
          exact absurd usage (outcome_ofSession session)

theorem execute_of_obstacle {error : UsageError} (parsed : Options.parse arguments = .ok options)
    (refused : settings options host.entry = .error (.usage error)) (fuel : Nat) :
    execute arguments host fuel = some (.ofUsage error) := by
  unfold execute
  rw [parsed]
  dsimp only
  rw [refused]
  rfl

theorem settings_of_missing {path : Files.Path}
    (named : options.program.map Files.Path.ofText = some path)
    (missing : (host.entry path).present = false) (short : host.entry path ≠ .overlong) :
    settings options host.entry = .error (.usage (.programMissing path.toText)) := by
  have absent : presentProgram options host.entry =
      .error (.usage (.programMissing path.toText)) := by
    rw [presentProgram_of_named named short, missing]
    rfl
  rw [settings, absent]
  rfl

theorem settings_of_notPositive {length : Int}
    (present : ∀ path, options.program.map Files.Path.ofText = some path →
      (host.entry path).present = true)
    (memory : options.memorySize = .value length) (notPositive : length ≤ 0) :
    settings options host.entry = .error (.usage .memorySize) := by
  have found : ∃ program, presentProgram options host.entry = .ok program := by
    cases named : options.program.map Files.Path.ofText with
    | none => exact ⟨none, by rw [presentProgram, named]⟩
    | some path =>
        have there := present path named
        have short : host.entry path ≠ .overlong := by
          intro overlong
          rw [overlong] at there
          cases there
        exact ⟨some path, by rw [presentProgram_of_named named short, if_pos there]⟩
  rcases found with ⟨program, found⟩
  have refused : memoryLength options = .error (.usage .memorySize) := by
    simp only [memoryLength, memory, if_pos notPositive]
  rw [settings, found, refused]
  rfl

/-- How calls of the program end.  A text that is no program, or one of more bytes than the
memory has, is refused with one line on the error stream.  Otherwise the call ends when the run
of the program does: with the values that were emitted on standard output, and on the error
stream the lines of the latest cycles that were completed, as many as there are up to the
capacity, before the line of the fault if there was one.  A usage error is found before anything
is read or executed. -/
theorem execute_ends :
    (∀ (arguments : List String) (host : Console.Host) (options : Options) (size : Nat)
      (capacity : Int) (budget : Option Int) (name text : String)
      (asks : Asks arguments host options size capacity budget),
      Supplied options host name text →
        (∀ error, Program.parse name text = .error error →
          ∀ fuel, execute arguments host fuel = some (.refused error.message)) ∧
        ∀ program, Program.parse name text = .ok program →
          (size < program.bytes.size → ∀ fuel, execute arguments host fuel =
            some (.refused (Memory.AddressError.message ⟨program.bytes.size - 1, size⟩))) ∧
          (program.bytes.size ≤ size →
            let wiring : Wiring := { strict := options.strict }
            let start := startOf program asks.positive
            (∀ fuel report, execute arguments host fuel = some report ↔
              ∃ fault completed, Stops wiring budget start 0 fault completed ∧
                begunOf fault completed ≤ fuel ∧
                report = .ofRun wiring start capacity fault completed) ∧
            ∀ completed, (latestLines wiring start completed capacity).length =
              min (max capacity 0).toNat completed)) ∧
    (∀ (arguments : List String) (host : Console.Host) (fuel : Nat) (report : Report),
      execute arguments host fuel = some report → report.outcome = .exit 2 →
        report.output = "" ∧
        ∀ (input : ByteArray) (selection : Diagnostics.Selection) (other : Nat),
          execute arguments { host with input, selection } other = some report) ∧
    ∀ (arguments : List String) (host : Console.Host) (options : Options),
      Options.parse arguments = .ok options →
        (∀ path, options.program.map Files.Path.ofText = some path →
          (host.entry path).present = false → host.entry path ≠ .overlong →
          ∀ fuel, execute arguments host fuel =
            some (.ofUsage (.programMissing path.toText))) ∧
        ∀ length, options.memorySize = .value length → length ≤ 0 →
          (∀ path, options.program.map Files.Path.ofText = some path →
            (host.entry path).present = true) →
          ∀ fuel, execute arguments host fuel = some (.ofUsage .memorySize) := by
  refine ⟨?_, fun _ _ _ _ => usage_of_execute, ?_⟩
  · intro arguments host options size capacity budget name text asks supplied
    refine ⟨?_, ?_⟩
    · intro error refused fuel
      have refusal : loadText name text (assembled asks.positive capacity) =
          .error (.format error) (assembled asks.positive capacity) := by
        rw [loadText_eq, refused]
      exact asks.execute_of_refused supplied refusal rfl fuel
    · intro program parsed
      refine ⟨?_, fun fits => ⟨asks.execute_of_fits supplied parsed fits,
        fun completed => length_latestLines _ _ completed capacity⟩⟩
      intro exceeds fuel
      have refusal := loadText_of_exceeds asks.positive capacity parsed exceeds
      exact asks.execute_of_refused supplied refusal rfl fuel
  · intro arguments host options parsed
    refine ⟨?_, ?_⟩
    · intro path named missing short
      exact execute_of_obstacle parsed (settings_of_missing named missing short)
    · intro length memory notPositive present
      exact execute_of_obstacle parsed (settings_of_notPositive present memory notPositive)

/-- A program that prints a register and then one there is none of. -/
def nowhereText : String :=
  "00000110\n00000000\n00000110\n00001001\n"

def printsNowhere : Program :=
  ⟨Console.inputName, #[6, 0, 6, 9], #[1, 2, 3, 4]⟩

/-- The call writes one value, the line of the cycle that has emitted it, and the line of the
fault. -/
theorem execute_ends_printsNowhere :
    execute ["--memory-size", "4", "--trace", "5"] { printsZero with input := nowhereText.toUTF8 }
        2 = some {
      outcome := .exit 1
      output := "0\n"
      errors :=
        "pc=00 opcode=00000110 PRN R0=00 R1=00 R2=00 R3=00 R4=00 R5=00 R6=00 R7=F8 flags=-\n" ++
        "ls8: register index out of range: 9\n" } := by
  have asks : Asks ["--memory-size", "4", "--trace", "5"]
      { printsZero with input := nowhereText.toUTF8 } { memorySize := .value 4, trace := .value 5 }
      4 5 none :=
    ⟨rfl, rfl, by decide, rfl, rfl, ⟨_, rfl⟩, by decide, by decide, by decide⟩
  have unix : String.ofList (Text.unixLineEnds nowhereText.toList) = nowhereText := by
    decide +kernel
  have supplied : Supplied { memorySize := .value 4, trace := .value 5 }
      { printsZero with input := nowhereText.toUTF8 } Console.inputName nowhereText :=
    unix ▸ Supplied.input rfl (Text.Encoding.decode_toUTF8 nowhereText)
  have parsed : Program.parse Console.inputName nowhereText = .ok printsNowhere := by rfl
  have stops : Stops {} none (startOf printsNowhere (by decide : 0 < 4)) 0
      (some (.register ⟨9⟩)) 1 := by
    refine ⟨by decide +kernel, by decide +kernel, ?_⟩
    intro failure same
    cases same
    decide +kernel
  have ended := (execute_ends.1 _ _ _ _ _ _ _ _ asks supplied).2 _ parsed
  refine ((ended.2 (by decide)).1 2 _).mpr ⟨some (.register ⟨9⟩), 1, stops, by decide, ?_⟩
  change _ = Report.ofRun {} (startOf printsNowhere (by decide : 0 < 4)) 5
    (some (.register ⟨9⟩)) 1
  decide +kernel

/-- A memory beyond all indices is refused as no program is: the call fails without a line. -/
theorem execute_unindexableMemory :
    let host : Console.Host := { printsZero with input := "x".toUTF8 }
    Program.parse Console.inputName "x" = .error ⟨1, "x"⟩ ∧
      execute ["--memory-size", "9223372036854775808"] host 0 ≠
        some (.refused (Program.FormatError.message ⟨1, "x"⟩)) := by
  intro host
  exact ⟨rfl, by decide +kernel⟩

end CommandLine
end EightBit
