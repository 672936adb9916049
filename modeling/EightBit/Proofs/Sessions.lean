import EightBit.CommandLine
import EightBit.Proofs.TraceLog
import EightBit.Proofs.Watching

namespace EightBit

/-!
# Watched sessions

A session, and the command line around it, may ask for a trace of any capacity and for any
diagnostics.  What it emits, how it fails and what it leaves in its machine are the same.
The one exception is a trace that cannot be had: a capacity beyond all bounds is refused
before anything is loaded.  So two capacities are compared that are refused alike, which
any two are that can be had.

Sessions are compared by what remains of them when their machines are unwatched and the
lines that only show a trace are left out.
-/

open Machine

/-- Assembling a machine without what watches it: only the refusal of a trace is left.  The
default capacity takes the place of one that is not positive, and neither is refused. -/
theorem Machine.assemble_unwatched (length capacity : Int) (selection : Diagnostics.Selection)
    (room : Extent.Room) :
    (assemble length capacity selection room).map unwatched =
      ((Memory.create length room.memory).mapError .memory).bind fun memory =>
        match room.trace.excess? capacity with
        | some cause => .error (.trace (.excess cause))
        | none => .ok { memory } := by
  cases made : Memory.create length room.memory with
  | error error => simp only [assemble, made]; rfl
  | ok memory =>
      generalize chosen_eq : (if capacity ≤ 0 ∧ selection.includes .trace = true
        then defaultTraceCapacity else capacity) = chosen
      have refused : room.trace.excess? chosen = room.trace.excess? capacity := by
        rw [← chosen_eq]
        split
        · rename_i wanted
          rw [room.trace.excess?_of_le (by omega : capacity ≤ 256)]
          exact room.trace.excess?_of_le (Int.le_refl defaultTraceCapacity)
        · rfl
      simp only [assemble, made, chosen_eq, ← refused]
      by_cases positive : 0 < chosen
      · simp only [Except.mapError, Bind.bind, Except.bind, if_pos positive, Trace.create,
          dif_pos positive]
        cases room.trace.excess? chosen <;> rfl
      · have small : room.trace.excess? chosen = none :=
          room.trace.excess?_of_le (by omega)
        simp only [Except.mapError, Bind.bind, Except.bind, if_neg positive, small]
        rfl

namespace Console

variable {settings : Settings} {host : Host} {program : Program} {machine other : Machine}

/-- Where a session has its program from: its name and the bytes of its text. -/
def source (settings : Settings) (host : Host) : Except Failure (String × ByteArray) :=
  match settings.program with
  | some path =>
    ((Files.read path (host.entry path)).mapError .reading).map fun bytes => (path.name, bytes)
  | none => .ok (inputName, host.input)

/-- How loading the program of a session ends. -/
def loadingOf : EStateM.Result LoadError Machine Program →
    Except (Failure × Machine) (Program × Machine)
  | .ok program after => .ok (program, after)
  | .error error after => .error (.loading error, after)

/-- How opening a session ends whose program was loaded or not. -/
def openingOf : Except (Failure × Machine) (Program × Machine) →
    Except Report (Program × Machine)
  | .ok opened => .ok opened
  | .error (failure, after) => .error { machine := some after, failure := some failure }

theorem load_eq (settings : Settings) (host : Host) (machine : Machine) :
    load settings host machine =
      match source settings host with
      | .error failure => .error (failure, machine)
      | .ok (name, bytes) => loadingOf (Machine.loadFile name .utf8 bytes machine) :=
  rfl

theorem opening_eq (settings : Settings) (host : Host) :
    opening settings host =
      match assemble settings.memoryLength settings.traceLimit host.selection host.room with
      | .error error => .error { failure := some (.assembly error) }
      | .ok machine => openingOf (load settings host machine) :=
  rfl

/-!
## Opening
-/

/-- What a report tells besides the trace: the machine without what watches it, the program
and the failure. -/
def Report.unwatched (report : Report) : Report where
  machine := report.machine.map Machine.unwatched
  program := report.program
  failure := report.failure

def unwatchedLoading : Except (Failure × Machine) (Program × Machine) →
    Except (Failure × Machine) (Program × Machine)
  | .ok (program, machine) => .ok (program, machine.unwatched)
  | .error (failure, machine) => .error (failure, machine.unwatched)

def unwatchedOpening : Except Report (Program × Machine) → Except Report (Program × Machine)
  | .ok (program, machine) => .ok (program, machine.unwatched)
  | .error report => .error report.unwatched

theorem unwatchedLoading_loadingOf (result : EStateM.Result LoadError Machine Program) :
    unwatchedLoading (loadingOf result) = loadingOf (unwatchedResult result) := by
  cases result <;> rfl

theorem unwatchedOpening_openingOf (loaded : Except (Failure × Machine) (Program × Machine)) :
    unwatchedOpening (openingOf loaded) = openingOf (unwatchedLoading loaded) := by
  rcases loaded with ⟨failure, after⟩ | ⟨program, after⟩ <;> rfl

theorem load_unwatched (settings : Settings) (host : Host) (machine : Machine) :
    unwatchedLoading (load settings host machine) =
      unwatchedLoading (load settings host machine.unwatched) := by
  rw [load_eq, load_eq]
  cases source settings host with
  | error failure => rfl
  | ok found =>
      dsimp only
      rw [unwatchedLoading_loadingOf, unwatchedLoading_loadingOf,
        blind_loadFile found.1 .utf8 found.2 machine]

/-- Sessions are opened alike when their traces are refused alike. -/
theorem opening_unwatched (settings : Settings) (host : Host) {limit : Int}
    (selection : Diagnostics.Selection)
    (alike : host.room.trace.excess? settings.traceLimit = host.room.trace.excess? limit) :
    unwatchedOpening (opening settings host) =
      unwatchedOpening (opening { settings with traceLimit := limit }
        { host with selection }) := by
  have assembled :
      (assemble settings.memoryLength settings.traceLimit host.selection host.room).map unwatched =
        (assemble settings.memoryLength limit selection host.room).map unwatched := by
    rw [assemble_unwatched, assemble_unwatched, alike]
  rw [opening_eq, opening_eq]
  cases watched : assemble settings.memoryLength settings.traceLimit host.selection host.room with
  | error error =>
      cases alone : assemble settings.memoryLength limit selection host.room with
      | error cause =>
          rw [watched, alone] at assembled
          cases assembled
          rfl
      | ok other =>
          rw [watched, alone] at assembled
          cases assembled
  | ok machine =>
      cases alone : assemble settings.memoryLength limit selection host.room with
      | error cause =>
          rw [watched, alone] at assembled
          cases assembled
      | ok other =>
          rw [watched, alone] at assembled
          have same : machine.unwatched = other.unwatched := Except.ok.inj assembled
          dsimp only
          rw [unwatchedOpening_openingOf, unwatchedOpening_openingOf,
            load_unwatched settings host machine, same]
          exact congrArg openingOf (load_unwatched settings host other).symm

/-!
## Closing
-/

theorem showTrace_unwatched (settings : Settings) (program : Program) (machine : Machine)
    (failure : Option Failure) :
    (showTrace settings program machine failure).unwatched =
      { machine := some machine.unwatched, program := some program, failure } := by
  unfold showTrace
  cases machine.trace with
  | none => rfl
  | some trace =>
      dsimp only
      rw [Trace.dump_eq]
      split <;> rfl

/-- A report on a run that has come to its end, without what watches the machine. -/
def closed (program : Program) : Progress → Option Report
  | .unfinished _ _ => none
  | .returned _ machine => some { machine := some machine, program := some program }
  | .faulted fault _ machine =>
    some { machine := some machine, program := some program, failure := some (.fault fault) }

theorem closing_unwatched (settings : Settings) (program : Program) (progress : Progress) :
    (closing settings program progress).map Report.unwatched =
      closed program progress.unwatched := by
  cases progress with
  | unfinished executed machine => rfl
  | returned executed machine => exact congrArg some (showTrace_unwatched _ _ _ _)
  | faulted fault executed machine => exact congrArg some (showTrace_unwatched _ _ _ _)

/-- A report on a run that stumbles over its pause after the first cycle, without what watches
the machine. -/
def paused (program : Program) (failure : Failure) :
    EStateM.Result Fault Machine Bool → Option Report
  | .ok _ after => some { machine := some after.stop, program := some program, failure }
  | .error fault after => closed program (.faulted fault 0 after.stop)

/-- The limit of the trace has no say in a run with a flaw. -/
theorem breakdown_unwatched (settings : Settings) (limit : Int) (program : Program) (flaw : Flaw)
    (machine : Machine) :
    (breakdown settings program flaw machine).map Report.unwatched =
      (breakdown { settings with traceLimit := limit } program flaw
        machine.unwatched).map Report.unwatched := by
  cases flaw with
  | budget =>
      simp only [breakdown, Option.map_some, showTrace_unwatched]
      rfl
  | pause =>
      have told : ∀ (settings : Settings) (result : EStateM.Result Fault Machine Bool),
          (match result with
            | .ok _ after =>
              some (showTrace settings program after.stop
                (some (.incomparable Flaw.pause.comparison)))
            | .error fault after => closing settings program (.faulted fault 0 after.stop)).map
              Report.unwatched =
            paused program (.incomparable Flaw.pause.comparison) (unwatchedResult result) := by
        intro settings result
        cases result with
        | ok alive after => exact congrArg some (showTrace_unwatched _ _ _ _)
        | error fault after => exact closing_unwatched _ _ _
      have goesOn : machine.unwatched.started.goesOn settings.maxCycles 0 =
          machine.started.goesOn settings.maxCycles 0 := rfl
      simp only [breakdown, goesOn]
      split
      · refine (told settings _).trans
          (Eq.trans ?_ (told { settings with traceLimit := limit } _).symm)
        exact congrArg _ (blind_cycle (wiring settings) machine.started)
      · rw [closing_unwatched, closing_unwatched]
        rfl

/-- A session comes to the same under every trace that is refused alike, and under all
diagnostics. -/
theorem session_unwatched (settings : Settings) (host : Host) {limit : Int}
    (selection : Diagnostics.Selection) (fuel : Nat)
    (alike : host.room.trace.excess? settings.traceLimit = host.room.trace.excess? limit) :
    (session settings host fuel).map Report.unwatched =
      (session { settings with traceLimit := limit } { host with selection } fuel).map
        Report.unwatched := by
  have opened := opening_unwatched settings host selection alike
  unfold session
  cases watched : opening settings host with
  | error report =>
      cases alone : opening { settings with traceLimit := limit } { host with selection } with
      | error other =>
          rw [watched, alone] at opened
          exact congrArg some (Except.error.inj opened)
      | ok other =>
          rw [watched, alone] at opened
          cases opened
  | ok found =>
      rcases found with ⟨program, machine⟩
      cases alone : opening { settings with traceLimit := limit } { host with selection } with
      | error other =>
          rw [watched, alone] at opened
          cases opened
      | ok found =>
          rcases found with ⟨program', other⟩
          simp only [watched, alone, unwatchedOpening, Except.ok.injEq, Prod.mk.injEq] at opened
          rcases opened with ⟨rfl, same⟩
          dsimp only
          cases settings.flaw with
          | none =>
              dsimp only
              rw [closing_unwatched, closing_unwatched, run_unwatched, same, ← run_unwatched]
              rfl
          | some flaw =>
              dsimp only
              rw [breakdown_unwatched settings limit program flaw machine, same]
              exact (breakdown_unwatched { settings with traceLimit := limit } limit program flaw
                other).symm

end Console

namespace CommandLine

/-- How the program ends and what it has written to standard output. -/
def Report.seen (report : Report) : Outcome × String :=
  (report.outcome, report.output)

theorem seen_ofSession (session : Console.Report) :
    (Report.ofSession session).seen =
      ((ending session.unwatched.failure).1, linesText session.unwatched.outputLines) := by
  have shown : session.unwatched.outputLines = session.outputLines := by
    unfold Console.Report.outputLines Console.Report.unwatched
    cases session.machine <;> rfl
  have noted : ∃ lines, session.diagnosticLines = .ok lines := by
    unfold Console.Report.diagnosticLines
    cases session.machine with
    | none => exact ⟨[], rfl⟩
    | some machine =>
        rcases machine.journal.lines_defined with ⟨lines, written⟩
        exact ⟨lines ++ session.dumped, by dsimp only; rw [written]; rfl⟩
  rcases noted with ⟨lines, written⟩
  simp only [Report.ofSession, written, shown]
  rfl

theorem seen_of_unwatched {sessions others : Option Console.Report}
    (same : sessions.map Console.Report.unwatched = others.map Console.Report.unwatched) :
    (sessions.map Report.ofSession).map Report.seen =
      (others.map Report.ofSession).map Report.seen := by
  have told : ∀ sessions : Option Console.Report,
      (sessions.map Report.ofSession).map Report.seen =
        (sessions.map Console.Report.unwatched).map fun session =>
          ((ending session.failure).1, linesText session.outputLines) := by
    intro sessions
    simp only [Option.map_map, Function.comp_def, seen_ofSession]
  rw [told, told, same]

/-- The capacity that is asked for decides nothing about the settings but their limit. -/
theorem settings_traced (options : Options) (limit : Int) (entry : Files.Path → Files.Entry) :
    settings { options with trace := .value limit } entry =
      (settings { options with trace := .value 0 } entry).map fun asked =>
        { asked with traceLimit := max limit 0 } := by
  simp only [settings, presentProgram, memoryLength, traceLimit, flaw, Bind.bind, Except.bind]
  split <;> first | rfl | split <;> rfl

theorem excess?_max_zero (room : Extent.Limit) (limit : Int) :
    room.excess? (max limit 0) = room.excess? limit := by
  rcases Int.le_total limit 0 with negative | positive
  · rw [Int.max_eq_right negative, room.excess?_of_le (by omega : limit ≤ 256),
      room.excess?_of_le (by decide : (0 : Int) ≤ 256)]
  · rw [Int.max_eq_left positive]

/-- The program ends alike and writes the same to standard output under every trace that is
refused alike, and under all diagnostics. -/
theorem execute_seen {arguments others : List String} {options : Options} {limit limit' : Int}
    (traced : Options.parse arguments = .ok { options with trace := .value limit })
    (traced' : Options.parse others = .ok { options with trace := .value limit' })
    (host : Console.Host)
    (alike : host.room.trace.excess? limit = host.room.trace.excess? limit')
    (selection : Diagnostics.Selection) (fuel : Nat) :
    (execute arguments host fuel).map Report.seen =
      (execute others { host with selection } fuel).map Report.seen := by
  unfold execute
  rw [traced, traced']
  dsimp only
  rw [settings_traced options limit, settings_traced options limit']
  cases settings { options with trace := .value 0 } host.entry with
  | error obstacle => rfl
  | ok asked =>
      rw [← excess?_max_zero _ limit, ← excess?_max_zero _ limit'] at alike
      exact seen_of_unwatched
        (Console.session_unwatched { asked with traceLimit := max limit 0 } host selection fuel
          alike)

/-- Diagnostics alone never make a difference to how the program ends and to what it writes to
standard output. -/
theorem execute_selection (arguments : List String) (host : Console.Host)
    (selection : Diagnostics.Selection) (fuel : Nat) :
    (execute arguments host fuel).map Report.seen =
      (execute arguments { host with selection } fuel).map Report.seen := by
  unfold execute
  cases Options.parse arguments with
  | error stop => rfl
  | ok options =>
      cases asked : settings options host.entry with
      | error obstacle => simp only [asked]
      | ok asked' =>
          simp only [asked]
          exact seen_of_unwatched (Console.session_unwatched asked' host selection fuel rfl)

/-- Nothing that watches a machine has a say in what it does.  This holds of single machines
under any actions, of assembling them, of sessions and of the whole program; what may differ is
what is shown of the trace and the diagnostics themselves.  All notes can be written, and all
traces shown. -/
theorem watching_changes_nothing :
    (∀ (wiring : Wiring) (fuel : Nat) (actions : List Action) (machine other : Machine),
      machine.unwatched = other.unwatched →
        (machine.course wiring fuel actions).unwatched =
          (other.course wiring fuel actions).unwatched) ∧
    (∀ (length capacity capacity' : Int) (selection selection' : Diagnostics.Selection)
      (room : Extent.Room), room.trace.excess? capacity = room.trace.excess? capacity' →
        (assemble length capacity selection room).map unwatched =
          (assemble length capacity' selection' room).map unwatched) ∧
    (∀ (settings : Console.Settings) (host : Console.Host) (limit : Int)
      (selection : Diagnostics.Selection) (fuel : Nat),
      host.room.trace.excess? settings.traceLimit = host.room.trace.excess? limit →
        (Console.session settings host fuel).map Console.Report.unwatched =
          (Console.session { settings with traceLimit := limit } { host with selection }
            fuel).map Console.Report.unwatched) ∧
    (∀ (arguments others : List String) (options : Options) (limit limit' : Int),
      Options.parse arguments = .ok { options with trace := .value limit } →
      Options.parse others = .ok { options with trace := .value limit' } →
      ∀ host : Console.Host, host.room.trace.excess? limit = host.room.trace.excess? limit' →
      ∀ (selection : Diagnostics.Selection) (fuel : Nat),
        (execute arguments host fuel).map Report.seen =
          (execute others { host with selection } fuel).map Report.seen) ∧
    (∀ (arguments : List String) (host : Console.Host) (selection : Diagnostics.Selection)
      (fuel : Nat),
      (execute arguments host fuel).map Report.seen =
        (execute arguments { host with selection } fuel).map Report.seen) ∧
    (∀ note : Note, ∃ text, note.line = .ok text) ∧
    ∀ (trace : Trace) (selection : Diagnostics.Selection) (category : String)
      (limit : Option Int), ∃ lines, trace.dump selection category limit = .ok lines := by
  refine ⟨?_, ?_, ?_, ?_, execute_selection, Note.line_defined, ?_⟩
  · intro wiring fuel actions machine other same
    rw [course_unwatched wiring fuel actions machine, same, ← course_unwatched]
  · intro length capacity capacity' selection selection' room alike
    rw [assemble_unwatched, assemble_unwatched, alike]
  · intro settings host limit selection fuel alike
    exact Console.session_unwatched settings host selection fuel alike
  · intro arguments others options limit limit' traced traced' host alike selection fuel
    exact execute_seen traced traced' host alike selection fuel
  · intro trace selection category limit
    exact ⟨_, trace.dump_eq selection category limit⟩

/-- A host whose standard input is a program that prints a register and halts, and that wants
no diagnostics. -/
def printsZero : Console.Host where
  entry := fun _ => .missing
  input := "00000110\n00000000\n00011011\n".toUTF8
  selection := .nothing

/-- A trace of three cycles and all diagnostics, beside none of them. -/
theorem watching_changes_nothing_printsZero :
    let all : Diagnostics.Selection := .ofText "all"
    let traced := ["--trace", "3"]
    let memory := Memory.zeroed 2 (by decide)
    let machine : Machine := { memory, trace := some (.empty 3 (by decide)), journal := ⟨all, #[]⟩ }
    (machine.course {} 9 [.request (.call (.run none))]).unwatched =
        (Machine.course {} 9 [.request (.call (.run none))] { memory }).unwatched ∧
      (assemble 2 3 all).map unwatched = (assemble 2 0 .nothing).map unwatched ∧
      (Console.session { traceLimit := 3 } { printsZero with selection := all } 9).map
          Console.Report.unwatched =
        (Console.session {} printsZero 9).map Console.Report.unwatched ∧
      (execute traced { printsZero with selection := all } 9).map Report.seen =
        (execute [] printsZero 9).map Report.seen := by
  intro all traced memory machine
  rcases watching_changes_nothing with ⟨machines, assembled, sessions, programs, _⟩
  refine ⟨?_, ?_, ?_, ?_⟩
  · exact machines {} 9 [.request (.call (.run none))] machine { memory } rfl
  · exact assembled 2 3 0 all .nothing {} (by decide)
  · exact sessions { traceLimit := 3 } { printsZero with selection := all } 0 .nothing 9 (by decide)
  · exact programs traced [] {} 3 0 rfl rfl { printsZero with selection := all } (by decide)
      .nothing 9

/-- A trace beyond all indices is refused, and the program fails before it has begun. -/
theorem execute_unindexableTrace :
    (execute ["--memory-size", "3", "--trace", "9223372036854775808"] printsZero 9).map
        Report.seen ≠
      (execute ["--memory-size", "3", "--trace", "0"] printsZero 9).map Report.seen := by
  decide +kernel

end CommandLine
end EightBit
