import Mathlib.Data.List.Forall2
import EightBit.Proofs.Course
import EightBit.Proofs.TraceLog

namespace EightBit
namespace Machine

/-!
# What a trace tells of a machine

A machine with a trace records each cycle that succeeds and no other.  The entry tells
where the cycle began and what it fetched there, as the memory was before the cycle, and
beside that the registers, the flag and the status as they were after it.  A push may have
written over its own opcode in between.

`trace_next` says this of one cycle.  Along the events of a course it gives the whole log
(`Leads.trace`); that the entries follow each other as the cycles do is then a matter of
where cycles begin.
-/

def entry (wiring : Wiring) (machine : Machine) : TraceEntry :=
  let opcode := machine.memory.byteAt? machine.registers.programCounter
  let instruction := opcode.bind wiring.table.find?
  let after := machine.next wiring
  { pc := machine.registers.programCounter
    opcode
    mnemonic := (instruction.map Instruction.mnemonic).getD ""
    registers := after.registers.general.toList.map Byte.ofInt
    equal := after.registers.equalFlag
    halted := after.halted
    note := if instruction.isNone then "illegal" else "" }

/-- What is recorded of so many cycles in a row, if they succeed. -/
def entries (wiring : Wiring) (machine : Machine) (count : Nat) : List TraceEntry :=
  (List.range count).map fun time => (machine.after wiring time).entry wiring

/-- An entry tells of a cycle that was begun on a machine. -/
structure Tells (wiring : Wiring) (before : Machine) (entry : TraceEntry) : Prop where
  pc : entry.pc = before.registers.programCounter
  fetched : ∃ opcode, entry.opcode = some opcode ∧
    before.memory.byteAt? before.registers.programCounter = some opcode ∧
    match wiring.table.find? opcode with
    | some instruction => entry.mnemonic = instruction.mnemonic ∧ entry.note = ""
    | none => entry.mnemonic = "" ∧ entry.note = "illegal"
  registers : entry.registers.map Byte.toInt = (before.next wiring).registers.general.toList
  equal : entry.equal = (before.next wiring).registers.equalFlag
  halted : entry.halted = true ↔ (before.next wiring).status = .halted

/-- The machines on which those of the cycles were begun that have succeeded. -/
def passed (wiring : Wiring) (events : List Event) : List Machine :=
  (begun events).filter fun before => before.succeeds wiring

/-- The machines on which those of the cycles were begun that have failed. -/
def raised (wiring : Wiring) (events : List Event) : List Machine :=
  (begun events).filter fun before => !before.succeeds wiring

variable {wiring : Wiring} {machine before final : Machine} {events : List Event}

/-!
## One cycle
-/

theorem trace_next_of_succeeds (running : machine.halted = false)
    (succeeds : machine.succeeds wiring = true) :
    (machine.next wiring).trace =
      machine.trace.map fun trace => trace.append (machine.entry wiring) := by
  rcases (succeeds_iff wiring machine).mp succeeds with ⟨alive, ok⟩
  rcases cycle_eq_ok running ok with ⟨plan, journal, planned, _, next_eq, _⟩
  rcases InstructionTable.plan_eq_ok planned with
    ⟨opcode, fetched, ⟨instruction, found, _, commit_eq⟩ | ⟨missing, _, _, commit_eq⟩⟩
  · simp only [entry, fetched, found, next_eq, settle, record, left, delivered_trace, commit_eq,
      Outcome.commit, Trace.record, Option.bind_some, Option.map_some, Option.getD_some,
      Option.isNone_some, Byte.ofInt_toInt]
    rfl
  · simp only [entry, fetched, missing, next_eq, settle, record, left, delivered_trace, commit_eq,
      Trace.record, Option.bind_some, Option.map_some, Option.map_none, Option.getD_none,
      Option.isNone_none, Byte.ofInt_toInt]
    rfl

theorem trace_next_of_fails (fails : machine.succeeds wiring = false) :
    (machine.next wiring).trace = machine.trace := by
  rcases (fails_iff wiring machine).mp fails with ⟨fault, failed⟩
  exact trace_of_cycle_eq_error failed

/-- Cycles in a row that succeed are recorded one after the other. -/
theorem trace_after {count : Nat}
    (passes : ∀ time < count, (machine.after wiring time).halted = false ∧
      (machine.after wiring time).succeeds wiring = true) :
    (machine.after wiring count).trace = machine.trace.map fun trace =>
      trace.appendAll (machine.entries wiring count) := by
  induction count with
  | zero =>
      cases traced : machine.trace with
      | none => exact traced
      | some trace => exact traced
  | succ count inductionHypothesis =>
      have last := passes count (Nat.lt_succ_self count)
      rw [Machine.after, trace_next_of_succeeds last.1 last.2,
        inductionHypothesis fun time bound => passes time (Nat.lt_succ_of_lt bound),
        Option.map_map]
      simp only [entries, List.range_succ, List.map_append, Trace.appendAll_append]
      rfl

/-- A cycle that succeeds has fetched a byte. -/
theorem fetched_of_succeeds (running : machine.halted = false)
    (succeeds : machine.succeeds wiring = true) :
    ∃ opcode, machine.memory.byteAt? machine.registers.programCounter = some opcode := by
  rcases (succeeds_iff wiring machine).mp succeeds with ⟨alive, ok⟩
  rcases cycle_eq_ok running ok with ⟨plan, _, planned, _⟩
  rcases InstructionTable.plan_eq_ok planned with ⟨opcode, fetched, _⟩
  exact ⟨opcode, fetched⟩

theorem bounded_next (wiring : Wiring) (bounded : machine.registers.Bounded) :
    (machine.next wiring).registers.Bounded := by
  unfold next
  cases ended : cycle wiring machine with
  | ok alive after => exact bounded_of_cycle_eq_ok bounded ended
  | error fault after =>
      have fetched : machine.fetched.Bounded := bounded.of_general rfl
      rw [(left_of_cycle_eq_error ended).1]
      split
      · exact fetched.lowered
      · exact fetched

namespace Leads

/-- A trace is told of the cycles that succeed, one after the other. -/
theorem trace (leads : Leads wiring machine events final) :
    final.trace = machine.trace.map fun trace =>
      trace.appendAll ((passed wiring events).map (Machine.entry wiring)) := by
  induction leads with
  | nothing kept => simpa [passed, begun, Trace.appendAll] using kept.trace
  | @cycle machine before final events since kept running rest inductionHypothesis =>
      have first : passed wiring (.cycle since before :: events) =
          (if before.succeeds wiring then [before] else []) ++ passed wiring events := by
        simp only [passed, begun, List.filterMap_cons, List.filter_cons]
        split <;> rfl
      rw [inductionHypothesis, first, ← kept.trace]
      cases succeeds : before.succeeds wiring with
      | true =>
          rw [trace_next_of_succeeds running succeeds, Option.map_map]
          rfl
      | false =>
          rw [trace_next_of_fails succeeds]
          rfl
  | reset _ inductionHypothesis => exact inductionHypothesis
  | assigned _ _ inductionHypothesis => exact inductionHypothesis
  | moved _ _ inductionHypothesis => exact inductionHypothesis

/-- The program counter stays where the last cycle has left it until it is assigned. -/
theorem programCounter (leads : Leads wiring machine events final)
    (noCycle : begun events = []) (noReset : .reset ∉ events)
    (noMove : ∀ address, .moved address ∉ events) :
    final.registers.programCounter = machine.registers.programCounter := by
  induction leads with
  | nothing kept => exact kept.programCounter
  | cycle since _ _ _ _ => cases noCycle
  | reset _ _ => exact absurd List.mem_cons_self noReset
  | assigned registers _ inductionHypothesis =>
      exact inductionHypothesis noCycle (fun member => noReset (List.mem_cons_of_mem _ member))
        fun address member => noMove address (List.mem_cons_of_mem _ member)
  | moved address _ _ => exact absurd List.mem_cons_self (noMove address)

end Leads

/-- A machine that pushes over its own opcode, prints, and then prints a register there is
none of. -/
def writesOverItself : Machine where
  memory := ⟨#[0x0A, 0, 0x06, 0, 0x06, 9], by decide⟩
  registers := { general := #v[67, 0, 0, 0, 0, 0, 0, 1] }
  trace := some (.empty 3 (by decide))

end Machine
end EightBit
