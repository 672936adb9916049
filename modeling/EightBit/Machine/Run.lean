import EightBit.Machine.Cycle

namespace EightBit
namespace Machine

/-!
# Runs

A run executes cycles until the machine halts, a pause is asked for, a budget
is used up or a cycle fails.  Some programs run for ever, so the number of
cycles that are looked at is bounded; a run that needs more is unfinished and
can be driven on from where it is.
-/

/-- How far a run has come, with the number of cycles it has completed. -/
inductive Progress where
  /-- The run came to its end. -/
  | returned (executed : Nat) (machine : Machine)
  /-- The next cycle failed. -/
  | faulted (fault : Fault) (executed : Nat) (machine : Machine)
  /-- There is more to do. -/
  | unfinished (executed : Nat) (machine : Machine)

/-- Whether a run that has executed so many cycles goes on: it was not asked to
pause, the machine has not halted, and the budget, if there is one, is not used
up. -/
def goesOn (machine : Machine) (budget : Option Int) (executed : Nat) : Bool :=
  machine.running && !machine.halted && budget.all fun limit => decide ((executed : Int) < limit)

def conclude (machine : Machine) (executed : Nat) : Machine :=
  { machine with
    running := false
    journal := machine.journal.add (.ran executed machine.status) }

/-- Drives a run on for at most `fuel` cycles. -/
def drive (wiring : Wiring) (budget : Option Int) (fuel executed : Nat) (machine : Machine) :
    Progress :=
  if machine.goesOn budget executed then
    match fuel with
    | 0 => .unfinished executed machine
    | fuel + 1 =>
      match cycle wiring machine with
      | .ok _ after => drive wiring budget fuel (executed + 1) after
      | .error fault after => .faulted fault executed after.stop
  else .returned executed (machine.conclude executed)

/-- The machine at the beginning of a run.  A pause that was asked for before has
no effect on it. -/
def started (machine : Machine) : Machine :=
  { machine with running := true }

/-- Runs a machine, for at most `fuel` cycles. -/
def run (wiring : Wiring) (budget : Option Int) (fuel : Nat) (machine : Machine) : Progress :=
  drive wiring budget fuel 0 machine.started

end Machine
end EightBit
