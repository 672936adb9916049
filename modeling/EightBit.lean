import EightBit.Alu
import EightBit.Byte
import EightBit.CommandLine
import EightBit.CommandLine.Arguments
import EightBit.Console
import EightBit.Diagnostics
import EightBit.Extent
import EightBit.Fault
import EightBit.Files
import EightBit.Instruction
import EightBit.InstructionTable
import EightBit.Journal
import EightBit.Machine
import EightBit.Machine.Cycle
import EightBit.Machine.Loading
import EightBit.Machine.Run
import EightBit.Main
import EightBit.Memory
import EightBit.Numeral
import EightBit.Numeral.Scientific
import EightBit.Opcode
import EightBit.Program
import EightBit.Registers
import EightBit.Text.Blank
import EightBit.Text.Digit
import EightBit.Text.Encoding
import EightBit.Text.Number
import EightBit.Text.Printable
import EightBit.Text.Quoted
import EightBit.Text.Template
import EightBit.Trace
import EightBit.Proofs.Accesses
import EightBit.Proofs.Changes
import EightBit.Proofs.Cycle
import EightBit.Proofs.Pausing
import EightBit.Proofs.Ending
import EightBit.Proofs.Resumption
import EightBit.Proofs.Stack
import EightBit.Proofs.InstructionSet
import EightBit.Proofs.InstructionTable
import EightBit.Proofs.Conformance
import EightBit.Proofs.Aftermath
import EightBit.Proofs.Precedence
import EightBit.Proofs.Reachability
import EightBit.Proofs.Strictness
import EightBit.Proofs.Locality
import EightBit.Proofs.Writing
import EightBit.Proofs.ProgramText
import EightBit.Proofs.TraceLog
import EightBit.Proofs.Course
import EightBit.Proofs.Recording
import EightBit.Proofs.LifeCycle
import EightBit.Proofs.Watching
import EightBit.Proofs.Noting
import EightBit.Proofs.Sessions
import EightBit.Proofs.Invocation
import EightBit.Proofs.MemoryHistory
import EightBit.Proofs.RunLength
import EightBit.Proofs.Looping
import EightBit.Proofs.Statements
import EightBit.Proofs.StraightLine
import EightBit.Proofs.PushPop
import EightBit.Proofs.Concatenation
import EightBit.Proofs.Decoration
import EightBit.Proofs.Loading
import EightBit.Proofs.LineEnds
import EightBit.Proofs.Registration
import EightBit.Proofs.Bytewise
import EightBit.Proofs.Replay
import EightBit.Proofs.Residues
import EightBit.Proofs.Branching
import EightBit.Proofs.Numerals
import EightBit.Proofs.Legibility
import EightBit.Proofs.Selecting
