import EightBit.Text.Blank
import EightBit.Text.Template

namespace EightBit
namespace Diagnostics

/-!
# Diagnostic messages

Diagnostic messages belong to categories, and a variable of the environment
says which categories are wanted.  A wanted message becomes one line that
names its category.
-/

/-- The names that the variable may list.  The name `all` stands for every
category, also for those that have no name here. -/
inductive Category where
  | all
  | app
  | cpu
  | loader
  | mem
  | trace
deriving DecidableEq, Repr

namespace Category

/-- All names, in alphabetical order. -/
def every : List Category :=
  [all, app, cpu, loader, mem, trace]

def name : Category → String
  | all => "all"
  | app => "app"
  | cpu => "cpu"
  | loader => "loader"
  | mem => "mem"
  | trace => "trace"

theorem mem_every (category : Category) : category ∈ every := by
  cases category <;> decide

end Category

/-- A text in lower case.  Names of categories consist of ASCII letters that no
character beyond ASCII has as its lower case, so ASCII suffices here. -/
def lowered (text : List Char) : List Char :=
  text.map Char.toLower

/-- The parts of a list that is separated by commas, without blanks around them
and in lower case. -/
def listedNames (text : String) : List (List Char) :=
  (text.toList.splitOn ',').map fun part => lowered (Text.strip part)

/-- The categories that are wanted, each at most once and in the order of
`Category.every`. -/
structure Selection where
  categories : List Category
deriving DecidableEq, Repr

namespace Selection

def nothing : Selection where
  categories := []

/-- The categories that a list names.  Names that are none are ignored. -/
def ofText (text : String) : Selection where
  categories := Category.every.filter fun category => category.name.toList ∈ listedNames text

/-- Whether messages of a category are wanted, or of any category at all when
none is given. -/
def wants (selection : Selection) (category : Option String) : Bool :=
  if selection.categories.isEmpty then false
  else if .all ∈ selection.categories then true
  else
    match category with
    | none => true
    | some name =>
      selection.categories.any fun wanted => wanted.name.toList == lowered name.toList

/-- Whether messages of a named category are wanted. -/
def includes (selection : Selection) (category : Category) : Bool :=
  selection.wants (some category.name)

end Selection

/-- The text of a message.  Arguments are filled into it; where they do not fit
they are listed behind it.  A message without arguments is no template. -/
def body (template : String) (args : List Text.Value) (limit : Extent.Limit := .usual) :
    Except Text.Template.Overflow String :=
  if args.isEmpty then .ok template
  else
    match Text.Template.fill limit template args with
    | .ok text => .ok text
    | .error .mismatch => .ok (template ++ " " ++ Text.Value.listedAll args)
    | .error (.overflow cause) => .error cause

def line (category text : String) : String :=
  "[LS8][" ++ category ++ "] " ++ text

/-- The line that a message leaves, if its category is wanted.  The category is
shown as it was given. -/
def log (selection : Selection) (category template : String) (args : List Text.Value)
    (limit : Extent.Limit := .usual) : Except Text.Template.Overflow (Option String) :=
  if selection.wants (some category) then
    (body template args limit).map fun text => some (line category text)
  else .ok none

/-!
## The remembered selection

The variable is read when the first message or question needs it and is then
remembered, so that later assignments have no effect until the memory is
cleared.
-/

/-- The current value of the variable and the selection that is remembered. -/
structure Session where
  setting : String
  remembered : Option Selection := none
deriving DecidableEq, Repr

namespace Session

def assign (session : Session) (value : String) : Session :=
  { session with setting := value }

/-- Clears the memory. -/
def forget (session : Session) : Session :=
  { session with remembered := none }

/-- The selection that counts now. -/
def selection (session : Session) : Selection :=
  session.remembered.getD (.ofText session.setting)

/-- The session after the selection was needed. -/
def consulted (session : Session) : Session :=
  { session with remembered := some session.selection }

end Session
end Diagnostics
end EightBit
