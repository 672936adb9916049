import EightBit.Text.Digit
import EightBit.Text.Number
import EightBit.Text.Quoted

namespace EightBit
namespace CommandLine

/-!
# Arguments

A command line has options and at most one program.  An option is named in full
or by any unambiguous beginning of its name, and takes its value from behind an
equals sign or from the next argument.  Two dashes end the options; attached to
an option they are dropped and leave it without a value.  First every argument
is told apart, then options and program are taken in order, so an ambiguous
name is an error even behind a request for help.
-/

inductive Switch where
  | help
  | memorySize
  | strict
  | trace
  | interval
  | maxCycles
deriving DecidableEq, Repr

namespace Switch

def all : List Switch :=
  [help, memorySize, strict, trace, interval, maxCycles]

def names : Switch → List String
  | help => ["-h", "--help"]
  | memorySize => ["--memory-size"]
  | strict => ["--strict"]
  | trace => ["--trace"]
  | interval => ["--interval"]
  | maxCycles => ["--max-cycles"]

/-- An option in messages. -/
def label (switch : Switch) : String :=
  "/".intercalate switch.names

def takesValue : Switch → Bool
  | help => false
  | strict => false
  | _ => true

def spellings : List (String × Switch) :=
  all.flatMap fun switch => switch.names.map fun name => (name, switch)

def named? (name : String) : Option Switch :=
  (spellings.find? fun (spelling, _) => spelling == name).map Prod.snd

end Switch

inductive UsageError where
  | ambiguous (argument : String) (candidates : List String)
  | missingValue (switch : Switch)
  | needlessValue (switch : Switch) (value : String)
  | notInteger (switch : Switch) (value : String)
  | notReal (switch : Switch) (value : String)
  | unrecognized (arguments : List String)
  | programMissing (path : String)
  | memorySize
deriving DecidableEq, Repr

def UsageError.message : UsageError → String
  | ambiguous argument candidates =>
    "ambiguous option: " ++ argument ++ " could match " ++ ", ".intercalate candidates
  | missingValue switch => "argument " ++ switch.label ++ ": expected one argument"
  | needlessValue switch value =>
    "argument " ++ switch.label ++ ": ignored explicit argument " ++ Text.quoted value
  | notInteger switch value =>
    "argument " ++ switch.label ++ ": invalid int value: " ++ Text.quoted value
  | notReal switch value =>
    "argument " ++ switch.label ++ ": invalid float value: " ++ Text.quoted value
  | unrecognized arguments => "unrecognized arguments: " ++ " ".intercalate arguments
  | programMissing path => "Program file not found: " ++ path
  | memorySize => "--memory-size must be positive"

/-- What an argument is. -/
inductive Token where
  /-- An option, with the value that is attached to it. -/
  | option (switch : Switch) (attached : Option String)
  /-- The short name of the option for help, with more behind it. -/
  | helpCluster (attached : String)
  /-- What looks like an option and is none. -/
  | unknown (text : String)
  /-- Two dashes. -/
  | divider
  /-- Anything else. -/
  | word (text : String)
deriving DecidableEq, Repr

namespace Token

/-- Splits a text at its first equals sign. -/
def splitValue (text : List Char) : List Char × Option String :=
  match text.dropWhile (· ≠ '=') with
  | [] => (text, none)
  | _ :: value => (text.takeWhile (· ≠ '='), some (String.ofList value))

/-- Whether a text is a negative number: a dash and digits, perhaps with a point
before at least one of them.  A line feed may follow. -/
def isNegativeNumber (text : List Char) : Bool :=
  let isDigit := fun char => (Text.digitValue? char).isSome
  let ended := fun rest : List Char => rest == [] || rest == ['\n']
  match text with
  | '-' :: body =>
    let whole := body.takeWhile isDigit
    match body.dropWhile isDigit with
    | '.' :: more => !(more.takeWhile isDigit).isEmpty && ended (more.dropWhile isDigit)
    | rest => !whole.isEmpty && ended rest
  | _ => false

/-- The names that begin with a text. -/
def candidates (start : List Char) : List (String × Switch) :=
  Switch.spellings.filter fun (spelling, _) => start.isPrefixOf spelling.toList

/-- An argument that begins with a dash, is no full name and names no option by
its beginning: a word if it is a negative number or has a space, else unknown. -/
def leftover (text : String) : Token :=
  if isNegativeNumber text.toList || ' ' ∈ text.toList then .word text else .unknown text

/-- An argument that begins with one dash and is no full name. -/
def ofDashed (text : String) : Token :=
  match text.toList with
  | '-' :: 'h' :: '=' :: value => .helpCluster (String.ofList value)
  | '-' :: 'h' :: rest => .helpCluster (String.ofList rest)
  | _ => leftover text

/-- An argument that begins with two dashes and is no full name. -/
def ofDoubleDashed (text : String) : Except UsageError Token :=
  let (start, attached) := splitValue text.toList
  match attached, Switch.named? (String.ofList start) with
  | some value, some switch => .ok (.option switch (some value))
  | _, _ =>
    match candidates start with
    | [] => .ok (leftover text)
    | [(_, switch)] => .ok (.option switch attached)
    | several => .error (.ambiguous text (several.map Prod.fst))

/-- Tells what an argument before the two dashes is. -/
def ofArgument (text : String) : Except UsageError Token :=
  match text.toList, Switch.named? text with
  | _, some switch => .ok (.option switch none)
  | '-' :: '-' :: _, none => ofDoubleDashed text
  | '-' :: _ :: _, none => .ok (ofDashed text)
  | _, none => .ok (.word text)

/-- Tells what each argument is.  After two dashes everything is a word. -/
def ofArguments : List String → Except UsageError (List Token)
  | [] => .ok []
  | text :: rest =>
    if text = "--" then .ok (.divider :: rest.map .word)
    else do
      let token ← ofArgument text
      let tokens ← ofArguments rest
      .ok (token :: tokens)

end Token

/-- What an option was set to. -/
inductive Assigned (α : Type) where
  | value (content : α)
  /-- The option was given two dashes for its value. -/
  | nothing
deriving DecidableEq, Repr

def Assigned.getD (assigned : Assigned α) (default : α) : α :=
  match assigned with
  | .value content => content
  | .nothing => default

/-- The values of the options and the program. -/
structure Options where
  program : Option String := none
  memorySize : Assigned Int := .value 256
  strict : Bool := false
  trace : Assigned Int := .value 0
  interval : Assigned Text.Real := .value (.finite false 0 0)
  maxCycles : Assigned (Option Int) := .value none
deriving DecidableEq, Repr

/-- Why parsing stops before its end. -/
inductive Stop where
  | help
  | usage (error : UsageError)
deriving DecidableEq, Repr

/-- What was found so far: the options, whether a program can still come, and
the arguments that nothing takes, latest first. -/
structure Found where
  options : Options := {}
  programOpen : Bool := true
  extras : List String := []
deriving DecidableEq, Repr

namespace Found

/-- Reads the value of an option, unless it is two dashes. -/
def assigned (read? : String → Option α) (refusal : String → UsageError) (text : String) :
    Except Stop (Assigned α) :=
  if text = "--" then .ok .nothing
  else
    match read? text with
    | some content => .ok (.value content)
    | none => .error (.usage (refusal text))

/-- Takes an option with its value.  A later value replaces an earlier one. -/
def withValue (found : Found) (switch : Switch) (value : String) : Except Stop Found :=
  let options := found.options
  match switch with
  | .help => .error .help
  | .strict => .ok { found with options := { options with strict := true } }
  | .memorySize =>
    (assigned Text.readInteger? (.notInteger switch) value).map fun memorySize =>
      { found with options := { options with memorySize } }
  | .trace =>
    (assigned Text.readInteger? (.notInteger switch) value).map fun trace =>
      { found with options := { options with trace } }
  | .maxCycles =>
    (assigned (fun text => (Text.readInteger? text).map some) (.notInteger switch) value).map
      fun maxCycles => { found with options := { options with maxCycles } }
  | .interval =>
    (assigned Text.readReal? (.notReal switch) value).map fun interval =>
      { found with options := { options with interval } }

def withFlag (found : Found) (switch : Switch) : Except Stop Found :=
  found.withValue switch ""

/-- Takes a word: the first is the program. -/
def withWord (found : Found) (text : String) : Found :=
  if found.programOpen then
    { found with
      options := { found.options with program := some text }
      programOpen := false }
  else { found with extras := text :: found.extras }

/-- Puts an argument aside that nothing takes. -/
def withExtra (found : Found) (text : String) : Found :=
  { found with extras := text :: found.extras }

/-- Takes help with more behind its short name.  Repetitions of the letter are
further requests for help; anything else behind it is refused, and so is an
equals sign with nothing behind it. -/
def withCluster (attached : String) : Except Stop Found :=
  let rest := attached.toList.dropWhile (· = 'h')
  if attached.isEmpty || !rest.isEmpty then
    .error (.usage (.needlessValue .help (String.ofList rest)))
  else .error .help

/-- The words behind two dashes.  The dashes go with the program: they are put
aside only when the program was complete before them. -/
def withRest (found : Found) (dashed : Bool) (words : List Token) : Found :=
  let texts := words.filterMap fun token =>
    match token with
    | .word text => some text
    | _ => none
  let found := if dashed then found.withExtra "--" else found
  texts.foldl withWord found

/-- Takes tokens in order.  The flag says that the last token was the word that
became the program. -/
def take (found : Found) (afterProgram : Bool) : List Token → Except Stop Found
  | [] => .ok found
  | .option switch attached :: rest =>
    match switch.takesValue, attached, rest with
    | true, some value, rest => do (← found.withValue switch value).take false rest
    | true, none, .word value :: rest => do (← found.withValue switch value).take false rest
    | true, none, _ => .error (.usage (.missingValue switch))
    | false, some value, _ => .error (.usage (.needlessValue switch value))
    | false, none, rest => do (← found.withFlag switch).take false rest
  | .helpCluster attached :: _ => withCluster attached
  | .unknown text :: rest => (found.withExtra text).take false rest
  | .word text :: rest => (found.withWord text).take found.programOpen rest
  | .divider :: rest => .ok (found.withRest (!found.programOpen && !afterProgram) rest)

end Found

namespace Options

def parse (arguments : List String) : Except Stop Options :=
  match Token.ofArguments arguments with
  | .error error => .error (.usage error)
  | .ok tokens => do
    let found ← ({} : Found).take false tokens
    if found.extras.isEmpty then .ok found.options
    else .error (.usage (.unrecognized found.extras.reverse))

end Options
end CommandLine
end EightBit
