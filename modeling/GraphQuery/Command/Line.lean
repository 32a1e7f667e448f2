/-!
# Command lines

A command line holds options and operands. Short options may be written together, and a value may be
attached to its option or follow it. A value that follows must not look like an option, `--` ends
the options, and no option is given twice. The name of a file is not empty. The file of the
configuration may be named before the command or among its options; the latter counts.

Key definitions: `Switch`, `SwitchValue`, `Given`, `readArguments?`, `Request`, `Invocation`,
`Invocation.ofArguments?`.
-/

namespace GraphQuery

/-- What an option takes. -/
inductive SwitchValue where
  | nothing
  | text
  | fileName
  deriving DecidableEq

/-- Whether a text can be the value of an option. -/
def SwitchValue.admits : SwitchValue → String → Bool
  | fileName, value => value ≠ ""
  | _, _ => true

/-- An option of a command. -/
structure Switch where
  long : String
  short : Option Char
  value : SwitchValue

/-- Whether an option has a value. -/
def Switch.takesValue (s : Switch) : Bool := s.value ≠ .nothing

/-- The options and operands that a command line holds. The value of an option without one is
empty. -/
structure Given where
  options : List (String × String)
  operands : List String

namespace Given

def none : Given := ⟨[], []⟩

/-- Adds an option, unless it was given before or cannot have the value. -/
def addOption? (g : Given) (s : Switch) (value : String) : Option Given :=
  if (g.options.any fun option => option.1 = s.long) || !s.value.admits value then .none
  else some { g with options := g.options ++ [(s.long, value)] }

def addOperand (g : Given) (operand : String) : Given :=
  { g with operands := g.operands ++ [operand] }

/-- The value of an option. -/
def value? (g : Given) (long : String) : Option String := g.options.lookup long

/-- Whether an option was given. -/
def has (g : Given) (long : String) : Bool := (g.value? long).isSome

end Given

/-- Whether an argument is taken for an option: it starts with a dash and is more than that. -/
def looksLikeOption (argument : String) : Bool :=
  match argument.toList with
  | '-' :: _ :: _ => true
  | _ => false

/-- The name before the first equals sign, and the value after it. -/
def splitValue (chars : List Char) : String × Option String :=
  let name := String.ofList (chars.takeWhile (· ≠ '='))
  match chars.dropWhile (· ≠ '=') with
  | _ :: value => (name, some (String.ofList value))
  | [] => (name, none)

/-- The value that follows an option, and the arguments after it. -/
def takeValue? : List String → Option (String × List String)
  | value :: rest => if looksLikeOption value then none else some (value, rest)
  | [] => none

/-- Reads a long option: its name, its value if attached, and the arguments after it. -/
def readLong? (switches : List Switch) (g : Given) (chars : List Char) (rest : List String) :
    Option (Given × List String) := do
  let (name, attached) := splitValue chars
  let s ← switches.find? fun s => s.long = name
  match s.takesValue, attached with
  | true, some value => return (← g.addOption? s value, rest)
  | true, none =>
    let (value, rest) ← takeValue? rest
    return (← g.addOption? s value, rest)
  | false, none => return (← g.addOption? s "", rest)
  | false, some _ => none

/-- Reads short options that are written together. The first one that takes a value takes all that
follows it, less an equals sign. -/
def readShort? (switches : List Switch) (g : Given) (rest : List String) :
    List Char → Option (Given × List String)
  | [] => some (g, rest)
  | c :: chars => do
    let s ← switches.find? fun s => s.short = some c
    if s.takesValue then
      match chars with
      | [] =>
        let (value, rest) ← takeValue? rest
        return (← g.addOption? s value, rest)
      | '=' :: value => return (← g.addOption? s (String.ofList value), rest)
      | value => return (← g.addOption? s (String.ofList value), rest)
    else readShort? switches (← g.addOption? s "") rest chars

/-- Reads one option, and says which arguments are left. -/
def readOption? (switches : List Switch) (g : Given) (argument : String) (rest : List String) :
    Option (Given × List String) :=
  match argument.toList with
  | '-' :: '-' :: chars => readLong? switches g chars rest
  | '-' :: chars => readShort? switches g rest chars
  | _ => none

/-- Reads options up to the first operand, which starts the arguments that are left. Every option
takes at least one argument, so `fuel` need not exceed their number. -/
def readOptions? (switches : List Switch) : Nat → Given → List String →
    Option (Given × List String)
  | 0, g, rest => some (g, rest)
  | _, g, [] => some (g, [])
  | fuel + 1, g, argument :: rest =>
    if argument ≠ "--" && looksLikeOption argument then do
      let (g, rest) ← readOption? switches g argument rest
      readOptions? switches fuel g rest
    else some (g, argument :: rest)

/-- Reads options and operands in any order. After `--` there are operands only. -/
def readAll? (switches : List Switch) : Nat → Given → List String → Option Given
  | 0, g, _ => some g
  | _, g, [] => some g
  | fuel + 1, g, argument :: rest =>
    if argument = "--" then some (rest.foldl Given.addOperand g)
    else if looksLikeOption argument then do
      let (g, rest) ← readOption? switches g argument rest
      readAll? switches fuel g rest
    else readAll? switches fuel (g.addOperand argument) rest

/-- The options and operands of a command line. -/
def readArguments? (switches : List Switch) (arguments : List String) : Option Given :=
  readAll? switches arguments.length .none arguments

/-! ### What a command line asks for -/

/-- What is asked for. -/
inductive Request where
  | path (pattern : String) (tokensOnly : Bool) (subject object path : Option String)
    (spread : Bool)
  | check (input : Option String)
  | operations
  | operation (name : String)

/-- What is asked for, and the file of the configuration. -/
structure Invocation where
  config : Option String
  request : Request

namespace Invocation

def configSwitch : Switch := ⟨"config", some 'c', .fileName⟩

/-- The options of a command. -/
def switches : String → Option (List Switch)
  | "path" => some [configSwitch, ⟨"tokens", some 't', .nothing⟩, ⟨"subject", some 's', .text⟩,
      ⟨"object", some 'o', .text⟩, ⟨"path", none, .text⟩, ⟨"pretty", some 'p', .nothing⟩]
  | "check" => some [configSwitch, ⟨"input", some 'i', .text⟩]
  | "ops" | "op" => some [configSwitch]
  | _ => none

/-- The request that a command with its options and operands is. -/
def request? (command : String) (g : Given) : Option Request :=
  match command, g.operands with
  | "path", [pattern] =>
    some (.path pattern (g.has "tokens") (g.value? "subject") (g.value? "object") (g.value? "path")
      (g.has "pretty"))
  | "check", [] => some (.check (g.value? "input"))
  | "ops", [] => some .operations
  | "op", [name] => some (.operation name)
  | _, _ => none

/-- What a command line asks for, if it is well formed. -/
def ofArguments? (arguments : List String) : Option Invocation := do
  let (before, rest) ← readOptions? [configSwitch] arguments.length .none arguments
  match rest with
  | [] => none
  | command :: rest =>
    let switches ← switches command
    let given ← readArguments? switches rest
    let request ← request? command given
    return ⟨(given.value? "config").or (before.value? "config"), request⟩

end Invocation

end GraphQuery
