import GraphQuery.Command.Answer
import GraphQuery.Command.Line
import GraphQuery.File.Tree
import GraphQuery.Operation.Reference

/-!
# Running commands

A command line is run in an environment, which gives it the texts of files, and the input. In
memory, the files are a tree and the input is a state, so that a run is a plain function. The
configuration is read first, whatever the command. A command line that is not well formed fails with
code 2, any other failure with code 1.

Key definitions: `Environment`, `Environment.ofTree`, `Outcome`, `Invocation.run`, `runCommand`.
-/

namespace GraphQuery

/-! ### Environments -/

/-- What a command can read. A failure to read comes with its reason. -/
structure Environment (m : Type → Type) where
  fileText : String → m (Except FileFault String)
  /-- The input, if any is given. -/
  inputText : m (Except FileFault (Option String))

/-- Reads the input to its end, which leaves none of it. -/
def takeInput : StateM String String := modifyGet fun input => (input, "")

/-- Reads what is at a place. -/
def Place.text (p : Place) : StateM String (Except FileFault String) :=
  match p.here with
  | .file text => return .ok text
  | .input => return .ok (← takeInput)
  | .directory _ => return .error .isDirectory

/-- The environment that a tree of files makes. The names lead from its root to the working
directory. -/
def Environment.ofTree (root : FileTree) (workingDirectory : List String) :
    Environment (StateM String) where
  fileText path :=
    match root.reach workingDirectory path with
    | .ok place => place.text
    | .error fault => return .error fault
  inputText := return .ok (some (← takeInput))

/-! ### Runs -/

/-- What a command leaves behind. -/
structure Outcome where
  code : Nat
  output : String
  errors : String
  deriving DecidableEq

namespace Outcome

/-- Success with some output. -/
def success (output : String) : Outcome := ⟨0, output, ""⟩

/-- The outcome of a command that may have failed. -/
def ofResult : Except CommandError String → Outcome
  | .ok output => success output
  | .error e => ⟨1, "", e.message ++ "\n"⟩

/-- The command line was not well formed. -/
def usage : Outcome :=
  ⟨2, "", "Usage: woql [-c FILE] (path PATTERN | check | ops | op NAME) [OPTIONS]\n"⟩

end Outcome

/-- The output of the path command. -/
def pathOutput (spread : Bool) : PathAnswer → String
  | .tokens tokens => Token.joined tokens ++ "\n"
  | answer => (if spread then answer.toJson.spread else answer.toJson.compact) ++ "\n"

/-- The settings that a file holds. -/
def configOfFile (file : String) : Except FileFault String → Except Error Config
  | .ok text => Config.ofText? text
  | .error fault => .error (.config (.unreadable file fault))

variable {m : Type → Type} [Monad m]

/-- The settings of an invocation. -/
def Invocation.loadConfig (env : Environment m) (i : Invocation) : m (Except Error Config) :=
  match i.config with
  | none => return .ok .standard
  | some file => return configOfFile file (← env.fileText file)

/-- Runs a request. -/
def Request.run (env : Environment m) (config : Config) : Request → m (Except CommandError String)
  | .path pattern tokensOnly subject object edges spread =>
    let r : PathRequest := { pattern, tokensOnly, subject, object, path := edges, config }
    return (r.answer.mapError .query).map (pathOutput spread)
  | .check (some text) => return (Report.ofInput (some text)).map Report.text
  | .check none => do
    match ← env.inputText with
    | .ok input => return (Report.ofInput input).map Report.text
    | .error fault => return .error (.unreadable fault)
  | .operations => return .ok overview
  | .operation name => return (describe? name).elim (.error (.unknownOperation name)) .ok

/-- Runs an invocation. -/
def Invocation.run (env : Environment m) (i : Invocation) : m Outcome := do
  match ← i.loadConfig env with
  | .error e => return .ofResult (.error (.query e))
  | .ok config => return .ofResult (← i.request.run env config)

/-- Runs a command line. -/
def runCommand (env : Environment m) (arguments : List String) : m Outcome :=
  match Invocation.ofArguments? arguments with
  | some i => i.run env
  | none => return .usage

end GraphQuery
