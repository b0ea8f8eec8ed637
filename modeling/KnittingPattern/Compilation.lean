import KnittingPattern.InputForm
import KnittingPattern.Pattern.Decoding
import KnittingPattern.Pattern.Reader
import KnittingPattern.Record.Layout
import KnittingPattern.Session.Snapshot
import KnittingPattern.State.Unrolling
import KnittingPattern.Yaml

/-! # Compiling patterns

A pattern is read from texts or from a tree, laid out as records and unrolled into the states of a
session; a session is loaded as it is.  `compile` makes the session of any input, `dump` shows a
stage of it.  Whatever fails first is the error. -/

namespace KnittingPattern

inductive CompileError where
  | unknownStage (name : String)
  | unknownForm (name : String)
  | unsupported (stage : Stage) (form : InputForm)
  | inputCount (form : InputForm) (count : Nat)
  | noInput
  | unreadable (path : String) (cause : FileError)
  | inaccessible (path : String) (cause : FileError)
  | notTree
  | badSyntax (e : SyntaxError)
  | badLayout (e : LayoutError)
  | unbalanced (e : Unbalanced)
  | session (e : SessionError)
deriving DecidableEq

namespace CompileError

def message : CompileError → String
  | unknownStage name => "invalid dump format " ++ Quoted.encode name
  | unknownForm name =>
    "invalid input form " ++ Quoted.encode name ++ ": expected knit, ast or states"
  | unsupported stage form => "cannot dump " ++ stage.name ++ " from " ++ form.name ++ " input"
  | inputCount form count =>
    form.name ++ " input takes exactly one file, got " ++ toString count
  | noInput => "no pattern sources given"
  | unreadable path cause => "cannot read pattern source " ++ path ++ ": " ++ cause.message
  | inaccessible path cause => "cannot access " ++ path ++ ": " ++ cause.message
  | notTree => "invalid pattern JSON"
  | badSyntax e => e.message
  | badLayout e => e.message
  | unbalanced e => e.message
  | session e => e.message

end CompileError

namespace Compilation

def formOfName (name : String) : Except CompileError InputForm :=
  match InputForm.ofName? name with
  | some form => .ok form
  | none => .error (.unknownForm name)

def stageOfName (name : String) : Except CompileError Stage :=
  match Stage.ofName? name with
  | some stage => .ok stage
  | none => .error (.unknownStage name)

/-- Texts may be several; a tree or a session is in one file. -/
def checkInputs (form : InputForm) (inputs : List String) : Except CompileError Unit :=
  match form with
  | .texts => if inputs.isEmpty then .error .noInput else .ok ()
  | _ => if inputs.length = 1 then .ok () else .error (.inputCount form inputs.length)

/-- The records of a pattern. -/
def records (b : Block) : Except CompileError (List Record) := b.records.mapError .badLayout

/-- The states of a pattern. -/
def states (b : Block) : Except CompileError (List State) := do
  (State.ofRecords (← records b)).mapError .unbalanced

/-- The session of a pattern. -/
def session (b : Block) : Except CompileError Session := (states b).map Session.ofStates

variable {m : Type → Type} [Monad m] (files : FileAccess m)

/-- Reads texts in their order, up to the first that cannot be read. -/
def readTexts : List String → ExceptT CompileError m (List String)
  | [] => return []
  | path :: paths => do
    let text ← ExceptT.mk do return (← files.read path).mapError (.unreadable path)
    return text :: (← readTexts paths)

/-- Reads a tree. -/
def readTree (path : String) : ExceptT CompileError m Block := do
  let text ← ExceptT.mk do return (← files.read path).mapError (.inaccessible path)
  match Pattern.ofJson? text with
  | some b => return b
  | none => throw .notTree

/-- Writes a tree. -/
def writeTree (b : Block) (path : String) : ExceptT CompileError m Unit :=
  ExceptT.mk do return (← files.write path b.toJson.pretty).mapError (.inaccessible path)

/-- Loads a session. -/
def loadSession (path : String) : ExceptT CompileError m Session :=
  ExceptT.mk do return (← Session.load files path).mapError .session

/-- Saves a session to its file. -/
def saveSession (s : Session) : ExceptT CompileError m Unit :=
  ExceptT.mk do return (← Session.save files s).mapError .session

/-- Reads a pattern; a session holds none. -/
def readPattern (form : InputForm) (inputs : List String) : ExceptT CompileError m Block := do
  checkInputs form inputs
  match form with
  | .texts =>
    let texts ← readTexts files inputs
    (Pattern.ofSources texts).mapError CompileError.badSyntax
  | .tree => readTree files (inputs.headD "")
  | .session => throw (.unsupported .treeJson form)

/-- The session of any input. -/
def compile (form : InputForm) (inputs : List String) : ExceptT CompileError m Session := do
  checkInputs form inputs
  match form with
  | .session => loadSession files (inputs.headD "")
  | _ => session (← readPattern files form inputs)

/-- A stage of a compilation as a text. -/
def dump (stage : Stage) (form : InputForm) (inputs : List String) :
    ExceptT CompileError m String := do
  unless stage.accepts form do throw (.unsupported stage form)
  match stage with
  | .tokens =>
    checkInputs form inputs
    let texts ← readTexts files inputs
    return String.join ((inputs.zip texts).map fun (path, text) =>
      "== " ++ path ++ " ==\n" ++ Token.listing (Token.tokenize 0 text))
  | .treeJson => return (← readPattern files form inputs).toJson.pretty
  | .treeYaml => return (← readPattern files form inputs).document.yaml
  | .records => return Record.listing (← records (← readPattern files form inputs))
  | .states =>
    return String.join ((← compile files form inputs).states.map fun s => s.text ++ "\n")

end Compilation
end KnittingPattern
