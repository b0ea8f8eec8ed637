import KnittingPattern.Command.Options
import KnittingPattern.Compilation
import KnittingPattern.LogFilter
import KnittingPattern.Viewer

/-! # The command

The command compiles its inputs, writes what the options ask for, and opens the viewer.  It stops at
the first failure, whose kind is its exit code.  Main definition: `Command.run`. -/

namespace KnittingPattern

inductive CommandError where
  /-- The arguments are wrong. -/
  | usage
  | logLevel (level : String)
  | compile (e : CompileError)
  | viewer (cause : String)
deriving DecidableEq

namespace CommandError

def message : CommandError → String
  | usage => "usage error"
  | logLevel level => "invalid log level " ++ Quoted.encode level
  | compile e => e.message
  | viewer cause => "viewer failed: " ++ cause

/-- The exit code of a failed session. -/
def sessionCode : SessionError → Nat
  | .inaccessible _ _ => 3
  | .malformed _ => 1
  | _ => 6

/-- The exit code of a failed compilation: two for options, three for files, four for characters
that no token has, five for what a pattern cannot be, six for what cannot be laid out. -/
def compileCode : CompileError → Nat
  | .unknownStage _ | .unknownForm _ | .unsupported _ _ | .inputCount _ _ | .noInput => 2
  | .unreadable _ _ | .inaccessible _ _ => 3
  | .badSyntax (.unexpected .illegal _ _ _) => 4
  | .badSyntax _ | .notTree => 5
  | .badLayout _ | .unbalanced _ => 6
  | .session e => sessionCode e

def exitCode : CommandError → Nat
  | usage | logLevel _ => 2
  | compile e => compileCode e
  | viewer _ => 6

end CommandError

namespace Command

def version : String := "knit 0.1.0\n"

def help : String :=
  "Compile knitting patterns and step through them row by row\n\n" ++
    "Usage: knit [OPTIONS] <INPUTS>...\n\n" ++
    "Options:\n" ++
    "      --inform <INFORM>    What the inputs are: knit, ast or states\n" ++
    "      --ast <FILE>         Write the parsed pattern as JSON to FILE\n" ++
    "      --states <FILE>      Session snapshot: written after compiling and by the viewer\n" ++
    "      --no-run             Stop after writing outputs instead of opening the viewer\n" ++
    "      --dump <STAGE>       Print a pipeline stage and exit: " ++
    ", ".intercalate (Stage.all.map Stage.name) ++ "\n" ++
    "      --log-level <LEVEL>  Log filter\n" ++
    "      --timer              Stamp log lines with the time since startup\n" ++
    "  -h, --help               Print help\n" ++
    "  -V, --version            Print version\n"

variable {m : Type → Type} [Monad m]

/-- The surroundings of the command: its files, the viewer, which gives back the session it leaves,
and the log filter of the environment. -/
structure Surroundings (m : Type → Type) where
  files : FileAccess m
  view : Viewer → m (Except String Viewer)
  logLevel : Option String

/-- What the command leaves behind apart from files. -/
structure Outcome where
  output : String
  error : Option CommandError
deriving DecidableEq

namespace Outcome

def exitCode (o : Outcome) : Nat := (o.error.map CommandError.exitCode).getD 0

end Outcome

/-- A compilation within the command. -/
def compiling {α : Type} (x : ExceptT CompileError m α) : ExceptT CommandError m α :=
  ExceptT.mk do return (← x.run).mapError .compile

/-- The session of the inputs.  The tree is written as soon as it is read, the session when it is
complete. -/
def compile (files : FileAccess m) (o : Options) : ExceptT CompileError m Session := do
  let session ← match o.inputForm with
    | .session => Compilation.loadSession files (o.inputs.headD "")
    | form => do
      let block ← Compilation.readPattern files form o.inputs
      if let some path := o.treeFile then Compilation.writeTree files block path
      Compilation.session block
  match o.sessionFile with
  | some path =>
    Compilation.saveSession files (session.withFile path)
    return session.withFile path
  | none => return session

/-- Opens the viewer on a session; the session it leaves is saved. -/
def viewing (s : Surroundings m) (o : Options) (session : Session) :
    ExceptT CommandError m Unit := do
  let first := o.inputs.headD ""
  let session :=
    if session.file.isSome then session else session.withFile (o.inputForm.sessionFile first)
  match ← s.view (.ofSession session ((Path.fileName? first).getD first)) with
  | .error cause => throw (.viewer cause)
  | .ok viewer => compiling (Compilation.saveSession s.files viewer.session)

/-- Does what the options ask for; the answer is what is printed. -/
def perform (s : Surroundings m) (o : Options) : ExceptT CommandError m String := do
  let level := LogFilter.choose o.logLevel s.logLevel
  unless LogFilter.isValid level do throw (.logLevel level)
  (Compilation.checkInputs o.inputForm o.inputs).mapError CommandError.compile
  match o.stage with
  | some stage => compiling (Compilation.dump s.files stage o.inputForm o.inputs)
  | none =>
    let session ← compiling (compile s.files o)
    unless o.noViewer do viewing s o session
    return ""

/-- Runs a command line. -/
def run (s : Surroundings m) (args : List String) : m Outcome := do
  match parse? args with
  | none => return ⟨"", some .usage⟩
  | some .version => return ⟨version, none⟩
  | some .help => return ⟨help, none⟩
  | some (.run o) =>
    match ← (perform s o).run with
    | .ok output => return ⟨output, none⟩
    | .error e => return ⟨"", some e⟩

end Command
end KnittingPattern
