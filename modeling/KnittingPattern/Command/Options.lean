import KnittingPattern.InputForm

/-! # The options of the command line

Options may stand before, between and behind the inputs; two hyphens end them.  The value of an
option stands behind it or behind an equals sign.  No option may be given twice.  Main definition:
`Command.parse?`. -/

namespace KnittingPattern.Command

structure Options where
  inputs : List String
  form : Option InputForm
  /-- Where the tree of the pattern is written. -/
  treeFile : Option String
  /-- Where the session is written. -/
  sessionFile : Option String
  noViewer : Bool
  stage : Option Stage
  logLevel : Option String
  timer : Bool
deriving DecidableEq

/-- What a command line asks for. -/
inductive Request where
  | run (o : Options)
  | version
  | help
deriving DecidableEq

namespace Options

def none : Options := ⟨[], .none, .none, .none, false, .none, .none, false⟩

/-- Inputs are texts unless the options say otherwise. -/
def inputForm (o : Options) : InputForm := o.form.getD .texts

/-- A path; it cannot be empty. -/
def path? (s : String) : Option String := if s = "" then .none else some s

def addInput? (o : Options) (s : String) : Option Options :=
  (path? s).map fun p => { o with inputs := o.inputs ++ [p] }

def addInputs? (o : Options) (inputs : List String) : Option Options :=
  inputs.foldlM addInput? o

end Options

/-- The names of options. -/
inductive OptionName where
  | form
  | treeFile
  | sessionFile
  | stage
  | logLevel
  | noViewer
  | timer
  | version
  | help
deriving DecidableEq

namespace OptionName

/-- The option of a name; some have two. -/
def ofText? : String → Option OptionName
  | "inform" => some form
  | "inf" => some form
  | "ast" => some treeFile
  | "states" => some sessionFile
  | "dump" => some stage
  | "log-level" => some logLevel
  | "ll" => some logLevel
  | "no-run" => some noViewer
  | "norun" => some noViewer
  | "timer" => some timer
  | "version" => some version
  | "help" => some help
  | _ => none

/-- The option needs a value. -/
def takesValue : OptionName → Bool
  | form | treeFile | sessionFile | stage | logLevel => true
  | _ => false

end OptionName

/-- Sets a part of the options that is not set yet. -/
def once {α β : Type} (old : Option α) (value : Option α) (set : α → β) : Option β :=
  match old with
  | some _ => none
  | none => value.map set

namespace Options

/-- Sets an option to a value. -/
def setValue? (o : Options) (name : OptionName) (value : String) : Option Options :=
  match name with
  | .form => once o.form (InputForm.ofName? value) fun form => { o with form := some form }
  | .treeFile => once o.treeFile (path? value) fun p => { o with treeFile := some p }
  | .sessionFile => once o.sessionFile (path? value) fun p => { o with sessionFile := some p }
  | .stage => once o.stage (Stage.ofName? value) fun stage => { o with stage := some stage }
  | .logLevel => once o.logLevel (some value) fun level => { o with logLevel := some level }
  | _ => .none

/-- Turns an option on. -/
def turnOn? (o : Options) (name : OptionName) : Option Options :=
  match name with
  | .noViewer => if o.noViewer then .none else some { o with noViewer := true }
  | .timer => if o.timer then .none else some { o with timer := true }
  | _ => .none

end Options

/-- What an argument is. -/
inductive Argument where
  | input (s : String)
  | endOfOptions
  | option (name : String) (value : Option String)
  | letters (cs : List Char)

namespace Argument

/-- Splits an option at its first equals sign. -/
def splitValue (cs : List Char) : Argument :=
  option (String.ofList (cs.takeWhile fun c => c ≠ '='))
    (match cs.dropWhile fun c => c ≠ '=' with
      | [] => none
      | _ :: value => some (String.ofList value))

def ofText (s : String) : Argument :=
  match s.toList with
  | ['-', '-'] => endOfOptions
  | '-' :: '-' :: cs => splitValue cs
  | '-' :: c :: cs => letters (c :: cs)
  | _ => input s

/-- The argument can be the value of an option before it. -/
def isInput : Argument → Bool
  | input _ => true
  | _ => false

end Argument

/-- A command line has at least one input. -/
def finish? (o : Options) : Option Request := if o.inputs.isEmpty then none else some (.run o)

/-- Reads arguments one by one; there is no answer if they are wrong. -/
def parseFrom? (o : Options) : List String → Option Request
  | [] => finish? o
  | arg :: args =>
    match Argument.ofText arg with
    | .input s => do parseFrom? (← o.addInput? s) args
    | .endOfOptions => do finish? (← o.addInputs? args)
    | .letters cs =>
      match cs with
      | 'V' :: _ => some .version
      | 'h' :: _ => some .help
      | _ => none
    | .option text value => do
      let name ← OptionName.ofText? text
      match value with
      | some value => parseFrom? (← o.setValue? name value) args
      | none =>
        if name.takesValue then
          match args with
          | [] => none
          | value :: args =>
            if (Argument.ofText value).isInput then parseFrom? (← o.setValue? name value) args
            else none
        else if name = .version then some .version
        else if name = .help then some .help
        else parseFrom? (← o.turnOn? name) args

/-- What a command line asks for. -/
def parse? (args : List String) : Option Request := parseFrom? .none args

end KnittingPattern.Command
