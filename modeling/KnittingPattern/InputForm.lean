import KnittingPattern.Path

/-! # Forms of input and stages

A pattern comes as texts, as a tree or as a session, and can be shown at several stages of its
compilation.  A stage can be shown if it does not lie before the form of the input. -/

namespace KnittingPattern

/-- What the input of a compilation is. -/
inductive InputForm where
  | texts
  | tree
  | session
deriving DecidableEq

namespace InputForm

def name : InputForm → String
  | texts => "knit"
  | tree => "ast"
  | session => "states"

/-- Reads the name of a form in any case. -/
def ofName? (s : String) : Option InputForm :=
  let word := s.toList.map Char.toLower
  [texts, tree, session].find? fun form => form.name.toList = word

/-- Where the session of a compilation is saved: beside the first input, or in its place if it is a
session. -/
def sessionFile (form : InputForm) (path : String) : String :=
  match form with
  | session => path
  | _ =>
    let stem := ((Path.fileName? path).map Path.stem).getD "knit"
    Path.withFileName path (stem ++ ".states.json")

end InputForm

/-- A stage of a compilation that can be shown. -/
inductive Stage where
  | tokens
  | treeJson
  | treeYaml
  | records
  | states
deriving DecidableEq

namespace Stage

def name : Stage → String
  | tokens => "tokens"
  | treeJson => "ast-json"
  | treeYaml => "ast-yaml"
  | records => "lines"
  | states => "states"

/-- The stages in their order. -/
def all : List Stage := [tokens, treeJson, treeYaml, records, states]

def ofName? (s : String) : Option Stage := all.find? fun stage => stage.name = s

/-- The stage can be reached from a form of input. -/
def accepts (stage : Stage) (form : InputForm) : Bool :=
  match stage with
  | tokens => form == .texts
  | states => true
  | _ => form != .session

end Stage
end KnittingPattern
