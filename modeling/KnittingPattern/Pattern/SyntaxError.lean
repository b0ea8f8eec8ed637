import KnittingPattern.Token

/-! # Syntax errors

What is wrong with the first token that no pattern can go on with. -/

namespace KnittingPattern

open Token (Kind)

/-- What a reader of patterns may ask for. -/
inductive Expectation where
  | statement
  | lineEnd
  | synonymTarget
  | lineRest
  | braceRest
  | definition
  | rowRest
  | inlineRowRest
  | stitchRest
  | argumentRest
  | argument
  | sizeValue
  | unit
deriving DecidableEq

namespace Expectation

def text : Expectation → String
  | statement => "a statement"
  | lineEnd => "end of line"
  | synonymTarget => "an alias target"
  | lineRest => "':=', '=', a stitch or end of line"
  | braceRest => "a newline or a stitch after '\x7b'"
  | definition => "a row or a group"
  | rowRest => "a stitch or end of line"
  | inlineRowRest => "a stitch or '\x7d'"
  | stitchRest => "a stitch, '(' or end of line"
  | argumentRest => "',' or ')'"
  | argument => "an argument"
  | sizeValue => "a size after '-'"
  | unit => "a unit, ',' or ')'"

end Expectation

inductive SyntaxError where
  | unexpected (found : Kind) (literal : String) (position : Position) (expected : Expectation)
  | unclosedRow (position opened : Position)
  | unclosedGroup (position opened : Position)
  | invalidNumber (literal : String) (position : Position)
  | unknownUnit (literal : String) (position : Position)
deriving DecidableEq

namespace SyntaxError

def message : SyntaxError → String
  | unexpected found literal position expected =>
    position.text ++ ": expected " ++ expected.text ++ ", found " ++ found.description ++ " " ++
      Quoted.encode literal
  | unclosedRow position opened =>
    position.text ++ ": inline row opened at " ++ opened.text ++ " must close on the same line"
  | unclosedGroup position opened =>
    position.text ++ ": group opened at " ++ opened.text ++ " is never closed"
  | invalidNumber literal position =>
    position.text ++ ": " ++ Quoted.encode literal ++ " is not a number"
  | unknownUnit literal position =>
    position.text ++ ": unknown unit " ++ Quoted.encode literal ++ ", expected mm, cm, \" or '"

/-- The position of the token that is wrong. -/
def position : SyntaxError → Position
  | unexpected _ _ p _ => p
  | unclosedRow p _ => p
  | unclosedGroup p _ => p
  | invalidNumber _ p => p
  | unknownUnit _ p => p

end SyntaxError
end KnittingPattern
