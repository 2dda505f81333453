import ScriptFrontend.Token.Basic
import ScriptFrontend.Token.LexError

set_option autoImplicit false

namespace ScriptFrontend

inductive ParseCause where
  | expectedToken (expected : Kind) (found : Token)
  | unexpectedToken (found : Token)
  | unexpectedEnd (expected : Option Kind)
  | importAfterDeclaration
  | lexical (error : LexError)
deriving DecidableEq

namespace ParseCause

/-- The place of a lexical error is left out: the error it becomes has the same one. -/
def message : ParseCause → String
  | expectedToken expected found => "expected " ++ expected.name ++ ", got " ++ found.render
  | unexpectedToken found => "unexpected token: " ++ found.render
  | unexpectedEnd none => "unexpected end of input"
  | unexpectedEnd (some expected) => "unexpected end of input, expected " ++ expected.name
  | importAfterDeclaration => "imports must come before all other top-level declarations"
  | lexical error => "scan for next token: " ++ error.cause.message

def sources : ParseCause → List String
  | lexical error => [error.describe]
  | _ => []

end ParseCause

abbrev ParseError := Located ParseCause

def ParseError.describe (e : ParseError) : String :=
  Located.describe ParseCause.message e

end ScriptFrontend
