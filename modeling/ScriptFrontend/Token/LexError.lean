import ScriptFrontend.Position
import ScriptFrontend.Source.InputError
import ScriptFrontend.Text.Escaped

set_option autoImplicit false

namespace ScriptFrontend

inductive LexCause where
  | unexpectedChar (c : Char)
  | unterminatedString
  | unterminatedChar
  | emptyChar
  | charTooLong
  | invalidEscape (text : String)
  | malformedNumber (text : String) (reason : String)
  | input (error : InputError)
deriving DecidableEq

def LexCause.message : LexCause → String
  | unexpectedChar c => "unexpected character: " ++ Text.quotedChar c
  | unterminatedString => "unterminated string literal"
  | unterminatedChar => "unterminated char literal"
  | emptyChar => "empty char literal"
  | charTooLong => "char literal too long"
  | invalidEscape text => "invalid escape sequence: " ++ text
  | malformedNumber text reason => "malformed number " ++ Text.quoted text ++ ": " ++ reason
  | input error => error.message

abbrev LexError := Located LexCause

def LexError.describe (e : LexError) : String :=
  Located.describe LexCause.message e

end ScriptFrontend
