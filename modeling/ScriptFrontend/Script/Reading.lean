import ScriptFrontend.Script.Parser
import ScriptFrontend.Token.Scanner

set_option autoImplicit false

namespace ScriptFrontend

namespace Scanner

def ofText (text : String) : Scanner (Feed Char InputError) :=
  ofSource (.ofList text.toList)

end Scanner

namespace Script

def ofSource {σ : Type} [Source σ Char InputError] (lenient : Bool) (enclosing : Scope)
    (source : σ) : Except ParseError Script :=
  ofTokens lenient enclosing (Scanner.ofSource source).feed

def ofText (lenient : Bool) (enclosing : Scope) (text : String) : Except ParseError Script :=
  ofTokens lenient enclosing (Scanner.ofText text).feed

end Script

end ScriptFrontend
