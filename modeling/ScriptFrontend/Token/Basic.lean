import ScriptFrontend.Decimal.Layout
import ScriptFrontend.Position
import ScriptFrontend.Text.Escaped
import ScriptFrontend.Token.Kind

set_option autoImplicit false

namespace ScriptFrontend

/-- What a token stands for. `==` compares floats as numbers, so a NaN differs from itself. -/
inductive Value where
  | string (text : String)
  | int (value : Int)
  | float (value : Float)
  | symbol (text : String)
deriving DecidableEq, BEq

namespace Value

def text? : Value → Option String
  | string s => some s
  | symbol s => some s
  | _ => none

def int? : Value → Option Int
  | int i => some i
  | _ => none

def float? : Value → Option Float
  | float x => some x
  | _ => none

def render : Value → String
  | string s => s
  | int i => toString i
  | float x => Layout.plain.render x
  | symbol s => Text.escaped s

def inspect : Value → String
  | string s => "String(" ++ Text.quoted s ++ ")"
  | int i => "Int(" ++ toString i ++ ")"
  | float x => "Float(" ++ Layout.marked.render x ++ ")"
  | symbol s => "Symbol(" ++ Text.quoted s ++ ")"

end Value

structure Token where
  position : Position
  kind : Kind
  value : Value
deriving DecidableEq, BEq

namespace Token

def render (t : Token) : String :=
  match t.kind, t.value with
  | .terminator, _ => "end of statement"
  | .string, .string s => Text.quoted s
  | _, value => value.render

def inspect (t : Token) : String :=
  t.kind.name ++ "(" ++ t.value.inspect ++ ")@" ++ t.position.render

def text (t : Token) : String :=
  match t.value with
  | .string s => s
  | value => value.render

end Token

end ScriptFrontend
