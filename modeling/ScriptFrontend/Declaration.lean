import ScriptFrontend.Decimal.Layout
import ScriptFrontend.Position
import ScriptFrontend.Ty

set_option autoImplicit false

namespace ScriptFrontend

/-- `==` compares float literals as numbers, so a NaN differs from itself. -/
inductive Expr where
  | int (value : Int)
  | float (value : Float)
  | string (text : String)
  | name (id : String)
deriving DecidableEq, BEq

namespace Expr

def ty : Expr → Ty
  | int _ => .named "int"
  | float _ => .named "float"
  | string _ => .named "string"
  | name _ => .unknown

def inspect : Expr → String
  | int i => "Literal(Int(" ++ toString i ++ "))"
  | float x => "Literal(Float(" ++ Layout.marked.render x ++ "))"
  | string s => "Literal(String(" ++ Text.quoted s ++ "))"
  | name id => "Name(" ++ Text.quoted id ++ ")"

end Expr

structure Import where
  position : Position
  name : String
  path : String
deriving DecidableEq

structure Binding where
  position : Position
  name : String
  ty : Ty
  value : Expr
deriving DecidableEq, BEq

namespace Binding

/-- A name that ends in `!` stays as it is. -/
def isMutable (b : Binding) : Bool :=
  b.name.toList.getLast? != some '!'

def isExported (b : Binding) : Bool :=
  b.name.toList.head? != some '_'

end Binding

inductive Declaration where
  | imported (what : Import)
  | bound (what : Binding)
deriving DecidableEq, BEq

inductive TypeFault where
  | ofImport (path : String)
deriving DecidableEq

def TypeFault.message : TypeFault → String
  | ofImport path => "not implemented: type of import " ++ Text.quoted path ++ " can not be derived"

namespace Declaration

def id : Declaration → String
  | imported i => i.name
  | bound b => b.name

def position : Declaration → Position
  | imported i => i.position
  | bound b => b.position

def hasType : Declaration → Bool
  | imported _ => false
  | bound _ => true

def ty : Declaration → Except TypeFault Ty
  | imported i => .error (.ofImport i.path)
  | bound b => .ok b.ty

def isMutable : Declaration → Bool
  | imported _ => false
  | bound b => b.isMutable

def isExported : Declaration → Bool
  | imported _ => false
  | bound b => b.isExported

end Declaration

end ScriptFrontend
