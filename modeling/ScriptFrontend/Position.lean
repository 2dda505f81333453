set_option autoImplicit false

namespace ScriptFrontend

/-- A line and a column, both counted from 1. Positions are ordered by line, then by column. -/
structure Position where
  line : Nat
  column : Nat
deriving DecidableEq, Ord

namespace Position

def origin : Position := ⟨0, 0⟩

def render (p : Position) : String :=
  toString p.line ++ ":" ++ toString p.column

def sort (ps : List Position) : List Position :=
  ps.mergeSort fun p q => (compare p q).isLE

end Position

structure Located (ε : Type) where
  cause : ε
  position : Option Position
deriving DecidableEq

def Located.describe {ε : Type} (text : ε → String) (e : Located ε) : String :=
  match e.position with
  | some p => p.render ++ ": " ++ text e.cause
  | none => text e.cause

end ScriptFrontend
