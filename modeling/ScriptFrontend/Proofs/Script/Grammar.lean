import ScriptFrontend.Script.Parser

/-! The grammar of scripts, as the derivation trees it allows.

A script is a list of clauses, none of which is an import behind a binding. The leaves of a clause
are tokens of the kinds that stand in the rule; the declaration it makes is read off its leaves.
-/

set_option autoImplicit false

namespace ScriptFrontend

abbrev Terminal (kinds : List Kind) := {t : Token // t.kind ∈ kinds}

namespace Grammar

abbrev Separator := Terminal [.symbol .semi, .terminator]

abbrev Operand := Terminal [.int, .float, .string, .ident]

inductive Clause where
  | empty (separator : Separator)
  | imported (keyword : Terminal [.keyword .importKw]) (path : Terminal [.string])
      (given : Option (Terminal [.keyword .asKw] × Terminal [.ident])) (separator : Separator)
  | bound (keyword : Terminal [.keyword .letKw]) (name : Terminal [.ident])
      (stated : Option (Terminal [.ident])) (assign : Terminal [.symbol .assign])
      (value : Operand) (separator : Separator)

/-- A name stands for itself, and a literal for its value. -/
def expr (t : Token) : Expr :=
  match t.kind, t.value with
  | .int, .int i => .int i
  | .float, .float x => .float x
  | .string, .string s => .string s
  | _, _ => .name t.text

namespace Clause

def tokens : Clause → List Token
  | empty separator => [separator]
  | imported keyword path given separator =>
    keyword :: path :: (given.elim [] (fun g => [g.1.val, g.2.val]) ++ [separator.val])
  | bound keyword name stated assign value separator =>
    keyword :: name :: (stated.elim [] (fun a => [a.val]) ++
      [assign.val, value.val, separator.val])

def isImport : Clause → Bool
  | imported .. => true
  | _ => false

def isBinding : Clause → Bool
  | bound .. => true
  | _ => false

def importOf (start : Position) (path : Token) (given : Option Token) : Import :=
  ⟨start, given.elim (baseName path.text) Token.text, path.text⟩

def bindingOf (start : Position) (name : Token) (stated : Option Token) (value : Token) :
    Binding :=
  ⟨start, name.text, stated.elim (expr value).ty (fun a => .named a.text), expr value⟩

def declaration? : Clause → Option Declaration
  | empty _ => none
  | imported keyword path given _ =>
    some (.imported (importOf keyword.val.position path (given.map (·.2.val))))
  | bound keyword name stated _ value _ =>
    some (.bound (bindingOf keyword.val.position name (stated.map (·.val)) value))

end Clause

/-- A derivation of the tokens from the grammar. -/
structure Derivation (tokens : List Token) where
  clauses : List Clause
  ordered : clauses.Pairwise fun a b => a.isBinding → b.isImport = false
  yield : clauses.flatMap Clause.tokens = tokens

def Derivation.declarations {tokens : List Token} (d : Derivation tokens) : List Declaration :=
  d.clauses.filterMap Clause.declaration?

end Grammar

end ScriptFrontend
