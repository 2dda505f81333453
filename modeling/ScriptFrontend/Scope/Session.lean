import ScriptFrontend.Script.Parser

/-! Sessions: scopes that are made one from another, and questions about them.

Scopes with the same links can still be different ones, so every link that is made gets a number of
its own.
-/

set_option autoImplicit false

namespace ScriptFrontend

/-- A scope and the numbers of its links, innermost first. The root has a number too. -/
structure NumberedScope where
  scope : Scope
  numbers : List Nat

/-- The scopes of a session in the order in which they were made. Links are numbered below `links`.
-/
structure Session where
  scopes : Array NumberedScope := #[]
  links : Nat := 0

inductive Origin where
  | root
  | initial
  | child (of : Nat)
  | same (of : Nat)
  | add (of : Nat) (declaration : Declaration)
  | addAll (of : Nat) (declarations : List Declaration)
  | parent (of : Nat)
  | script (of : Nat) (lenient : Bool) (tokens : Feed Token LexError)
  | chain (of : Nat) (stem : String) (count : Nat)

inductive Question where
  | get (id : String)
  | getLocal (id : String)
  | scriptGet (id : String)
  | ty (id : String)
  | isRoot
  | locals
  | scriptDeclarations
  | localIds
  | depth
  | inspect
  | inspectTall
  /-- Whether the scope is the very same as another one. -/
  | isSame (as : Nat)

inductive Answer where
  | scope (number : Nat) (made : Scope)
  | nothing
  | rejected (error : ParseError)
  | declaration (found : Option Declaration)
  | ty (found : Option (Except TypeFault Ty))
  | flag (value : Bool)
  | declarations (all : List Declaration)
  | ids (all : List String)
  | count (value : Nat)
  | text (value : String)

namespace NumberedScope

def extend (s : NumberedScope) (link : Nat) (scope : Scope) : NumberedScope :=
  ⟨scope, link :: s.numbers⟩

def answer (s : NumberedScope) (other : Nat → Option NumberedScope) : Question → Answer
  | .get id => .declaration (s.scope.get? id)
  | .getLocal id => .declaration (s.scope.getLocal? id)
  | .scriptGet id => .declaration (Script.get? ⟨s.scope⟩ id)
  | .ty id => .ty ((s.scope.get? id).map Declaration.ty)
  | .isRoot => .flag s.scope.isRoot
  | .locals => .declarations s.scope.locals
  | .scriptDeclarations => .declarations (Script.declarations ⟨s.scope⟩)
  | .localIds => .ids s.scope.localIds
  | .depth => .count s.scope.depth
  | .inspect => .text s.scope.inspect
  | .inspectTall => .text s.scope.inspectTall
  | .isSame as => .flag ((other as).any fun t => s.numbers.head? == t.numbers.head?)

end NumberedScope

namespace Session

def keep (s : Session) (made : NumberedScope) (links : Nat) : Answer × Session :=
  (.scope s.scopes.size made.scope, ⟨s.scopes.push made, links⟩)

def extend (s : Session) (of : Nat) (build : Scope → Except Answer Scope) : Answer × Session :=
  match s.scopes[of]? with
  | none => (.nothing, s)
  | some base =>
    match build base.scope with
    | .ok scope => s.keep (base.extend s.links scope) (s.links + 1)
    | .error answer => (answer, s)

def chainLink (stem : String) (i : Nat) : Declaration :=
  .bound ⟨.origin, stem ++ toString i, Expr.ty (.int i), .int i⟩

def make (s : Session) : Origin → Answer × Session
  | .root => s.keep ⟨.root, [s.links]⟩ (s.links + 1)
  | .initial => s.keep ⟨.initial, [s.links + 1, s.links]⟩ (s.links + 2)
  | .child of => s.extend of fun scope => .ok scope.child
  | .same of =>
    match s.scopes[of]? with
    | none => (.nothing, s)
    | some base => s.keep base s.links
  | .add of declaration => s.extend of fun scope => .ok (scope.add declaration)
  | .addAll of declarations => s.extend of fun scope => .ok (scope.addAll declarations)
  | .parent of =>
    match s.scopes[of]? with
    | none => (.nothing, s)
    | some base =>
      match base.scope.parent? with
      | none => (.nothing, s)
      | some scope => s.keep ⟨scope, base.numbers.tail⟩ s.links
  | .script of lenient tokens => s.extend of fun scope =>
    match Script.ofTokens lenient scope tokens with
    | .ok script => .ok script.scope
    | .error e => .error (.rejected e)
  | .chain of stem count =>
    match s.scopes[of]? with
    | none => (.nothing, s)
    | some base =>
      let link (made : NumberedScope) (i : Nat) : NumberedScope :=
        made.extend (s.links + i) (made.scope.add (chainLink stem i))
      s.keep ((List.range count).foldl link base) (s.links + count)

def ask (s : Session) (of : Nat) (question : Question) : Answer :=
  match s.scopes[of]? with
  | none => .nothing
  | some scope => scope.answer (fun i => s.scopes[i]?) question

end Session

end ScriptFrontend
