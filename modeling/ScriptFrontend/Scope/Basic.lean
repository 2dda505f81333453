import ScriptFrontend.Declaration

/-! Scopes: the declarations that can be seen at a point in a script.

A scope is a chain of links. Every way of extending a scope puts a link in front of it and leaves
the scope itself as it was, so scopes that share a part of their chain never see each other's
declarations.
-/

set_option autoImplicit false

namespace ScriptFrontend

/-- The declarations of one link, in the order in which their names first came up. -/
abbrev Locals := List Declaration

def Locals.insert (d : Declaration) : Locals → Locals
  | [] => [d]
  | e :: rest => if e.id = d.id then d :: rest else e :: Locals.insert d rest

def Locals.ofList (ds : List Declaration) : Locals :=
  ds.foldl (fun locals d => Locals.insert d locals) []

def Locals.get? (id : String) (locals : Locals) : Option Declaration :=
  locals.find? fun d => d.id == id

theorem Locals.get?_insert (id : String) (d : Declaration) (locals : Locals) :
    (Locals.insert d locals).get? id = if d.id = id then some d else locals.get? id := by
  induction locals with
  | nil => by_cases h : d.id = id <;> simp [Locals.insert, Locals.get?, h]
  | cons e rest ih =>
    simp only [Locals.get?] at ih
    by_cases he : e.id = d.id
    · by_cases h : d.id = id <;> simp [Locals.insert, Locals.get?, he, h]
    · by_cases h : d.id = id
      · have : ¬e.id = id := fun hi => he (hi.trans h.symm)
        simp [Locals.insert, Locals.get?, ih, h, this]
      · simp [Locals.insert, Locals.get?, he, List.find?_cons, ih, h]

/-- The links that were put in front of the root, innermost first. The root itself declares nothing.
-/
structure Scope where
  links : List Locals
deriving DecidableEq

namespace Scope

def root : Scope :=
  ⟨[]⟩

def child (s : Scope) : Scope :=
  ⟨[] :: s.links⟩

def initial : Scope :=
  root.child

def add (s : Scope) (d : Declaration) : Scope :=
  ⟨[d] :: s.links⟩

def addAll (s : Scope) (ds : List Declaration) : Scope :=
  ⟨Locals.ofList ds :: s.links⟩

def parent? (s : Scope) : Option Scope :=
  match s.links with
  | [] => none
  | _ :: links => some ⟨links⟩

def isRoot (s : Scope) : Bool :=
  s.links.isEmpty

def depth (s : Scope) : Nat :=
  s.links.length

def locals (s : Scope) : Locals :=
  s.links.headD []

def localIds (s : Scope) : List String :=
  s.locals.map Declaration.id

def getLocal? (s : Scope) (id : String) : Option Declaration :=
  s.locals.get? id

/-- Inner links hide outer ones. -/
def get? (s : Scope) (id : String) : Option Declaration :=
  s.links.findSome? fun locals => locals.get? id

@[simp]
theorem get?_add (s : Scope) (d : Declaration) (id : String) :
    (s.add d).get? id = if d.id = id then some d else s.get? id := by
  by_cases h : d.id = id <;> simp [add, get?, Locals.get?, h]

@[simp]
theorem get?_addAll (s : Scope) (ds : List Declaration) (id : String) :
    (s.addAll ds).get? id = ((Locals.ofList ds).get? id).or (s.get? id) := by
  simp only [addAll, get?, List.findSome?_cons]
  cases (Locals.ofList ds).get? id <;> rfl

def ids (s : Scope) : List (List String) :=
  s.links.map (fun locals => locals.map Declaration.id) ++ [[]]

def inspect (s : Scope) : String :=
  let link (ids : List String) : String := "[" ++ ", ".intercalate (ids.map Text.quoted) ++ "]"
  "Scope [" ++ ", ".intercalate (s.ids.map link) ++ "]"

def inspectTall (s : Scope) : String :=
  let link (ids : List String) : String :=
    if ids.isEmpty then "    [],\n"
    else
      "    [\n" ++ String.join (ids.map fun id => "        " ++ Text.quoted id ++ ",\n") ++
        "    ],\n"
  "Scope [\n" ++ String.join (s.ids.map link) ++ "]"

end Scope

structure Script where
  scope : Scope
deriving DecidableEq

namespace Script

def get? (s : Script) (id : String) : Option Declaration :=
  s.scope.get? id

def declarations (s : Script) : List Declaration :=
  s.scope.locals

end Script

end ScriptFrontend
