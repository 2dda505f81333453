import ScriptFrontend.Scope.Basic
import ScriptFrontend.Script.ParseError
import ScriptFrontend.Source.Basic
import ScriptFrontend.Source.Progress

/-! From tokens to declarations.

A script is a list of statements: imports first, then the other declarations. A statement ends with
a semicolon or at the end of its line. The first token that no script could have at its place is the
error.
-/

set_option autoImplicit false

namespace ScriptFrontend

/-- A name for a path: its last part. Slashes at the end do not count. -/
def baseName (path : String) : String :=
  match path.toList.reverse.dropWhile (· == '/') with
  | [] => if path.isEmpty then "." else "/"
  | backwards => String.ofList (backwards.takeWhile (· != '/')).reverse

namespace Kind

def endsStatement : Kind → Bool
  | symbol .semi | terminator => true
  | _ => false

end Kind

structure TokenHead (τ : Type) where
  tokens : τ
  last : Option Position := none
deriving DecidableEq

abbrev Parse (τ : Type) := EStateM ParseError (TokenHead τ)

namespace TokenHead

variable {τ α : Type}

def fail (cause : ParseCause) (position : Option Position) : Parse τ α := fun d =>
  .error ⟨cause, position⟩ d

def failAtEnd (expected : Option Kind) : Parse τ α := fun d =>
  .error ⟨.unexpectedEnd expected, d.last⟩ d

variable [Source τ Token LexError]

def size (d : TokenHead τ) : Nat :=
  Source.size d.tokens

def next : Parse τ (Option Token) := fun d =>
  match Source.read d.tokens with
  | .ok (some token) t => .ok (some token) ⟨t, some token.position⟩
  | .ok none t => .ok none { d with tokens := t }
  | .error e t => .error ⟨.lexical e, e.position⟩ { d with tokens := t }

/-- The next token, if it is of the given kind. Another token stays where it is. -/
def nextIf (kind : Kind) : Parse τ (Option Token) := fun d =>
  match next d with
  | .ok (some token) t =>
    if token.kind = kind then .ok (some token) t
    else .ok none { t with tokens := Source.unread token t.tokens }
  | result => result

def expect (kind : Kind) : Parse τ Token := do
  match ← next with
  | some token =>
    if token.kind = kind then return token
    else fail (.expectedToken kind token) token.position
  | none => failAtEnd kind

theorem size_next_token {d t : TokenHead τ} {token : Token} (h : next d = .ok (some token) t) :
    t.size < d.size := by
  simp only [next] at h
  split at h <;> simp at h
  rename_i s hs
  simp only [← h.2]
  obtain ⟨rfl, _⟩ := h
  exact Source.size_item hs

theorem shrinks_next : Shrinks TokenHead.size (next : Parse τ (Option Token)) := by
  intro d t token h
  cases token with
  | some token => exact Nat.le_of_lt (size_next_token h)
  | none =>
    simp only [next] at h
    split at h <;> simp at h
    rename_i s hs
    simp only [← h]
    exact Source.size_end hs

theorem shrinks_nextIf (kind : Kind) :
    Shrinks TokenHead.size (nextIf kind : Parse τ (Option Token)) := by
  intro d t found h
  simp only [nextIf] at h
  split at h
  · rename_i token u hu
    have lt := size_next_token hu
    split at h
    · simp only [EStateM.Result.ok.injEq] at h
      exact h.2 ▸ Nat.le_of_lt lt
    · simp only [EStateM.Result.ok.injEq] at h
      have := Source.size_unread token u.tokens
      simp only [← h.2, size] at *
      omega
  · exact shrinks_next h

theorem shrinks_fail (cause : ParseCause) (position : Option Position) :
    Shrinks TokenHead.size (fail cause position : Parse τ α) := by
  intro d t a h
  simp [fail] at h

theorem shrinks_failAtEnd (expected : Option Kind) :
    Shrinks TokenHead.size (failAtEnd expected : Parse τ α) := by
  intro d t a h
  simp [failAtEnd] at h

theorem shrinks_expect (kind : Kind) : Shrinks TokenHead.size (expect kind : Parse τ Token) := by
  refine .bind shrinks_next fun found => ?_
  split
  · split
    · exact .pure _
    · exact shrinks_fail ..
  · exact shrinks_failAtEnd _

end TokenHead

namespace Statement

open TokenHead

variable {τ : Type} [Source τ Token LexError]

/-- The end of a statement. With `lenient` the end of the tokens is one too. -/
def finish (lenient : Bool) : Parse τ Unit := do
  match ← next with
  | some token =>
    if token.kind.endsStatement then return ()
    else fail (.expectedToken .terminator token) token.position
  | none => if lenient then return () else failAtEnd (some .terminator)

def expr : Parse τ Expr := do
  match ← next with
  | some token =>
    match token.kind, token.value with
    | .int, .int i => return .int i
    | .float, .float x => return .float x
    | .string, .string s => return .string s
    | .ident, .string s => return .name s
    | _, _ => fail (.unexpectedToken token) token.position
  | none => failAtEnd none

def importName (path : String) : Parse τ String := do
  match ← nextIf (.keyword .asKw) with
  | some _ =>
    let token ← expect .ident
    return token.text
  | none => return baseName path

def importAfter (lenient : Bool) (start : Position) : Parse τ Declaration := do
  let path ← expect .string
  let name ← importName path.text
  finish lenient
  return .imported ⟨start, name, path.text⟩

/-- The rest of a binding after its keyword, which stands at `start`. Without an annotation its type
is that of the value. -/
def letAfter (lenient : Bool) (start : Position) : Parse τ Declaration := do
  let name ← expect .ident
  let annotation ← nextIf .ident
  let _ ← expect (.symbol .assign)
  let value ← expr
  finish lenient
  let ty := match annotation with
    | some token => .named token.text
    | none => value.ty
  return .bound ⟨start, name.text, ty, value⟩

theorem shrinks_finish (lenient : Bool) :
    Shrinks TokenHead.size (finish lenient : Parse τ Unit) := by
  refine .bind shrinks_next fun found => ?_
  split
  · split
    · exact .pure _
    · exact shrinks_fail ..
  · split
    · exact .pure _
    · exact shrinks_failAtEnd _

theorem shrinks_expr : Shrinks TokenHead.size (expr : Parse τ Expr) := by
  refine .bind shrinks_next fun found => ?_
  split
  · split
    all_goals first | exact .pure _ | exact shrinks_fail ..
  · exact shrinks_failAtEnd _

theorem shrinks_importName (path : String) :
    Shrinks TokenHead.size (importName path : Parse τ String) := by
  refine .bind (shrinks_nextIf _) fun found => ?_
  split
  · exact .bind (shrinks_expect _) fun _ => .pure _
  · exact .pure _

theorem shrinks_importAfter (lenient : Bool) (start : Position) :
    Shrinks TokenHead.size (importAfter lenient start : Parse τ Declaration) :=
  .bind (shrinks_expect _) fun _ => .bind (shrinks_importName _) fun _ =>
    .bind (shrinks_finish _) fun _ => .pure _

theorem shrinks_letAfter (lenient : Bool) (start : Position) :
    Shrinks TokenHead.size (letAfter lenient start : Parse τ Declaration) :=
  .bind (shrinks_expect _) fun _ => .bind (shrinks_nextIf _) fun _ =>
    .bind (shrinks_expect _) fun _ => .bind shrinks_expr fun _ =>
      .bind (shrinks_finish _) fun _ => .pure _

/-- All statements up to the end of the tokens, after the declarations in `earlier`, which come in
reverse. `imports` says whether an import may still come. -/
def readAll (lenient imports : Bool) (earlier : List Declaration) :
    Parse τ (List Declaration) := fun d =>
  match hn : next d with
  | .error e t => .error e t
  | .ok none t => .ok earlier.reverse t
  | .ok (some token) t =>
    have := size_next_token hn
    match token.kind with
    | .symbol .semi | .terminator => readAll lenient imports earlier t
    | .keyword .importKw =>
      if imports then
        match hs : importAfter lenient token.position t with
        | .error e u => .error e u
        | .ok declaration u =>
          have := shrinks_importAfter _ _ hs
          readAll lenient imports (declaration :: earlier) u
      else fail .importAfterDeclaration token.position t
    | .keyword .letKw =>
      match hs : letAfter lenient token.position t with
      | .error e u => .error e u
      | .ok declaration u =>
        have := shrinks_letAfter _ _ hs
        readAll lenient false (declaration :: earlier) u
    | _ => fail (.unexpectedToken token) token.position t
termination_by d => d.size

end Statement

namespace Script

variable {τ : Type} [Source τ Token LexError]

def ofTokens (lenient : Bool) (enclosing : Scope) (tokens : τ) : Except ParseError Script :=
  match Statement.readAll lenient true [] { tokens } with
  | .ok declarations _ => .ok ⟨enclosing.addAll declarations⟩
  | .error e _ => .error e

end Script

end ScriptFrontend
