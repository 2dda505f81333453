set_option autoImplicit false

namespace ScriptFrontend

inductive Keyword where
  | funcKw | importKw | letKw | typeKw | ifKw | elseKw | switchKw | asKw
deriving DecidableEq

namespace Keyword

def all : List Keyword :=
  [funcKw, importKw, letKw, typeKw, ifKw, elseKw, switchKw, asKw]

def spelling : Keyword → String
  | funcKw => "func"
  | importKw => "import"
  | letKw => "let"
  | typeKw => "type"
  | ifKw => "if"
  | elseKw => "else"
  | switchKw => "switch"
  | asKw => "as"

def ofSpelling? (s : String) : Option Keyword :=
  all.find? fun k => k.spelling == s

def label : Keyword → String
  | funcKw => "Func"
  | importKw => "Import"
  | letKw => "Let"
  | typeKw => "Type"
  | ifKw => "If"
  | elseKw => "Else"
  | switchKw => "Switch"
  | asKw => "As"

end Keyword

inductive Symbol where
  | lParen | rParen | lBrace | rBrace | lBracket | rBracket | semi
  | plus | minus | mult | div | plusAssign | minusAssign | multAssign | divAssign
  | bitNot | bitOr | bitAnd | not | or | and
  | equal | notEqual | lt | gt | lte | gte
  | assign | dot | pipeForward | comma | lShift | rShift
deriving DecidableEq

namespace Symbol

def all : List Symbol :=
  [lParen, rParen, lBrace, rBrace, lBracket, rBracket, semi,
   plus, minus, mult, div, plusAssign, minusAssign, multAssign, divAssign,
   bitNot, bitOr, bitAnd, not, or, and,
   equal, notEqual, lt, gt, lte, gte,
   assign, dot, pipeForward, comma, lShift, rShift]

def spelling : Symbol → String
  | lParen => "("
  | rParen => ")"
  | lBrace => "\x7b"
  | rBrace => "\x7d"
  | lBracket => "["
  | rBracket => "]"
  | semi => ";"
  | plus => "+"
  | minus => "-"
  | mult => "*"
  | div => "/"
  | plusAssign => "+="
  | minusAssign => "-="
  | multAssign => "*="
  | divAssign => "/="
  | bitNot => "^"
  | bitOr => "|"
  | bitAnd => "&"
  | not => "!"
  | or => "||"
  | and => "&&"
  | equal => "=="
  | notEqual => "!="
  | lt => "<"
  | gt => ">"
  | lte => "<="
  | gte => ">="
  | assign => "="
  | dot => "."
  | pipeForward => "|>"
  | comma => ","
  | lShift => "<<"
  | rShift => ">>"

def ofSpelling? (s : String) : Option Symbol :=
  all.find? fun k => k.spelling == s

def label : Symbol → String
  | lParen => "LParen"
  | rParen => "RParen"
  | lBrace => "LBrace"
  | rBrace => "RBrace"
  | lBracket => "LBracket"
  | rBracket => "RBracket"
  | semi => "Semi"
  | plus => "Plus"
  | minus => "Minus"
  | mult => "Mult"
  | div => "Div"
  | plusAssign => "PlusAssign"
  | minusAssign => "MinusAssign"
  | multAssign => "MultAssign"
  | divAssign => "DivAssign"
  | bitNot => "BitNot"
  | bitOr => "BitOr"
  | bitAnd => "BitAnd"
  | not => "Not"
  | or => "Or"
  | and => "And"
  | equal => "Equal"
  | notEqual => "NotEqual"
  | lt => "Lt"
  | gt => "Gt"
  | lte => "Lte"
  | gte => "Gte"
  | assign => "Assign"
  | dot => "Dot"
  | pipeForward => "PipeForward"
  | comma => "Comma"
  | lShift => "LShift"
  | rShift => "RShift"

end Symbol

def snakeCase (label : String) : String :=
  let word (c : Char) : List Char := if c.isUpper then ['_', c.toLower] else [c]
  match label.toList with
  | [] => ""
  | c :: cs => String.ofList (c.toLower :: cs.flatMap word)

inductive Kind where
  | keyword (word : Keyword)
  | symbol (sign : Symbol)
  | ident
  | string
  | int
  | float
  | terminator
deriving DecidableEq

namespace Kind

def all : List Kind :=
  Keyword.all.map keyword ++ Symbol.all.map symbol ++ [ident, string, int, float, terminator]

def label : Kind → String
  | keyword word => word.label
  | symbol sign => sign.label
  | ident => "Ident"
  | string => "String"
  | int => "Int"
  | float => "Float"
  | terminator => "Terminator"

def name (k : Kind) : String :=
  snakeCase k.label

def ofName? (s : String) : Option Kind :=
  all.find? fun k => k.name == s

def spelling? : Kind → Option String
  | keyword word => some word.spelling
  | symbol sign => some sign.spelling
  | _ => none

def isKeyword : Kind → Bool
  | keyword _ => true
  | _ => false

/-- After such a token a new line does not end the statement. -/
def continuesStatement : Kind → Bool
  | terminator => true
  | symbol .dot | symbol .pipeForward | symbol .comma => true
  | symbol .lParen | symbol .lBrace | symbol .lBracket => true
  | _ => false

end Kind

end ScriptFrontend
