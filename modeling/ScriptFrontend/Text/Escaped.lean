import ScriptFrontend.Text.Extending
import ScriptFrontend.Text.Unprintable

/-! Text in which every character can be seen: quotes, controls and characters without a shape of
their own are written as escapes that start with a backslash.
-/

set_option autoImplicit false

namespace ScriptFrontend.Text

structure Escaping where
  single : Bool
  double : Bool
  combining : Bool

def hexEscape (c : Char) : List Char :=
  ['\\', 'u', '\x7b'] ++ Nat.toDigits 16 c.toNat ++ ['\x7d']

def Escaping.char (e : Escaping) (c : Char) : List Char :=
  if c = '\x00' then ['\\', '0']
  else if c = '\t' then ['\\', 't']
  else if c = '\r' then ['\\', 'r']
  else if c = '\n' then ['\\', 'n']
  else if c = '\\' then ['\\', '\\']
  else if c = '"' && e.double then ['\\', '"']
  else if c = '\'' && e.single then ['\\', '\'']
  else if e.combining && isCombining c then hexEscape c
  else if isPrintable c then [c]
  else hexEscape c

def quoted (s : String) : String :=
  let e : Escaping := { single := false, double := true, combining := true }
  String.ofList ('"' :: s.toList.flatMap e.char ++ ['"'])

def quotedChar (c : Char) : String :=
  let e : Escaping := { single := true, double := false, combining := true }
  String.ofList ('\'' :: e.char c ++ ['\''])

/-- Text without quotes around it. Only a leading character has nothing to be drawn onto, so only
there are combining characters escaped. -/
def escaped (s : String) : String :=
  let e (combining : Bool) : Escaping := { single := true, double := true, combining }
  match s.toList with
  | [] => ""
  | c :: cs => String.ofList ((e true).char c ++ cs.flatMap (e false).char)

end ScriptFrontend.Text
