set_option autoImplicit false

namespace ScriptFrontend

inductive InputErrorKind where
  | interrupted
  | unexpectedEnd
  | invalidData
  | notFound
  | wouldBlock
  | other
deriving DecidableEq

structure InputError where
  kind : InputErrorKind
  message : String
deriving DecidableEq

def InputError.invalidUtf8 (bytes : List UInt8) : InputError :=
  let hex (b : UInt8) : String := String.ofList (Nat.toDigits 16 b.toNat)
  { kind := .invalidData
    message := "invalid UTF-8 sequence [" ++ ", ".intercalate (bytes.map hex) ++ "]" }

end ScriptFrontend
