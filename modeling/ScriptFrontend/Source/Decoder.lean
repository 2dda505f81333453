import ScriptFrontend.Source.Basic
import ScriptFrontend.Source.InputError

/-! Characters from bytes in UTF-8. Interrupted reads are tried again, wherever they happen. -/

set_option autoImplicit false

namespace ScriptFrontend

structure Decoder where
  bytes : Feed UInt8 InputError
  held : Option Char := none

namespace Decoder

def ofBytes (bytes : List UInt8) : Decoder :=
  { bytes := .ofList bytes }

abbrev Bytes := List (Event UInt8 InputError)

def isInterruption : Event UInt8 InputError → Bool
  | .fail e => e.kind = .interrupted
  | _ => false

def following? (first : UInt8) : Option Nat :=
  if first < 0x80 then some 0
  else if first < 0xC0 then none
  else if first < 0xE0 then some 1
  else if first < 0xF0 then some 2
  else if first < 0xF8 then some 3
  else none

/-- Reads exactly so many bytes. The failure `none` says that the input ended before. -/
def exactly : Nat → Bytes → EStateM.Result (Option InputError) Bytes (List UInt8)
  | 0, events => .ok [] events
  | n + 1, events =>
    match events.dropWhile isInterruption with
    | [] => .error none []
    | .stop :: rest => .error none rest
    | .fail e :: rest => .error (if e.kind = .unexpectedEnd then none else some e) rest
    | .item b :: rest =>
      match exactly n rest with
      | .ok more rest => .ok (b :: more) rest
      | .error e rest => .error e rest

/-- The rest of a character after its first byte. The bytes of a failed attempt are gone. -/
def complete (first : UInt8) (events : Bytes) : EStateM.Result InputError Bytes Char :=
  match following? first with
  | none => .error (.invalidUtf8 [first]) events
  | some n =>
    match exactly n events with
    | .error none rest => .error (.invalidUtf8 [first]) rest
    | .error (some e) rest => .error e rest
    | .ok more rest =>
      match (first :: more).toByteArray.utf8DecodeChar? 0 with
      | some c => .ok c rest
      | none => .error (.invalidUtf8 (first :: more)) rest

def decode (events : Bytes) : EStateM.Result InputError Bytes (Option Char) :=
  match events.dropWhile isInterruption with
  | [] => .ok none []
  | .stop :: rest => .ok none rest
  | .fail e :: rest => .error e rest
  | .item first :: rest =>
    match complete first rest with
    | .ok c rest => .ok (some c) rest
    | .error e rest => .error e rest

def read (d : Decoder) : EStateM.Result InputError Decoder (Option Char) :=
  match d.held with
  | some c => .ok (some c) { d with held := none }
  | none =>
    match decode d.bytes.events with
    | .ok c rest => .ok c { d with bytes := ⟨rest⟩ }
    | .error e rest => .error e { d with bytes := ⟨rest⟩ }

def unread (d : Decoder) (c : Char) : Decoder :=
  { d with held := some c }

def size (d : Decoder) : Nat :=
  d.bytes.events.length + if d.held.isSome then 1 else 0

def left {ε σ α : Type} : EStateM.Result ε σ α → σ
  | .ok _ s => s
  | .error _ s => s

theorem length_exactly_le (n : Nat) (events : Bytes) :
    (left (exactly n events)).length ≤ events.length := by
  induction n generalizing events with
  | zero => simp [exactly, left]
  | succ n ih =>
    have hd := (List.dropWhile_sublist isInterruption (l := events)).length_le
    rw [exactly]
    split
    · simp [left]
    · simp_all [left]; omega
    · simp_all [left]; omega
    · rename_i b rest he
      have := ih rest
      split <;> simp_all [left] <;> omega

theorem length_complete_le (first : UInt8) (events : Bytes) :
    (left (complete first events)).length ≤ events.length := by
  rw [complete]
  split
  · simp [left]
  · rename_i n _
    have := length_exactly_le n events
    split <;> rename_i he <;> rw [he] at this
    · exact this
    · exact this
    · split <;> exact this

theorem length_decode (events : Bytes) :
    match decode events with
    | .ok none rest => rest.length ≤ events.length
    | .ok (some _) rest => rest.length < events.length
    | .error _ rest => rest.length < events.length := by
  have hd := (List.dropWhile_sublist isInterruption (l := events)).length_le
  rw [decode]
  rcases he : events.dropWhile isInterruption with _ | ⟨first | _ | e, rest⟩ <;> rw [he] at hd
  · simp
  · have := length_complete_le first rest
    simp only [List.length_cons] at hd
    cases hc : complete first rest <;> rw [hc] at this <;> simp_all [left] <;> omega
  · simp only [List.length_cons] at hd
    dsimp only
    omega
  · simp only [List.length_cons] at hd
    dsimp only
    omega

theorem size_read (d : Decoder) :
    match d.read with
    | .ok none t => t.size ≤ d.size
    | .ok (some _) t => t.size < d.size
    | .error _ t => t.size < d.size := by
  rcases d with ⟨⟨events⟩, _ | held⟩
  · have hl := length_decode events
    rw [read]
    split at hl <;> simp_all [size]
  · simp [read, size]

theorem size_of_read_item {d t : Decoder} {c : Char} (h : d.read = .ok (some c) t) :
    t.size < d.size := by
  simpa only [h] using d.size_read

theorem size_of_read_end {d t : Decoder} (h : d.read = .ok none t) : t.size ≤ d.size := by
  simpa only [h] using d.size_read

theorem size_of_read_fail {d t : Decoder} {e : InputError} (h : d.read = .error e t) :
    t.size < d.size := by
  simpa only [h] using d.size_read

theorem size_unread (c : Char) (d : Decoder) : (d.unread c).size ≤ d.size + 1 := by
  simp [unread, size]

instance : Source Decoder Char InputError where
  read := read
  unread c d := d.unread c
  size := size
  size_item := size_of_read_item
  size_end := size_of_read_end
  size_fail h := Nat.le_of_lt (size_of_read_fail h)
  size_unread := size_unread

instance : Source.Drainable Decoder where
  size_fail_lt := size_of_read_fail

end Decoder

end ScriptFrontend
