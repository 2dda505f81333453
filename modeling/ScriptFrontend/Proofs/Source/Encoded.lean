import Mathlib.Data.List.TakeWhile
import ScriptFrontend.Proofs.Source.Replay
import ScriptFrontend.Proofs.Source.Utf8

set_option autoImplicit false

namespace ScriptFrontend

def Event.encoded : Event Char InputError → Decoder.Bytes
  | item c => (String.utf8EncodeChar c).map .item
  | stop => [.stop]
  | fail e => [.fail e]

namespace Decoder

def uninterrupted (bytes : Bytes) : Bytes :=
  bytes.filter (!isInterruption ·)

/-- Interruptions left aside, the bytes are those of the events. -/
structure Encodes (events : List (Event Char InputError)) (bytes : Bytes) : Prop where
  no_interruption : ∀ e, .fail e ∈ events → e.kind ≠ .interrupted
  bytes : uninterrupted bytes = events.flatMap Event.encoded

section Interruptions

variable {event : Event UInt8 InputError} {bytes more : Bytes}

theorem dropWhile_of_uninterrupted (h : uninterrupted bytes = event :: more) :
    ∃ rest, bytes.dropWhile isInterruption = event :: rest ∧ uninterrupted rest = more := by
  obtain ⟨skipped, rest, rfl, hs, he, hr⟩ := List.filter_eq_cons_iff.1 h
  have hskip : ∀ x ∈ skipped, isInterruption x := by simpa using hs
  have hstop : ¬isInterruption event := by simpa using he
  refine ⟨rest, ?_, hr⟩
  rw [List.dropWhile_append_of_pos hskip, List.dropWhile_cons_of_neg hstop]

theorem dropWhile_of_uninterrupted_nil (h : uninterrupted bytes = []) :
    bytes.dropWhile isInterruption = [] := by
  rw [List.dropWhile_eq_nil_iff]
  simpa [uninterrupted] using h

theorem exactly_of_uninterrupted {used : List UInt8}
    (h : uninterrupted bytes = used.map .item ++ more) :
    ∃ rest, exactly used.length bytes = .ok used rest ∧ uninterrupted rest = more := by
  induction used generalizing bytes with
  | nil => exact ⟨bytes, rfl, h⟩
  | cons b used ih =>
    obtain ⟨rest, hd, hrest⟩ := dropWhile_of_uninterrupted h
    obtain ⟨left, hl, hleft⟩ := ih hrest
    exact ⟨left, by simp [exactly, hd, hl], hleft⟩

theorem decode_of_uninterrupted {c : Char}
    (h : uninterrupted bytes = (String.utf8EncodeChar c).map .item ++ more) :
    ∃ rest, decode bytes = .ok (some c) rest ∧ uninterrupted rest = more := by
  obtain ⟨first, used, hc, hf⟩ := (Utf8.wellFormed_utf8EncodeChar c).exists_cons
  have hchar := Utf8.utf8DecodeChar?_encode c []
  rw [List.append_nil] at hchar
  rw [hc] at h hchar
  obtain ⟨behind, hd, hbehind⟩ := dropWhile_of_uninterrupted h
  obtain ⟨rest, he, hrest⟩ := exactly_of_uninterrupted hbehind
  refine ⟨rest, ?_, hrest⟩
  simp [decode, hd, complete, hf, he, hchar]

end Interruptions

section Steps

variable {events : List (Event Char InputError)} {bytes : Bytes}

theorem Encodes.tail {event : Event Char InputError} {rest : Bytes}
    (h : Encodes (event :: events) bytes)
    (hr : uninterrupted rest = events.flatMap Event.encoded) : Encodes events rest :=
  ⟨fun e he => h.no_interruption e (.tail _ he), hr⟩

theorem decode_item {c : Char} (h : Encodes (.item c :: events) bytes) :
    ∃ rest, decode bytes = .ok (some c) rest ∧ Encodes events rest := by
  obtain ⟨rest, hd, hr⟩ := decode_of_uninterrupted (c := c) h.bytes
  exact ⟨rest, hd, h.tail hr⟩

theorem decode_stop (h : Encodes (.stop :: events) bytes) :
    ∃ rest, decode bytes = .ok none rest ∧ Encodes events rest := by
  have hb : uninterrupted bytes = .stop :: events.flatMap Event.encoded := h.bytes
  obtain ⟨rest, hd, hr⟩ := dropWhile_of_uninterrupted hb
  exact ⟨rest, by simp [decode, hd], h.tail hr⟩

theorem decode_fail {e : InputError} (h : Encodes (.fail e :: events) bytes) :
    ∃ rest, decode bytes = .error e rest ∧ Encodes events rest := by
  have hb : uninterrupted bytes = .fail e :: events.flatMap Event.encoded := h.bytes
  obtain ⟨rest, hd, hr⟩ := dropWhile_of_uninterrupted hb
  exact ⟨rest, by simp [decode, hd], h.tail hr⟩

theorem decode_end (h : Encodes [] bytes) : decode bytes = .ok none [] := by
  simp [decode, dropWhile_of_uninterrupted_nil h.bytes]

end Steps

def Holds (d : Decoder) (events : List (Event Char InputError)) : Prop :=
  ∃ behind, Encodes behind d.bytes.events ∧ events = d.held.toList.map .item ++ behind

theorem replay_holds : Source.Replay Holds where
  item := by
    rintro ⟨⟨bytes⟩, held⟩ c events ⟨behind, hb, he⟩
    cases held with
    | some d =>
      obtain ⟨rfl, rfl⟩ : c = d ∧ events = behind := by simpa using he
      exact ⟨⟨⟨bytes⟩, none⟩, rfl, ⟨events, hb, rfl⟩, ⟨events, hb, rfl⟩⟩
    | none =>
      obtain rfl : .item c :: events = behind := by simpa using he
      obtain ⟨rest, hd, hr⟩ := decode_item hb
      exact ⟨⟨⟨rest⟩, none⟩, by simp [Source.read, read, hd], ⟨events, hr, rfl⟩,
        ⟨events, hr, rfl⟩⟩
  stop := by
    rintro ⟨⟨bytes⟩, held⟩ events ⟨behind, hb, he⟩
    cases held with
    | some d => simp at he
    | none =>
      obtain rfl : .stop :: events = behind := by simpa using he
      obtain ⟨rest, hd, hr⟩ := decode_stop hb
      exact ⟨⟨⟨rest⟩, none⟩, by simp [Source.read, read, hd], ⟨events, hr, rfl⟩⟩
  fail := by
    rintro ⟨⟨bytes⟩, held⟩ e events ⟨behind, hb, he⟩
    cases held with
    | some d => simp at he
    | none =>
      obtain rfl : .fail e :: events = behind := by simpa using he
      obtain ⟨rest, hd, hr⟩ := decode_fail hb
      exact ⟨⟨⟨rest⟩, none⟩, by simp [Source.read, read, hd], ⟨events, hr, rfl⟩⟩
  exhausted := by
    rintro ⟨⟨bytes⟩, held⟩ ⟨behind, hb, he⟩
    cases held with
    | some d => simp at he
    | none =>
      obtain rfl : [] = behind := by simpa using he
      exact ⟨⟨⟨[]⟩, none⟩, by simp [Source.read, read, decode_end hb],
        ⟨[], ⟨by simp, rfl⟩, rfl⟩⟩

theorem replays_of_encodes {events : List (Event Char InputError)} {bytes : Bytes}
    (h : Encodes events bytes) : Source.Replays ({ bytes := ⟨bytes⟩ } : Decoder) events :=
  ⟨Holds, replay_holds, events, h, rfl⟩

/-- Reads give the characters, the ends and the failures in their order, and then the end for ever.
A character that is put back comes again, and nothing else changes. -/
theorem replies_encoded {events : List (Event Char InputError)} {bytes : Bytes}
    (h : Encodes events bytes) :
    (∀ n, Source.replies ({ bytes := ⟨bytes⟩ } : Decoder)
        (List.replicate (events.length + n) false) =
      events.map Event.reply ++ List.replicate n (.ok none)) ∧
    ∀ backs, Source.replies ({ bytes := ⟨bytes⟩ } : Decoder) backs =
      Source.expected events backs := by
  have hr := replays_of_encodes h
  refine ⟨fun n => ?_, hr.replies_eq⟩
  rw [hr.replies_eq, Source.expected_forward]

theorem replies_encoded_interrupted :
    let signal : Event UInt8 InputError := .fail ⟨.interrupted, "signal"⟩
    let cut : InputError := ⟨.unexpectedEnd, "cut"⟩
    let bytes : Bytes := [signal, .item 0x61, .stop, .item 0xE2, signal, .item 0x82, signal,
      signal, .item 0xAC, signal, .fail cut, .item 0x62, signal]
    Source.replies ({ bytes := ⟨bytes⟩ } : Decoder) [false, false, true, false, false, true, false,
        false, false] =
      [.ok (some 'a'), .ok none, .ok (some '€'), .ok (some '€'), .error cut, .ok (some 'b'),
        .ok (some 'b'), .ok none, .ok none] := by
  intro signal cut bytes
  have h : Encodes [.item 'a', .stop, .item '€', .fail cut, .item 'b'] bytes :=
    ⟨by simp [cut], by decide +kernel⟩
  exact (replies_encoded h).2 _

end Decoder

end ScriptFrontend
