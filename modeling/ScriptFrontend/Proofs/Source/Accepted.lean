import ScriptFrontend.Proofs.Source.Utf8

set_option autoImplicit false

namespace ScriptFrontend

namespace Source

variable {σ α ε : Type} [Source σ α ε] [Drainable σ] {s t : σ}

theorem drain_go (s : σ) (earlier : List (Except ε α)) :
    drain.go s earlier = earlier.reverse ++ drain s := by
  induction hn : size s using Nat.strongRecOn generalizing s earlier with
  | ind n ih =>
    rw [drain, drain.go, drain.go]
    split
    · simp
    · rename_i a t h
      have hlt : size t < n := hn ▸ size_item h
      rw [ih _ hlt _ _ rfl, ih _ hlt t [.ok a] rfl]
      simp
    · rename_i e t h
      have hlt : size t < n := hn ▸ Drainable.size_fail_lt h
      rw [ih _ hlt _ _ rfl, ih _ hlt t [.error e] rfl]
      simp

theorem drain_end (h : read s = .ok none t) : drain s = [] := by
  rw [drain, drain.go]
  split <;> simp_all

theorem drain_item {a : α} (h : read s = .ok (some a) t) : drain s = .ok a :: drain t := by
  rw [drain, drain.go]
  split <;> simp_all [drain_go]

theorem drain_fail {e : ε} (h : read s = .error e t) : drain s = .error e :: drain t := by
  rw [drain, drain.go]
  split <;> simp_all [drain_go]

end Source

namespace Decoder

open Utf8

theorem dropWhile_items (bytes : List UInt8) :
    (bytes.map .item : Bytes).dropWhile isInterruption = bytes.map .item := by
  cases bytes <;> simp [isInterruption]

theorem exactly_items (n : Nat) (bytes : List UInt8) :
    exactly n (bytes.map .item) =
      if n ≤ bytes.length then .ok (bytes.take n) ((bytes.drop n).map .item)
      else .error none [] := by
  induction n generalizing bytes with
  | zero => simp [exactly]
  | succ n ih =>
    rw [exactly, dropWhile_items]
    cases bytes with
    | nil => simp
    | cons b bytes =>
      simp only [List.map_cons, ih, List.length_cons, Nat.add_le_add_iff_right, List.take_succ_cons,
        List.drop_succ_cons]
      by_cases h : n ≤ bytes.length <;> simp [h]

theorem encode_of_prefix {c : Char} {first : UInt8} {behind : List UInt8}
    (h : String.utf8EncodeChar c <+: first :: behind) :
    ∃ n, following? first = some n ∧ n ≤ behind.length ∧
      String.utf8EncodeChar c = first :: behind.take n := by
  obtain ⟨rest, hr⟩ := h
  obtain ⟨b, used, hc, hf⟩ := (wellFormed_utf8EncodeChar c).exists_cons
  rw [hc] at hr ⊢
  obtain ⟨rfl, rfl⟩ := List.cons.inj hr
  exact ⟨used.length, hf, by simp, by simp⟩

theorem stuck_of_following?_none {first : UInt8} {behind : List UInt8}
    (hf : following? first = none) : Stuck (first :: behind) := by
  intro c hc
  obtain ⟨n, hn, -⟩ := encode_of_prefix hc
  rw [hf] at hn
  cases hn

theorem stuck_of_length_lt {first : UInt8} {behind : List UInt8} {n : Nat}
    (hf : following? first = some n) (hl : behind.length < n) : Stuck (first :: behind) := by
  intro c hc
  obtain ⟨m, hm, hml, -⟩ := encode_of_prefix hc
  rw [hf, Option.some.injEq] at hm
  omega

theorem decode_eq_some_iff {first : UInt8} {behind : List UInt8} {n : Nat} {c : Char}
    (hf : following? first = some n) :
    (first :: behind.take n).toByteArray.utf8DecodeChar? 0 = some c ↔
      String.utf8EncodeChar c = first :: behind.take n := by
  constructor
  · intro hd
    obtain ⟨m, hm, -, he⟩ := encode_of_prefix (prefix_of_decode hd)
    rw [hf, Option.some.injEq] at hm
    subst hm
    rwa [List.take_take, Nat.min_self] at he
  · intro he
    have hd := utf8DecodeChar?_encode c []
    rwa [List.append_nil, he] at hd

/-- What one read makes of some bytes: a character, or a failure that gives up a few of them. -/
inductive Taken (bytes : List UInt8) : EStateM.Result InputError Decoder (Option Char) → Prop where
  | char {c : Char} {rest : List UInt8} : bytes = String.utf8EncodeChar c ++ rest →
      Taken bytes (.ok (some c) (ofBytes rest))
  | invalid {used rest : List UInt8} {e : InputError} : bytes = used ++ rest → Stuck bytes →
      1 ≤ used.length → used.length ≤ 4 → e.kind = .invalidData →
      Taken bytes (.error e (ofBytes rest))

theorem read_nil : read (ofBytes []) = .ok none (ofBytes []) := by
  simp [read, ofBytes, Feed.ofList, decode]

theorem read_cons (first : UInt8) (behind : List UInt8) :
    read (ofBytes (first :: behind)) =
      match complete first (behind.map .item) with
      | .ok c rest => .ok (some c) { bytes := ⟨rest⟩ }
      | .error e rest => .error e { bytes := ⟨rest⟩ } := by
  have hd : ((first :: behind).map .item : Bytes).dropWhile isInterruption =
      .item first :: behind.map .item := dropWhile_items _
  simp only [read, ofBytes, Feed.ofList, decode, hd]
  cases complete first (behind.map .item) <;> rfl

theorem taken_read (first : UInt8) (behind : List UInt8) :
    Taken (first :: behind) (read (ofBytes (first :: behind))) := by
  rw [read_cons, complete]
  cases hf : following? first with
  | none =>
    have hsplit : first :: behind = [first] ++ behind := rfl
    exact .invalid hsplit (stuck_of_following?_none hf) (by simp) (by simp) rfl
  | some n =>
    have hn := following?_le hf
    by_cases hl : n ≤ behind.length
    · have hsplit : first :: behind = (first :: behind.take n) ++ behind.drop n := by simp
      simp only [exactly_items, hl, if_true]
      cases hd : (first :: behind.take n).toByteArray.utf8DecodeChar? 0 with
      | none =>
        have hs : Stuck (first :: behind) := by
          intro c hc
          obtain ⟨m, hm, -, he⟩ := encode_of_prefix hc
          rw [hf, Option.some.injEq] at hm
          subst hm
          rw [(decode_eq_some_iff hf).2 he] at hd
          cases hd
        exact .invalid hsplit hs (by simp) (by simp; omega) rfl
      | some c =>
        rw [← (decode_eq_some_iff hf).1 hd] at hsplit
        exact .char hsplit
    · simp only [exactly_items, hl, if_false]
      have hs := stuck_of_length_lt hf (Nat.lt_of_not_le hl)
      have hsplit : first :: behind = (first :: behind) ++ [] := by simp
      exact .invalid hsplit hs (by simp) (by simp; omega) rfl

inductive Reading : List UInt8 → List (Except InputError Char) → Prop where
  | nothing : Reading [] []
  | char {c : Char} {rest : List UInt8} {outcomes : List (Except InputError Char)} :
      Reading rest outcomes → Reading (String.utf8EncodeChar c ++ rest) (.ok c :: outcomes)
  | invalid {used rest : List UInt8} {e : InputError} {outcomes : List (Except InputError Char)} :
      Stuck (used ++ rest) → 1 ≤ used.length → e.kind = .invalidData → Reading rest outcomes →
      Reading (used ++ rest) (.error e :: outcomes)

theorem reading_drain (bytes : List UInt8) : Reading bytes (Source.drain (ofBytes bytes)) := by
  induction hn : bytes.length using Nat.strongRecOn generalizing bytes with
  | ind n ih =>
    cases bytes with
    | nil =>
      rw [Source.drain_end read_nil]
      exact .nothing
    | cons first behind =>
      have ht := taken_read first behind
      generalize first :: behind = bytes at ht hn
      generalize hr : read (ofBytes bytes) = result at ht
      cases ht with
      | @char c rest h =>
        rw [Source.drain_item hr, h]
        have hpos := c.utf8Size_pos
        rw [h, List.length_append, String.length_utf8EncodeChar] at hn
        exact .char (ih rest.length (by omega) rest rfl)
      | @invalid used rest e h hs hpos _ he =>
        rw [Source.drain_fail hr, h]
        rw [h] at hs
        rw [h, List.length_append] at hn
        exact .invalid hs hpos he (ih rest.length (by omega) rest rfl)

namespace Reading

variable {bytes : List UInt8} {outcomes : List (Except InputError Char)}

theorem length_le (h : Reading bytes outcomes) : outcomes.length ≤ bytes.length := by
  induction h with
  | nothing => simp
  | @char c rest outcomes _ ih =>
    have := c.utf8Size_pos
    simp only [List.length_cons, List.length_append, String.length_utf8EncodeChar]
    omega
  | invalid _ hpos _ _ ih =>
    simp only [List.length_cons, List.length_append]
    omega

theorem kind_of_error (h : Reading bytes outcomes) :
    ∀ e, .error e ∈ outcomes → e.kind = .invalidData := by
  induction h with
  | nothing => simp
  | char _ ih => simpa using ih
  | invalid _ _ he _ ih => simpa [he] using ih

/-- The characters before the first failure are all that can be taken from the start. -/
theorem split (h : Reading bytes outcomes) :
    ∃ (chars : List Char) (rest : List UInt8) (later : List (Except InputError Char)),
      outcomes = chars.map .ok ++ later ∧ bytes = chars.flatMap String.utf8EncodeChar ++ rest ∧
      Stuck rest ∧
      (rest = [] ∧ later = [] ∨ rest ≠ [] ∧ ∃ e more, later = .error e :: more) := by
  induction h with
  | nothing =>
    refine ⟨[], [], [], rfl, rfl, fun c hc => ?_, .inl ⟨rfl, rfl⟩⟩
    exact String.utf8EncodeChar_ne_nil (List.prefix_nil.1 hc)
  | @char c _ _ _ ih =>
    obtain ⟨chars, rest, later, rfl, rfl, hs, hl⟩ := ih
    exact ⟨c :: chars, rest, later, rfl, by simp, hs, hl⟩
  | @invalid used rest e outcomes hs hpos _ _ _ =>
    have hne : used ++ rest ≠ [] := by
      intro h
      simp [(List.append_eq_nil_iff.1 h).1] at hpos
    exact ⟨[], used ++ rest, .error e :: outcomes, rfl, rfl, hs, .inr ⟨hne, e, outcomes, rfl⟩⟩

end Reading

theorem read_ofBytes (bytes : List UInt8) :
    bytes = [] ∧ read (ofBytes bytes) = .ok none (ofBytes []) ∨
      ∃ used rest, bytes = used ++ rest ∧ 1 ≤ used.length ∧ used.length ≤ 4 ∧
        ((∃ c, used = String.utf8EncodeChar c ∧
            read (ofBytes bytes) = .ok (some c) (ofBytes rest)) ∨
          ∃ e, read (ofBytes bytes) = .error e (ofBytes rest)) := by
  cases bytes with
  | nil => exact .inl ⟨rfl, read_nil⟩
  | cons first behind =>
    have ht := taken_read first behind
    generalize first :: behind = bytes at ht
    generalize hr : read (ofBytes bytes) = result at ht
    cases ht with
    | @char c rest h =>
      have hl := String.length_utf8EncodeChar c
      have hpos := c.utf8Size_pos
      have hfour := c.utf8Size_le_four
      exact .inr ⟨_, rest, h, by omega, by omega, .inl ⟨c, rfl, rfl⟩⟩
    | @invalid used rest e h hs hpos hfour he =>
      exact .inr ⟨used, rest, h, hpos, hfour, .inr ⟨e, rfl⟩⟩

/-- The characters before the first failure are the longest sequence of characters that the bytes
start with. There is a failure exactly where the bytes are no such sequence, and every read moves on
by one to four bytes. -/
theorem drain_ofBytes (bytes : List UInt8) :
    (∃ (chars : List Char) (later : List (Except InputError Char)),
      Source.drain (ofBytes bytes) = chars.map .ok ++ later ∧
      (∀ outcome ∈ later.head?, ∃ e, outcome = .error e) ∧
      chars.flatMap String.utf8EncodeChar <+: bytes ∧
      Valid (chars.flatMap String.utf8EncodeChar) ∧
      ∀ start, Valid start → start <+: bytes →
        start <+: chars.flatMap String.utf8EncodeChar) ∧
    ((∃ e, .error e ∈ Source.drain (ofBytes bytes)) ↔ ¬Valid bytes) ∧
    (∀ e, .error e ∈ Source.drain (ofBytes bytes) → e.kind = .invalidData) ∧
    (Source.drain (ofBytes bytes)).length ≤ bytes.length ∧
    (bytes = [] ∧ read (ofBytes bytes) = .ok none (ofBytes []) ∨
      ∃ used rest, bytes = used ++ rest ∧ 1 ≤ used.length ∧ used.length ≤ 4 ∧
        ((∃ c, used = String.utf8EncodeChar c ∧
            read (ofBytes bytes) = .ok (some c) (ofBytes rest)) ∨
          ∃ e, read (ofBytes bytes) = .error e (ofBytes rest))) := by
  have hreading := reading_drain bytes
  obtain ⟨chars, rest, later, hd, hb, hs, hl⟩ := hreading.split
  have hlongest : ∀ start, Valid start → start <+: bytes →
      start <+: chars.flatMap String.utf8EncodeChar := by
    intro start hv hp
    rw [hb] at hp
    exact prefix_flatMap_of_stuck hs hv hp
  have hvalid : (∃ e, .error e ∈ Source.drain (ofBytes bytes)) ↔ ¬Valid bytes := by
    rw [hd, hb, valid_append_iff hs]
    obtain ⟨rfl, rfl⟩ | ⟨hne, e, more, rfl⟩ := hl
    · simp
    · simp [hne]
  refine ⟨⟨chars, later, hd, ?_, ⟨rest, hb.symm⟩, valid_flatMap chars, hlongest⟩, hvalid,
    hreading.kind_of_error, hreading.length_le, read_ofBytes bytes⟩
  obtain ⟨-, rfl⟩ | ⟨-, e, more, rfl⟩ := hl <;> simp

end Decoder

end ScriptFrontend
