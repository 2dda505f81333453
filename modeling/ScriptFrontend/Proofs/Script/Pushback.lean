import ScriptFrontend.Proofs.Script.Lookahead
import ScriptFrontend.Proofs.Script.Similar
import ScriptFrontend.Proofs.Token.Pushback
import ScriptFrontend.Script.Reading

/-! Whatever is taken back was read just before.

So neither the decoder nor the parser is ever asked to hold a second item. Both the calls of the
scanner on its source and those of the parser on its lookahead are recorded here, and the records do
not change what is scanned or parsed.
-/

set_option autoImplicit false

namespace ScriptFrontend

open Source Scanner

variable {σ : Type} [Source σ Char InputError]

theorem Decoder.held_read {d t : Decoder} {c : Char} (h : d.read = .ok (some c) t) :
    t.held = none := by
  unfold Decoder.read at h
  split at h
  · cases h
    rfl
  · split at h <;> cases h
    assumption

theorem exists_unread {α ε τ : Type} {calls : List (Source.Call τ α ε)}
    (h : calls.any fun | .read .. => false | .unread .. => true) :
    ∃ on a, .unread on a ∈ calls := by
  obtain ⟨call, hm, hk⟩ := List.any_eq_true.1 h
  cases call with
  | read on reply => cases hk
  | unread on a => exact ⟨on, a, hm⟩

namespace Script

/-- The tokens of a source as the parser takes them, with all calls recorded. -/
def traced (source : σ) : Recorded (Lookahead (Recorded σ Char InputError)) Token LexError :=
  .start { scanner := .traced source }

theorem ofTokens_traced (lenient : Bool) (enclosing : Scope) (source : σ) :
    ofTokens lenient enclosing (traced source) = ofSource lenient enclosing source := by
  let l : Lookahead (Recorded σ Char InputError) := { scanner := .traced source }
  calc ofTokens lenient enclosing (traced source)
    _ = ofTokens lenient enclosing l :=
        ofTokens_similar Recorded.similar (Recorded.beside_start l) ..
    _ = ofTokens lenient enclosing (Scanner.traced source).feed :=
        ofTokens_similar Lookahead.similar (s := l) ⟨rfl, rfl⟩ ..
    _ = ofSource lenient enclosing source := by
        rw [(abreast_traced source).feed_eq Recorded.similar.together, ofSource]

theorem leftover_traced (lenient : Bool) (source : σ) :
    Disciplined (leftover lenient (traced source)).calls ∧
      ∃ calls, (leftover lenient (traced source)).source.scanner =
        (Scanner.traced source).after calls := by
  let l : Lookahead (Recorded σ Char InputError) := { scanner := .traced source }
  obtain ⟨hsource, hd⟩ := leftover_similar Recorded.similar (Recorded.beside_start l) lenient
  obtain ⟨-, hcalls⟩ := leftover_similar (Lookahead.keeps_after l.scanner).similar
    (s := l) ⟨rfl, [], rfl⟩ lenient
  exact ⟨hd, hsource ▸ hcalls⟩

/-- Every item that is taken back was given by the call just before, in any calls on a scanner and in
any parse, whatever the source gives. So a decoder holds nothing yet where it is given a character
back, and the lookahead of the parser holds no token. -/
theorem pushback_disciplined :
    (∀ (source : σ) (calls : List Scanner.Call),
      let s := (Scanner.traced source).after calls
      let t := (Scanner.ofSource source).after calls
      Disciplined s.head.source.calls ∧
        s.head.source.source = t.head.source ∧ s.head.cursor = t.head.cursor ∧
        s.phase = t.phase) ∧
    (∀ (source : σ) (lenient : Bool) (enclosing : Scope),
      let tokens := leftover lenient (traced source)
      Disciplined tokens.source.scanner.head.source.calls ∧
        Disciplined tokens.calls ∧
        (∀ on t, .unread on t ∈ tokens.calls → on.held = none) ∧
        ofTokens lenient enclosing (traced source) = ofSource lenient enclosing source) ∧
    ∀ (d : Decoder) (calls : List Scanner.Call) (lenient : Bool) (on : Decoder) (c : Char),
      .unread on c ∈ ((Scanner.traced d).after calls).head.source.calls ∨
        .unread on c ∈ (leftover lenient (traced d)).source.scanner.head.source.calls →
      on.held = none := by
  refine ⟨?scan, ?parse, ?decode⟩
  case scan =>
    intro source calls s t
    obtain ⟨hp, hk, hsource, hd⟩ := after_traced source calls
    exact ⟨hd, hsource, hk, hp⟩
  case parse =>
    intro source lenient enclosing tokens
    obtain ⟨hd, calls, hs⟩ := leftover_traced lenient source
    refine ⟨?_, hd, fun on t hm => ?_, ofTokens_traced ..⟩
    · exact hs ▸ (after_traced source calls).head.source.disciplined
    · obtain ⟨l, hr⟩ := hd.read_of_unread hm
      exact Lookahead.held_read hr
  case decode =>
    intro d calls lenient on c hm
    obtain ⟨more, hm⟩ : ∃ more,
        .unread on c ∈ ((Scanner.traced d).after more).head.source.calls := by
      obtain hm | hm := hm
      · exact ⟨calls, hm⟩
      · obtain ⟨-, more, hs⟩ := leftover_traced lenient d
        exact ⟨more, hs ▸ hm⟩
    obtain ⟨e, hr⟩ := (after_traced d more).head.source.disciplined.read_of_unread hm
    exact Decoder.held_read hr

/-- Where a type could stand, the parser takes a sign back. Behind a word, the scanner takes back the
character that ends it. -/
theorem pushback_disciplined_sign :
    let tokens := leftover false (traced (Decoder.ofBytes "let x = 1\n".toUTF8.toList))
    (∃ on t, .unread on t ∈ tokens.calls ∧ on.held = none) ∧
      ∃ on c, .unread on c ∈ tokens.source.scanner.head.source.calls ∧ on.held = none := by
  intro tokens
  obtain ⟨-, hparse, hdecode⟩ := pushback_disciplined (σ := Decoder)
  obtain ⟨l, t, ht⟩ : ∃ l t, .unread l t ∈ tokens.calls := exists_unread (by decide +kernel)
  obtain ⟨d, c, hc⟩ : ∃ d c, .unread d c ∈ tokens.source.scanner.head.source.calls :=
    exists_unread (by decide +kernel)
  have hempty := (hparse (.ofBytes "let x = 1\n".toUTF8.toList) false .root).2.2.1
  exact ⟨⟨l, t, ht, hempty l t ht⟩, d, c, hc, hdecode _ [] false d c (.inr hc)⟩

end Script

end ScriptFrontend
