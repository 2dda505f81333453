import ScriptFrontend.Proofs.Script.Metered
import ScriptFrontend.Proofs.Script.Pushback
import ScriptFrontend.Proofs.Token.Metered

set_option autoImplicit false

namespace ScriptFrontend

open Source Scanner

namespace Feed

variable {α ε : Type}

theorem keeps_suffix (events : List (Event α ε)) :
    Keeps fun s : Feed α ε => s.events <:+ events where
  item {s t a} hs h := by
    obtain ⟨_ | ⟨_ | _ | _, later⟩⟩ := s <;> cases h
    exact ⟨(List.suffix_cons ..).trans hs, hs⟩
  stop {s t} hs h := by
    obtain ⟨_ | ⟨_ | _ | _, later⟩⟩ := s <;> cases h
    · exact hs
    · exact (List.suffix_cons ..).trans hs
  fail {s t e} hs h := by
    obtain ⟨_ | ⟨_ | _ | _, later⟩⟩ := s <;> cases h
    exact (List.suffix_cons ..).trans hs

theorem items_append (used later : List (Event α ε)) :
    (⟨used ++ later⟩ : Feed α ε).items = used.filterMap Event.item? ++ (⟨later⟩ : Feed α ε).items :=
  List.filterMap_append

end Feed

/-- What was used up between two states of a feed, where so many items are gone for good and no more
than so much was added to the effort. -/
theorem Recorded.exists_used {α ε : Type} {r t : Recorded (Feed α ε) α ε} (items extra : Nat)
    (hs : t.source.events <:+ r.source.events)
    (hi : (t.source.items.length + items : Int) ≤ r.source.items.length)
    (he : t.effort ≤ r.effort + extra) :
    ∃ used, r.source.events = used ++ t.source.events ∧
      items ≤ (used.filterMap Event.item?).length ∧
      t.calls.length ≤ r.calls.length + 3 * used.length + extra := by
  obtain ⟨used, hused⟩ := hs
  have hitems : r.source.items = used.filterMap Event.item? ++ t.source.items := by
    rw [← Feed.items_append, hused]
  have hr : r.effort = r.calls.length + 3 * r.source.events.length := rfl
  have ht : t.effort = t.calls.length + 3 * t.source.events.length := rfl
  rw [hitems, List.length_append] at hi
  rw [hr, ht, ← hused, List.length_append] at he
  exact ⟨used, hused.symm, by omega, by omega⟩

namespace Scanner

/-- A step uses up some events, with a character among them if it gives a token. -/
theorem advance_used (s : Scanner (Recorded (Feed Char InputError) Char InputError)) :
    ∃ used, s.head.source.source.events = used ++ s.advance.2.head.source.source.events ∧
      (s.advance.1 = true → ∃ c, .item c ∈ used) ∧
      s.advance.2.head.source.calls.length ≤
        s.head.source.calls.length + 3 * used.length + if s.advance.1 then 0 else 1 := by
  have hsuffix := advance_keeps (s := s)
    (Recorded.keeps (Feed.keeps_suffix s.head.source.source.events)) (List.suffix_refl _)
  have heffort := meter_advance Recorded.metered_effort s
  have hitems := meter_advance (Recorded.metered Feed.metered_items) s
  simp only [Head.meter] at heffort hitems
  cases hmore : s.advance.1 with
  | false =>
    rw [hmore] at heffort hitems
    obtain ⟨used, hused, -, hcalls⟩ := Recorded.exists_used 0 1 hsuffix
      (by simpa using hitems) heffort
    exact ⟨used, hused, by simp, hcalls⟩
  | true =>
    rw [hmore] at heffort hitems
    dsimp only [cond_true] at heffort hitems
    obtain ⟨used, hused, hpos, hcalls⟩ := Recorded.exists_used 1 0 hsuffix
      (by omega) heffort
    obtain ⟨c, hc⟩ := List.exists_mem_of_length_pos hpos
    obtain ⟨event, he, hevent⟩ := List.mem_filterMap.1 hc
    cases event <;> cases hevent
    exact ⟨used, hused, fun _ => ⟨c, he⟩, hcalls⟩

theorem run_used (source : Feed Char InputError) :
    ∃ used, source.events = used ++ (traced source).run.2.head.source.source.events ∧
      (ofSource source).run.1.length ≤ (used.filterMap Event.item?).length ∧
      (traced source).run.2.head.source.calls.length ≤ 3 * used.length + 1 := by
  have hsuffix := run_keeps (s := traced source)
    (Recorded.keeps (Feed.keeps_suffix source.events)) (List.suffix_refl _)
  have heffort := meter_run Recorded.metered_effort (traced source)
  have hitems := meter_run (Recorded.metered Feed.metered_items) (traced source)
  obtain ⟨used, hused, htokens, hcalls⟩ := Recorded.exists_used (traced source).run.1.length 1
    hsuffix (by simpa [Head.meter] using hitems) (by simpa [Head.meter] using heffort)
  rw [((abreast_traced source).run_eq Recorded.similar.together).1] at htokens
  refine ⟨used, hused, htokens, ?_⟩
  simpa [traced, ofSource, Recorded.start] using hcalls

end Scanner

namespace Script

theorem size_traced (source : Feed Char InputError) :
    Source.size (traced source).source = source.events.length + 1 := by
  change 1 * (source.events.length + 1) + 0 = source.events.length + 1
  omega

/-- A step that gives a token uses up a character for good, so a scan gives no more tokens than
characters are delivered to it, and no step behind these gives one. A scan or a parse makes at most
three calls on its source for each event, and one more. The calls for tokens in a parse are bounded
in the same way. -/
theorem scan_terminates :
    (∀ s : Scanner (Recorded (Feed Char InputError) Char InputError),
      ∃ used, s.head.source.source.events = used ++ s.advance.2.head.source.source.events ∧
        (s.advance.1 = true → ∃ c, .item c ∈ used) ∧
        s.advance.2.head.source.calls.length ≤
          s.head.source.calls.length + 3 * used.length + if s.advance.1 then 0 else 1) ∧
    ∀ source : Feed Char InputError,
      let tokens := (Scanner.ofSource source).run.1
      let last := (Scanner.traced source).run.2
      (Scanner.traced source).run.1 = tokens ∧
      (∃ used, source.events = used ++ last.head.source.source.events ∧
        tokens.length ≤ (used.filterMap Event.item?).length ∧
        last.head.source.calls.length ≤ 3 * used.length + 1) ∧
      (∀ calls, ((Scanner.ofSource source).after calls).advance.1 = true ↔
        calls.length < tokens.length) ∧
      ∀ (lenient : Bool) (enclosing : Scope),
        let left := leftover lenient (traced source)
        left.source.scanner.head.source.calls.length ≤ 3 * source.events.length + 1 ∧
          left.calls.length ≤ 3 * (source.events.length + 1) + 1 ∧
          ofTokens lenient enclosing (traced source) = ofSource lenient enclosing source := by
  refine ⟨advance_used, ?_⟩
  intro source tokens last
  refine ⟨?same, run_used source, ?stop, ?parse⟩
  case same => exact ((abreast_traced source).run_eq Recorded.similar.together).1
  case stop => exact advance_after_iff ⟨none, rfl⟩
  case parse =>
    intro lenient enclosing left
    obtain ⟨-, calls, hs⟩ := leftover_traced lenient source
    refine ⟨?_, ?_, ofTokens_traced ..⟩
    · exact hs ▸ calls_after source calls
    · exact size_traced source ▸ calls_leftover lenient (traced source).source

end Script

end ScriptFrontend
