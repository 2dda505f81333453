import ScriptFrontend.Proofs.Script.Similar
import ScriptFrontend.Proofs.Source.Metered

set_option autoImplicit false

namespace ScriptFrontend

variable {τ α : Type}

def TokenHead.meter (m : τ → Int) (d : TokenHead τ) : Int :=
  m d.tokens

namespace Source.Metered

variable [Source τ Token LexError] {m : τ → Int} {item back stop : Int}
  (hm : Metered m item back stop)

section Failures

variable {result : α → Int} {failure : Int} (hf : 0 ≤ failure)

include hf

omit [Source τ Token LexError]

theorem adds_refusal (cause : ParseCause) (position : Option Position) :
    Adds (TokenHead.meter m) result failure (TokenHead.fail cause position : Parse τ α) := by
  intro d
  change d.meter m ≤ d.meter m + failure
  omega

theorem adds_failAtEnd (expected : Option Kind) :
    Adds (TokenHead.meter m) result failure (TokenHead.failAtEnd expected : Parse τ α) := by
  intro d
  change d.meter m ≤ d.meter m + failure
  omega

end Failures

include hm

theorem next_token {d t : TokenHead τ} {token : Token} (ht : TokenHead.next d = .ok (some token) t) :
    t.meter m + item ≤ d.meter m ∧ m (unread token t.tokens) ≤ d.meter m + back := by
  unfold TokenHead.next at ht
  split at ht <;> cases ht
  exact hm.of_item ‹_›

theorem next :
    Adds (TokenHead.meter m) (price item stop) stop (TokenHead.next : Parse τ (Option Token)) := by
  intro d
  unfold TokenHead.next
  split
  · have := (hm.of_item ‹_›).1
    dsimp only [Capped, price, TokenHead.meter]
    omega
  · exact hm.of_stop ‹_›
  · exact hm.of_fail ‹_›

theorem nextIf (kind : Kind) :
    Adds (TokenHead.meter m) (price item back) stop
      (TokenHead.nextIf kind : Parse τ (Option Token)) := by
  intro d
  have ⟨hn, hs, hb⟩ := hm.order
  unfold TokenHead.nextIf
  split
  · rename_i token t ht
    have ⟨hitem, hback⟩ := hm.next_token ht
    split
    · dsimp only [Capped, price]
      omega
    · exact hback
  · exact (hm.next.capped d).mono (fun found => by cases found <;> dsimp only [price] <;> omega)
      (Int.le_refl _)

theorem expect (kind : Kind) :
    Adds (TokenHead.meter m) (fun _ => -item) stop (TokenHead.expect kind : Parse τ Token) := by
  have ⟨hn, hs, hb⟩ := hm.order
  refine hm.next.bind (fun found => ?_) (Int.le_refl _)
  split
  · split
    · exact .pure (by dsimp only [price]; omega)
    · exact adds_refusal (by dsimp only [price]; omega) ..
  · exact adds_failAtEnd (by dsimp only [price]; omega) _

theorem finish (lenient : Bool) :
    Adds (TokenHead.meter m) (fun _ => stop) stop (Statement.finish lenient : Parse τ Unit) := by
  have ⟨hn, hs, hb⟩ := hm.order
  refine hm.next.bind (fun found => ?_) (Int.le_refl _)
  split
  · split
    · exact .pure (by dsimp only [price]; omega)
    · exact adds_refusal (by dsimp only [price]; omega) ..
  · split
    · exact .pure (by dsimp only [price]; omega)
    · exact adds_failAtEnd (by dsimp only [price]; omega) _

theorem expr : Adds (TokenHead.meter m) (fun _ => -item) stop (Statement.expr : Parse τ Expr) := by
  have ⟨hn, hs, hb⟩ := hm.order
  refine hm.next.bind (fun found => ?_) (Int.le_refl _)
  split
  · split
    all_goals first
      | exact .pure (by dsimp only [price]; omega)
      | exact adds_refusal (by dsimp only [price]; omega) ..
  · exact adds_failAtEnd (by dsimp only [price]; omega) _

theorem importName (path : String) :
    Adds (TokenHead.meter m) (fun _ => back) stop
      (Statement.importName path : Parse τ String) := by
  have ⟨hn, hs, hb⟩ := hm.order
  refine (hm.nextIf _).bind (fun found => ?_) (Int.le_refl _)
  split
  · refine (hm.expect _).bind (fun _ => ?_) (by dsimp only [price]; omega)
    exact .pure (by dsimp only [price]; omega)
  · exact .pure (by dsimp only [price]; omega)

theorem importAfter (lenient : Bool) (start : Position) :
    Adds (TokenHead.meter m) (fun _ => stop) stop
      (Statement.importAfter lenient start : Parse τ Declaration) := by
  have ⟨hn, hs, hb⟩ := hm.order
  refine (hm.expect _).bind (fun _ => ?_) (Int.le_refl _)
  refine (hm.importName _).bind (fun _ => ?_) (by omega)
  refine (hm.finish _).bind (fun _ => ?_) (by omega)
  exact .pure (by omega)

theorem letAfter (lenient : Bool) (start : Position) :
    Adds (TokenHead.meter m) (fun _ => stop) stop
      (Statement.letAfter lenient start : Parse τ Declaration) := by
  have ⟨hn, hs, hb⟩ := hm.order
  refine (hm.expect _).bind (fun _ => ?_) (Int.le_refl _)
  refine (hm.nextIf _).bind (fun stated => ?_) (by omega)
  have hstated : price item back stated ≤ back := by
    cases stated <;> dsimp only [price] <;> omega
  refine (hm.expect _).bind (fun _ => ?_) (by omega)
  refine hm.expr.bind (fun _ => ?_) (by omega)
  refine (hm.finish _).bind (fun _ => ?_) (by omega)
  exact .pure (by omega)

/-- The keyword of a clause pays for what is taken back in it and for an end that is met. -/
theorem readAll (lenient imports : Bool) (earlier : List Declaration) :
    Adds (TokenHead.meter m) (fun _ => stop) stop
      (Statement.readAll lenient imports earlier : Parse τ (List Declaration)) := by
  intro d
  have ⟨hn, hs, hb⟩ := hm.order
  fun_induction Statement.readAll lenient imports earlier d with
  | case1 imports earlier d e t ht => exact hm.next.error ht
  | case2 imports earlier d t ht => exact hm.next.ok ht
  | case3 imports earlier d token t ht _ _ ih | case4 imports earlier d token t ht _ _ ih =>
    have := (hm.next_token ht).1
    exact ih.lift (by omega)
  | case5 earlier d token t ht _ _ e u hu =>
    have := (hm.next_token ht).1
    have := (hm.importAfter ..).error hu
    dsimp only [Capped]
    omega
  | case6 earlier d token t ht _ _ declaration u hu _ ih =>
    have := (hm.next_token ht).1
    have := (hm.importAfter ..).ok hu
    exact ih.lift (by omega)
  | case7 imports earlier d token t ht =>
    have := (hm.next_token ht).1
    exact ((adds_refusal hn _ _).capped t).lift (by omega)
  | case8 imports earlier d token t ht _ _ e u hu =>
    have := (hm.next_token ht).1
    have := (hm.letAfter ..).error hu
    dsimp only [Capped]
    omega
  | case9 imports earlier d token t ht _ _ declaration u hu _ ih =>
    have := (hm.next_token ht).1
    have := (hm.letAfter ..).ok hu
    exact ih.lift (by omega)
  | case10 imports earlier d token t ht =>
    have := (hm.next_token ht).1
    exact ((adds_refusal hn _ _).capped t).lift (by omega)

end Source.Metered

namespace Script

open Source

variable [Source τ Token LexError]

theorem meter_leftover {m : τ → Int} {item back stop : Int} (hm : Metered m item back stop)
    (lenient : Bool) (tokens : τ) : m (leftover lenient tokens) ≤ m tokens + stop :=
  ((hm.readAll lenient true []).capped { tokens }).left

/-- A parse makes no more calls on its tokens than fit their size. -/
theorem calls_leftover (lenient : Bool) (tokens : τ) :
    (leftover lenient (.start tokens : Recorded τ Token LexError)).calls.length ≤
      3 * Source.size tokens + 1 := by
  have hle := meter_leftover Recorded.metered_effort lenient
    (.start tokens : Recorded τ Token LexError)
  have hcalls := (leftover lenient (.start tokens : Recorded τ Token LexError)).calls_le_effort
  rw [Recorded.effort_start] at hle
  omega

end Script

end ScriptFrontend
