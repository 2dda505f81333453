import ScriptFrontend.Proofs.Source.Recorded
import ScriptFrontend.Proofs.Token.Calls
import ScriptFrontend.Proofs.Token.Lockstep

/-! Scans over sources that do the same.

They give the same replies, whatever calls are made (`Abreast.after`). So what a recorded source says
of a scan is said of the scan over the source in it, and that takes back no more than the character
it read last.
-/

set_option autoImplicit false

namespace ScriptFrontend

variable {σ τ : Type}

structure Head.Over (R : σ → τ → Prop) (h : Head σ) (g : Head τ) : Prop where
  cursor : h.cursor = g.cursor
  source : R h.source g.source

variable [Source σ Char InputError] [Source τ Char InputError]

theorem Source.Similar.together {R : σ → τ → Prop} (hR : Similar R R) :
    Together (Head.Over R) where
  cursor hr := hr.cursor
  item {h g t c} hr ht := by
    obtain ⟨hk, hs⟩ := hr
    unfold Head.read at ht ⊢
    split at ht <;> cases ht
    obtain ⟨u, hu, hru, hback⟩ := hR.item hs ‹_›
    rw [hu, hk]
    exact ⟨_, rfl, ⟨rfl, hru⟩, rfl, hback⟩
  stop {h g t} hr ht := by
    obtain ⟨hk, hs⟩ := hr
    unfold Head.read at ht ⊢
    split at ht <;> cases ht
    obtain ⟨u, hu, hru⟩ := hR.stop hs ‹_›
    rw [hu]
    exact ⟨_, rfl, hk, hru⟩
  fail {h g t e} hr ht := by
    obtain ⟨hk, hs⟩ := hr
    unfold Head.read at ht ⊢
    split at ht <;> cases ht
    obtain ⟨u, hu, hru⟩ := hR.fail hs ‹_›
    rw [hu, hk]
    exact ⟨_, rfl, rfl, hru⟩

namespace Scanner

variable {R : Head σ → Head τ → Prop} {s : Scanner σ} {t : Scanner τ}

section Phase

variable (hr : s.Abreast R t)

include hr

omit [Source σ Char InputError] [Source τ Char InputError]

theorem Abreast.error? : s.error? = t.error? := by
  simp [Scanner.error?, hr.phase]

theorem Abreast.owed : s.owed = t.owed := by
  simp [Scanner.owed, hr.phase]

theorem Abreast.told : s.told.Abreast R t.told := by
  obtain ⟨hp, hh⟩ := hr
  unfold Scanner.told
  rw [← hp]
  split <;> exact ⟨by simp [hp], hh⟩

end Phase

section Together

variable (hR : Together R)

include hR

theorem Abreast.call (hr : s.Abreast R t) (c : Call) :
    (s.call c).1 = (t.call c).1 ∧ (s.call c).2.Abreast R (t.call c).2 := by
  obtain ⟨hmore, ha⟩ := hr.advance_eq hR
  cases hs : s.advance with
  | mk more s' =>
    obtain ⟨t', ht⟩ : ∃ t', t.advance = (more, t') := ⟨_, Prod.ext (by simp [← hmore, hs]) rfl⟩
    simp only [hs, ht] at ha
    cases more with
    | true =>
      obtain ⟨token, -, hp, hc⟩ := call_token hs
      obtain ⟨token', -, hp', hc'⟩ := call_token ht
      obtain rfl : token = token' := by simpa [hp, hp'] using ha.phase
      rw [hc, hc']
      exact ⟨rfl, ha⟩
    | false =>
      rw [call_stop hs, call_stop ht, ha.owed]
      refine ⟨rfl, ?_⟩
      split
      · exact ha.told
      · exact ha

theorem Abreast.after (hr : s.Abreast R t) (calls : List Call) :
    (s.after calls).Abreast R (t.after calls) := by
  induction calls generalizing s t with
  | nil => exact hr
  | cons c calls ih => exact ih (hr.call hR c).2

theorem Abreast.run_eq (hr : s.Abreast R t) :
    s.run.1 = t.run.1 ∧ s.run.2.Abreast R t.run.2 := by
  induction hn : s.size using Nat.strongRecOn generalizing s t with
  | ind n ih =>
    obtain ⟨hmore, ha⟩ := hr.advance_eq hR
    cases hs : s.advance with
    | mk more s' =>
      obtain ⟨t', ht⟩ : ∃ t', t.advance = (more, t') := ⟨_, Prod.ext (by simp [← hmore, hs]) rfl⟩
      simp only [hs, ht] at ha
      cases more with
      | false => simpa [run_false hs, run_false ht] using ha
      | true =>
        obtain ⟨htokens, hrun⟩ := ih _ (hn ▸ size_advance hs) ha rfl
        have hc : s'.current? = t'.current? := by simp [current?, ha.phase]
        rw [run_true hs, run_true ht, htokens, hc]
        exact ⟨rfl, hrun⟩

theorem Abreast.feed_eq (hr : s.Abreast R t) : s.feed = t.feed := by
  obtain ⟨htokens, hrun⟩ := hr.run_eq hR
  simp [feed, htokens, hrun.error?]

end Together

theorem advance_keeps {P : σ → Prop} (hP : Source.Keeps P) (hs : P s.head.source) :
    P s.advance.2.head.source :=
  (Abreast.advance_eq hP.similar.together (s := s) ⟨rfl, rfl, rfl, hs⟩).2.head.source.2

theorem run_keeps {P : σ → Prop} (hP : Source.Keeps P) (hs : P s.head.source) :
    P s.run.2.head.source :=
  (Abreast.run_eq hP.similar.together (s := s) ⟨rfl, rfl, rfl, hs⟩).2.head.source.2

/-- The scanner with all calls on its source recorded. -/
def traced (source : σ) : Scanner (Recorded σ Char InputError) :=
  ofSource (.start source)

/-- A scan over a recorded source is the scan over that source, with its record in order. -/
theorem abreast_traced (source : σ) :
    (traced source).Abreast (Head.Over Recorded.Beside) (ofSource source) :=
  ⟨rfl, rfl, Recorded.beside_start source⟩

theorem after_traced (source : σ) (calls : List Call) :
    ((traced source).after calls).Abreast (Head.Over Recorded.Beside)
      ((ofSource source).after calls) :=
  (abreast_traced source).after Recorded.similar.together calls

end Scanner

end ScriptFrontend
