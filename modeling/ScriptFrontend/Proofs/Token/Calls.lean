import ScriptFrontend.Proofs.Token.Stream

set_option autoImplicit false

namespace ScriptFrontend

namespace Scanner

inductive Call where
  | advance
  | next
deriving DecidableEq

inductive Reply where
  | advanced (more : Bool)
  | handed (item : Option (Except LexError Token))

def Call.gives : Call → Token → Reply
  | .advance, _ => .advanced true
  | .next, token => .handed (some (.ok token))

/-- The reply where the scan is over. The error is one that was not handed out yet. -/
def Call.stops : Call → Option LexError → Reply
  | .advance, _ => .advanced false
  | .next, e => .handed (e.map .error)

variable {σ : Type}

def owed (s : Scanner σ) : Option LexError :=
  match s.phase with
  | .failed e => some e
  | _ => none

def told (s : Scanner σ) : Scanner σ :=
  match s.phase with
  | .failed e => ⟨s.head, .reported e⟩
  | _ => s

def Scanning (s : Scanner σ) : Prop :=
  ∃ last, s.phase = .scanning last

section Told

variable (s : Scanner σ)

@[simp]
theorem head_told : s.told.head = s.head := by
  unfold told
  split <;> rfl

@[simp]
theorem error?_told : s.told.error? = s.error? := by
  obtain ⟨head, phase⟩ := s
  cases phase <;> rfl

@[simp]
theorem owed_told : s.told.owed = none := by
  obtain ⟨head, phase⟩ := s
  cases phase <;> rfl

@[simp]
theorem told_told : s.told.told = s.told := by
  obtain ⟨head, phase⟩ := s
  cases phase <;> rfl

end Told

variable {s t : Scanner σ}

theorem told_of_ended (h : ¬s.Scanning) : ¬s.told.Scanning := by
  obtain ⟨head, phase⟩ := s
  cases phase with
  | scanning last => exact absurd ⟨last, rfl⟩ h
  | finished => exact h
  | failed e => simp [Scanning, told]
  | reported e => exact h

theorem current?_of_ended (h : ¬s.Scanning) : s.current? = none := by
  unfold current?
  split
  · rename_i last hp
    exact absurd ⟨last, hp⟩ h
  · rfl

theorem error?_of_scanning (h : s.Scanning) : s.error? = none := by
  obtain ⟨last, hp⟩ := h
  simp [error?, hp]

variable [Source σ Char InputError]

def call (s : Scanner σ) : Call → Reply × Scanner σ
  | .advance => (.advanced s.advance.1, s.advance.2)
  | .next => (.handed s.next.1, s.next.2)

def after (s : Scanner σ) : List Call → Scanner σ
  | [] => s
  | c :: calls => (s.call c).2.after calls

theorem advance_of_ended (h : ¬s.Scanning) : s.advance = (false, s) := by
  unfold advance
  split
  · rename_i last hp
    exact absurd ⟨last, hp⟩ h
  · rfl

/-- All that one step can do: give a token, end, fail, or nothing where the scan is over already. -/
theorem advance_cases (s : Scanner σ) :
    (∃ head token, s.advance = (true, ⟨head, .scanning (some token)⟩)) ∨
      (∃ head, s.advance = (false, ⟨head, .finished⟩)) ∨
      (∃ head e, s.advance = (false, ⟨head, .failed e⟩)) ∨
      ¬s.Scanning ∧ s.advance = (false, s) := by
  by_cases hs : s.Scanning
  · obtain ⟨last, hp⟩ := hs
    cases hscan : Token.scan (continues last) s.head with
    | error e head => exact .inr (.inr (.inl ⟨head, e, by simp [advance, hp, hscan]⟩))
    | ok token? head =>
      cases token? with
      | none => exact .inr (.inl ⟨head, by simp [advance, hp, hscan]⟩)
      | some token => exact .inl ⟨head, token, by simp [advance, hp, hscan]⟩
  · exact .inr (.inr (.inr ⟨hs, advance_of_ended hs⟩))

theorem scanning_of_advance (h : s.advance = (true, t)) :
    ∃ token, t.phase = .scanning (some token) := by
  obtain ⟨head, token, ha⟩ | ⟨head, ha⟩ | ⟨head, e, ha⟩ | ⟨-, ha⟩ := advance_cases s
  · cases h.symm.trans ha
    exact ⟨token, rfl⟩
  all_goals cases h.symm.trans ha

theorem ended_of_advance (h : s.advance = (false, t)) :
    ¬t.Scanning ∧ (s.Scanning → t.owed = t.error?) := by
  obtain ⟨head, token, ha⟩ | ⟨head, ha⟩ | ⟨head, e, ha⟩ | ⟨hs, ha⟩ := advance_cases s
  all_goals cases h.symm.trans ha
  · exact ⟨by simp [Scanning], fun _ => rfl⟩
  · exact ⟨by simp [Scanning], fun _ => rfl⟩
  · exact ⟨hs, fun hs' => absurd hs' hs⟩

theorem call_token (h : s.advance = (true, t)) :
    ∃ token, s.run = (token :: t.run.1, t.run.2) ∧ t.phase = .scanning (some token) ∧
      ∀ c, s.call c = (Call.gives c token, t) := by
  obtain ⟨token, ht⟩ := scanning_of_advance h
  have hc : t.current? = some token := by simp [current?, ht]
  refine ⟨token, by simp [run_true h, hc], ht, fun c => ?_⟩
  cases c with
  | advance => simp [call, h, Call.gives]
  | next => simp [call, next, h, hc, Call.gives]

theorem call_stop (h : s.advance = (false, t)) (c : Call) :
    s.call c = (c.stops t.owed, if c = .next then t.told else t) := by
  cases c with
  | advance => simp [call, h, Call.stops]
  | next =>
    obtain ⟨head, phase⟩ := t
    cases phase <;> simp [call, next, h, Call.stops, owed, told]

theorem next_cases (s : Scanner σ) :
    (∃ token t, s.advance = (true, t) ∧ t.phase = .scanning (some token) ∧
      s.next = (some (.ok token), t)) ∨
    ∃ t, s.advance = (false, t) ∧ s.next = (t.owed.map .error, t.told) := by
  cases ha : s.advance with
  | mk more t =>
    cases more with
    | true =>
      obtain ⟨token, ht⟩ := scanning_of_advance ha
      exact .inl ⟨token, t, rfl, ht, by simp [next, ha, current?, ht]⟩
    | false =>
      refine .inr ⟨t, rfl, ?_⟩
      obtain ⟨head, phase⟩ := t
      cases phase <;> simp [next, ha, owed, told]

theorem after_of_ended (hs : ¬s.Scanning) (calls : List Call) :
    s.after calls = if .next ∈ calls then s.told else s := by
  induction calls generalizing s with
  | nil => rfl
  | cons c calls ih =>
    have hc := call_stop (advance_of_ended hs) c
    cases c with
    | advance => simp [after, hc, ih hs]
    | next => simp [after, hc, ih (told_of_ended hs)]

theorem run_after {calls : List Call} (hs : s.Scanning) (hl : calls.length ≤ s.run.1.length) :
    (s.after calls).Scanning ∧
      (s.after calls).run = (s.run.1.drop calls.length, s.run.2) := by
  induction calls generalizing s with
  | nil => exact ⟨hs, rfl⟩
  | cons c calls ih =>
    cases ha : s.advance with
    | mk more t =>
      cases more with
      | false => simp [run_false ha] at hl
      | true =>
        obtain ⟨token, hr, ht, hc⟩ := call_token ha
        have hlt : calls.length ≤ t.run.1.length := by
          rw [hr, List.length_cons, List.length_cons] at hl
          omega
        simpa [after, hc, hr] using ih ⟨_, ht⟩ hlt

theorem after_append (calls more : List Call) :
    s.after (calls ++ more) = (s.after calls).after more := by
  induction calls generalizing s with
  | nil => rfl
  | cons c calls ih => exact ih

theorem advance_of_run (h : s.run.1 = []) : s.advance = (false, s.run.2) := by
  cases ha : s.advance with
  | mk more t =>
    cases more with
    | false => simp [run_false ha]
    | true =>
      obtain ⟨token, hr, -, -⟩ := call_token ha
      simp [hr] at h

theorem call_of_run {token : Token} {tokens : List Token} (h : s.run.1 = token :: tokens)
    (c : Call) : (s.call c).1 = c.gives token ∧ (s.call c).2.current? = some token := by
  cases ha : s.advance with
  | mk more t =>
    cases more with
    | false => simp [run_false ha] at h
    | true =>
      obtain ⟨first, hr, ht, hc⟩ := call_token ha
      obtain rfl : first = token := by simp_all
      simp [hc, current?, ht]

section Stop

variable (h : s.advance = (false, t))

include h

theorem advance_after_stop (calls : List Call) :
    (s.after calls).advance = (false, if .next ∈ calls then t.told else t) := by
  have ht := (ended_of_advance h).1
  have hstay := advance_of_ended ht
  have hstay' := advance_of_ended (told_of_ended ht)
  cases calls with
  | nil => simpa [after] using h
  | cons c calls =>
    have hc := call_stop h c
    cases c with
    | advance =>
      by_cases hn : .next ∈ calls
      · simp [after, hc, after_of_ended ht, hn, hstay']
      · simp [after, hc, after_of_ended ht, hn, hstay]
    | next => simp [after, hc, after_of_ended (told_of_ended ht), hstay']

/-- The first `next` is handed the error, whatever else was called before it. -/
theorem call_after_stop (hs : s.Scanning) (calls : List Call) (c : Call) :
    ((s.after calls).call c).1 = c.stops (if .next ∈ calls then none else t.error?) ∧
      (((s.after calls).call c).2 = t ∨ ((s.after calls).call c).2 = t.told) := by
  have ho := (ended_of_advance h).2 hs
  rw [call_stop (advance_after_stop h calls)]
  by_cases hn : .next ∈ calls
  · simp [hn]
  · cases c <;> simp [hn, ho]

end Stop

theorem exists_stop {calls : List Call} (hs : s.Scanning) (hl : s.run.1.length ≤ calls.length) :
    ∃ u : Scanner σ, u.Scanning ∧ u.advance = (false, s.run.2) ∧
      s.after calls = u.after (calls.drop s.run.1.length) := by
  have htake : (calls.take s.run.1.length).length = s.run.1.length := by simp [hl]
  obtain ⟨hu, hr⟩ := run_after hs (Nat.le_of_eq htake)
  refine ⟨s.after (calls.take s.run.1.length), hu, ?_, ?_⟩
  · rw [advance_of_run] <;> simp [hr, htake]
  · rw [← after_append, List.take_append_drop]

theorem advance_after_iff (hs : s.Scanning) (calls : List Call) :
    (s.after calls).advance.1 = true ↔ calls.length < s.run.1.length := by
  constructor
  · intro h
    by_contra hl
    obtain ⟨u, hu, ha, he⟩ := exists_stop hs (Nat.le_of_not_lt hl)
    simp [he, advance_after_stop ha] at h
  · intro hl
    obtain ⟨-, hr⟩ := run_after hs (Nat.le_of_lt hl)
    cases ha : (s.after calls).advance with
    | mk more t =>
      cases more with
      | true => rfl
      | false =>
        rw [run_false ha, Prod.mk.injEq, eq_comm, List.drop_eq_nil_iff] at hr
        omega

/-- What one call gives after any others. A source can count its reads, so where the head stays the
same it was not read again. -/
theorem call_after (source : σ) (calls : List Call) (c : Call) :
    let tokens := (ofSource source).run.1
    let last := (ofSource source).run.2
    let s := (ofSource source).after calls
    let t := (s.call c).2
    (calls.length ≤ tokens.length → s.error? = none) ∧
    (∀ token, tokens[calls.length]? = some token →
      (s.call c).1 = c.gives token ∧ t.current? = some token) ∧
    (tokens.length ≤ calls.length →
      (s.call c).1 =
          c.stops (if .next ∈ calls.drop tokens.length then none else last.error?) ∧
        t.current? = none ∧ t.error? = last.error? ∧ t.head = last.head) := by
  intro tokens last s t
  have hstart : (ofSource source).Scanning := ⟨none, rfl⟩
  refine ⟨fun hl => ?_, fun token htoken => ?_, fun hl => ?_⟩
  · exact error?_of_scanning (run_after hstart hl).1
  · obtain ⟨hl, htoken⟩ := List.getElem?_eq_some_iff.1 htoken
    obtain ⟨-, hr⟩ := run_after hstart (Nat.le_of_lt hl)
    have hfirst : s.run.1 = token :: tokens.drop (calls.length + 1) := by
      rw [hr, List.drop_eq_getElem_cons hl, htoken]
    exact call_of_run hfirst c
  · obtain ⟨u, hu, ha, hs⟩ : ∃ u : Scanner σ, u.Scanning ∧ u.advance = (false, last) ∧
        s = u.after (calls.drop tokens.length) := exists_stop hstart hl
    have hend : ¬last.Scanning := (ended_of_advance ha).1
    obtain ⟨hreply, hstate⟩ := call_after_stop ha hu (calls.drop tokens.length) c
    rw [← hs] at hreply hstate
    refine ⟨hreply, ?_⟩
    rcases hstate with ht | ht
    · exact ⟨by simp [t, ht, current?_of_ended hend], by simp [t, ht], by simp [t, ht]⟩
    · have hc := current?_of_ended (told_of_ended hend)
      exact ⟨by simp [t, ht, hc], by simp [t, ht], by simp [t, ht]⟩

end Scanner

end ScriptFrontend
