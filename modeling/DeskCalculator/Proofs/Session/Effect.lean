import DeskCalculator.Proofs.Calculation.Faults

/-!
# What an action does

An action starts at most one calculation, and all that a calculation does to a session is decided by
how it ends. Its outcome goes on the line and behind the history; a fault that keeps the display is
noted under it; any other fault puts the marker on the line. The actions that start no calculation
leave the history alone, except the one that clears it.
-/

namespace DeskCalculator

namespace Session

/-! ## Calculations -/

/-- The calculation of an action that is carried out: none if the action is a key, opens a prompt,
or is about the history or the preferences. -/
def started (s : Session) : Action → Option (Except Fault Outcome)
  | .calculate =>
    match Kind.ofLine s.line with
    | .equation => some (Calculation.equation s.line)
    | .withVariable => none
    | .plain => some (Calculation.plain s.line)
  | .squareRoot => some (Calculation.squareRoot s.line)
  | .trigonometric f => some (Calculation.trigonometric s.line f)
  | .submit => s.prompt.map (answered s.line)
  | _ => none

/-- An open prompt holds the action back. -/
def HoldsBack (s : Session) (a : Action) : Prop :=
  s.prompt.isSome = true ∧ a.passesPrompt = false

instance (s : Session) (a : Action) : Decidable (s.HoldsBack a) :=
  inferInstanceAs (Decidable (_ ∧ _))

/-- The calculation that an action starts, unless it is held back. -/
def calculation? (s : Session) (a : Action) : Option (Except Fault Outcome) :=
  if s.HoldsBack a then none else s.started a

variable {s t : Session} {a : Action} {r : Except Fault Outcome} {o : Outcome} {e : Fault}

@[simp] theorem prompt_record (s : Session) (r : Except Fault Outcome) :
    (s.record r).prompt = s.prompt := by
  cases r with
  | ok o => rfl
  | error e =>
    rw [record]
    split <;> rfl

@[simp] theorem preferences_record (s : Session) (r : Except Fault Outcome) :
    (s.record r).preferences = s.preferences := by
  cases r with
  | ok o => rfl
  | error e =>
    rw [record]
    split <;> rfl

theorem execute_of_holdsBack (h : s.HoldsBack a) : s.execute a = s := by
  rw [execute, h.1, h.2]
  rfl

theorem execute_eq_perform (h : ¬ s.HoldsBack a) : s.execute a = s.perform a := by
  rw [execute, if_neg]
  rwa [Bool.and_eq_true, Bool.not_eq_true']

theorem not_holdsBack_of_prompt (h : s.prompt = none) : ¬ s.HoldsBack a := by
  intro hheld
  rw [HoldsBack, h] at hheld
  cases hheld.1

/-- The actions that start a calculation, with what is known of the session then. -/
inductive Starts (s : Session) : Action → Except Fault Outcome → Prop
  | equation (hkind : Kind.ofLine s.line = .equation) :
      s.Starts .calculate (Calculation.equation s.line)
  | plain (hkind : Kind.ofLine s.line = .plain) : s.Starts .calculate (Calculation.plain s.line)
  | squareRoot : s.Starts .squareRoot (Calculation.squareRoot s.line)
  | trigonometric (f : TrigFunction) :
      s.Starts (.trigonometric f) (Calculation.trigonometric s.line f)
  | submit {p : Prompt} (hp : s.prompt = some p) : s.Starts .submit (answered s.line p)

theorem starts_of_started (h : s.started a = some r) : s.Starts a r := by
  cases a with
  | calculate =>
    simp only [started] at h
    split at h
    · next hkind =>
      cases h
      exact .equation hkind
    · cases h
    · next hkind =>
      cases h
      exact .plain hkind
  | squareRoot =>
    cases h
    exact .squareRoot
  | trigonometric f =>
    cases h
    exact .trigonometric f
  | submit =>
    obtain ⟨p, hp, rfl⟩ := Option.map_eq_some_iff.mp h
    exact .submit hp
  | _ => cases h

theorem started_of_calculation? (h : s.calculation? a = some r) :
    ¬ s.HoldsBack a ∧ s.started a = some r :=
  Option.ite_none_left_eq_some.mp h

/-- Behind a prompt no calculation is started but the one that its answer leads to. -/
theorem prompt_of_calculation? (h : s.calculation? a = some r) : s.prompt = none ∨ a = .submit := by
  obtain ⟨hheld, hstarted⟩ := started_of_calculation? h
  rw [HoldsBack, not_and_or, Option.not_isSome_iff_eq_none, Bool.not_eq_false] at hheld
  refine hheld.imp_right fun hpasses ↦ ?_
  cases starts_of_started hstarted with
  | submit hp => rfl
  | _ => cases hpasses

theorem Starts.perform (h : s.Starts a r) (hprompt : s.prompt = none ∨ a = .submit) :
    s.perform a = { s with prompt := none }.record r := by
  have hclosed : a ≠ .submit → { s with prompt := none } = s := by
    intro ha
    rw [← hprompt.resolve_right ha]
  cases h with
  | equation hkind => rw [hclosed nofun, Session.perform, calculate, hkind]
  | plain hkind => rw [hclosed nofun, Session.perform, calculate, hkind]
  | squareRoot => rw [hclosed nofun, Session.perform]
  | trigonometric f => rw [hclosed nofun, Session.perform]
  | submit hp => rw [Session.perform, Session.submit, hp]

/-- An action with a calculation closes the prompt and records how the calculation ends. -/
theorem execute_of_calculation? (h : s.calculation? a = some r) :
    s.execute a = { s with prompt := none }.record r := by
  obtain ⟨hheld, hstarted⟩ := started_of_calculation? h
  rw [execute_eq_perform hheld]
  exact (starts_of_started hstarted).perform (prompt_of_calculation? h)

/-! ## Actions without a calculation -/

/-- An action without a calculation is held back, or carried out with none to start. -/
theorem execute_of_not_calculation? (h : s.calculation? a = none) :
    s.execute a = s ∨ ¬ s.HoldsBack a ∧ s.started a = none ∧ s.execute a = s.perform a := by
  by_cases hheld : s.HoldsBack a
  · exact .inl (execute_of_holdsBack hheld)
  · rw [calculation?, if_neg hheld] at h
    exact .inr ⟨hheld, h, execute_eq_perform hheld⟩

theorem perform_calculate_of_not_started (h : s.started .calculate = none) :
    s.perform .calculate = s.ask .valueOfX := by
  rw [perform, calculate]
  rw [started] at h
  cases hkind : Kind.ofLine s.line with
  | withVariable => rfl
  | equation | plain =>
    rw [hkind] at h
    cases h

theorem perform_submit_of_not_started (h : s.started .submit = none) : s.perform .submit = s := by
  have hprompt : s.prompt = none := Option.map_eq_none_iff.mp h
  rw [perform, submit, hprompt]

theorem history_perform_of_not_started (h : s.started a = none) :
    (s.perform a).history = s.history ∨
      (s.perform a).history = [] ∧ a = .confirmClearHistory := by
  cases a with
  | confirmClearHistory => exact .inr ⟨rfl, rfl⟩
  | calculate =>
    rw [perform_calculate_of_not_started h]
    exact .inl rfl
  | submit =>
    rw [perform_submit_of_not_started h]
    exact .inl rfl
  | squareRoot | trigonometric f => cases h
  | _ => exact .inl rfl

theorem preferences_perform_of_not_started (h : s.started a = none) :
    (s.perform a).preferences = s.preferences ∨ a = .toggleTheme ∨ ∃ v, a = .chooseScale v := by
  cases a with
  | toggleTheme => exact .inr (.inl rfl)
  | chooseScale v => exact .inr (.inr ⟨v, rfl⟩)
  | calculate =>
    rw [perform_calculate_of_not_started h]
    exact .inl rfl
  | submit =>
    rw [perform_submit_of_not_started h]
    exact .inl rfl
  | squareRoot | trigonometric f => cases h
  | _ => exact .inl rfl

theorem preferences_execute (s : Session) (a : Action) :
    (s.execute a).preferences = s.preferences ∨ a = .toggleTheme ∨ ∃ v, a = .chooseScale v := by
  cases hcalculation : s.calculation? a with
  | some r =>
    rw [execute_of_calculation? hcalculation, preferences_record]
    exact .inl rfl
  | none =>
    rcases execute_of_not_calculation? hcalculation with hsame | ⟨-, hstarted, hperform⟩
    · rw [hsame]
      exact .inl rfl
    · rw [hperform]
      exact preferences_perform_of_not_started hstarted

theorem history_execute_of_not_calculation? (h : s.calculation? a = none) :
    (s.execute a).history = s.history ∨
      (s.execute a).history = [] ∧ a = .confirmClearHistory ∧ s.prompt = none := by
  rcases execute_of_not_calculation? h with hsame | ⟨hheld, hstarted, hperform⟩
  · rw [hsame]
    exact .inl rfl
  · rw [hperform]
    refine (history_perform_of_not_started hstarted).imp_right ?_
    rintro ⟨hempty, rfl⟩
    refine ⟨hempty, rfl, ?_⟩
    rw [HoldsBack, not_and_or, Option.not_isSome_iff_eq_none] at hheld
    exact hheld.resolve_right fun hpasses ↦ hpasses rfl

/-! ## How a calculation ends -/

/-- The session `t` comes from `s` by recording an outcome. -/
structure IsRecorded (s t : Session) (o : Outcome) : Prop where
  history : t.history = s.history ++ [o.entry]
  line : t.line = o.display
  preview : t.preview = []
  notice : t.notice = none

/-- The session `t` comes from `s` by noting a fault under the display. -/
structure IsNoted (s t : Session) (e : Fault) : Prop where
  history : t.history = s.history
  line : t.line = s.line
  preview : t.preview = s.preview
  notice : t.notice = some e.message

/-- The session `t` comes from `s` by putting the error marker on the display. -/
structure IsRejected (s t : Session) : Prop where
  history : t.history = s.history
  line : t.line = Marker.error.word
  preview : t.preview = []
  notice : t.notice = none

theorem isRecorded_of_calculation? (h : s.calculation? a = some (.ok o)) :
    s.IsRecorded (s.execute a) o := by
  rw [execute_of_calculation? h]
  exact ⟨rfl, rfl, rfl, rfl⟩

theorem isNoted_of_calculation? (h : s.calculation? a = some (.error e))
    (he : e.keepsDisplay = true) : s.IsNoted (s.execute a) e := by
  rw [execute_of_calculation? h, record, if_pos he]
  exact ⟨rfl, rfl, rfl, rfl⟩

theorem isRejected_of_calculation? (h : s.calculation? a = some (.error e))
    (he : e.ReplacesDisplay) : s.IsRejected (s.execute a) := by
  have hkeeps : ¬ e.keepsDisplay = true := by
    rw [he]
    exact Bool.false_ne_true
  rw [execute_of_calculation? h, record, if_neg hkeeps]
  exact ⟨rfl, rfl, rfl, rfl⟩

theorem history_execute_of_error (h : s.calculation? a = some (.error e)) :
    (s.execute a).history = s.history := by
  cases he : e.keepsDisplay with
  | true => exact (isNoted_of_calculation? h he).history
  | false => exact (isRejected_of_calculation? h he).history

/-! ## Where the faults come from -/

/-- A calculation is refused for the variable only under a trigonometric function, and for an
answer only behind a prompt. -/
theorem refusesOnly_calculation? (h : s.calculation? a = some r) :
    RefusesOnly Fault.ReplacesDisplay r ∨
    (∃ f, a = .trigonometric f ∧
      RefusesOnly (fun e ↦ e = .variableNotAllowed ∨ e.ReplacesDisplay) r) ∨
    (a = .submit ∧ s.prompt.isSome = true ∧ RefusesOnly (· ≠ .variableNotAllowed) r) := by
  cases starts_of_started (started_of_calculation? h).2 with
  | equation hkind => exact .inl (Calculation.refusesOnly_equation s.line)
  | plain hkind => exact .inl (Calculation.refusesOnly_plain s.line)
  | squareRoot => exact .inl (Calculation.refusesOnly_squareRoot s.line)
  | trigonometric f =>
    exact .inr (.inl ⟨f, rfl, Calculation.refusesOnly_trigonometric s.line f⟩)
  | @submit p hp =>
    refine .inr (.inr ⟨rfl, ?_, refusesOnly_answered s.line p⟩)
    rw [hp]
    rfl

theorem exists_trigonometric_of_calculation?
    (h : s.calculation? a = some (.error .variableNotAllowed)) : ∃ f, a = .trigonometric f := by
  rcases refusesOnly_calculation? h with hr | ⟨f, ha, -⟩ | ⟨-, -, hr⟩
  · exact absurd (hr _ rfl) nofun
  · exact ⟨f, ha⟩
  · exact absurd rfl (hr _ rfl)

theorem eq_submit_of_calculation? {answer : List Char}
    (h : s.calculation? a = some (.error (.notNumeric answer))) :
    a = .submit ∧ s.prompt.isSome = true := by
  rcases refusesOnly_calculation? h with hr | ⟨f, -, hr⟩ | ⟨ha, hprompt, -⟩
  · exact absurd (hr _ rfl) nofun
  · rcases hr _ rfl with hvariable | hreplaces
    · cases hvariable
    · exact absurd hreplaces nofun
  · exact ⟨ha, hprompt⟩

/-! ## The effect of an action -/

/-- The history grows exactly when the calculation of the action has an outcome. -/
theorem length_history_lt_iff :
    s.history.length < (s.execute a).history.length ↔ ∃ o, s.calculation? a = some (.ok o) := by
  constructor
  · intro hlt
    cases hcalculation : s.calculation? a with
    | some r =>
      cases r with
      | ok o => exact ⟨o, rfl⟩
      | error e =>
        rw [history_execute_of_error hcalculation] at hlt
        exact absurd hlt (Nat.lt_irrefl _)
    | none =>
      rcases history_execute_of_not_calculation? hcalculation with hsame | ⟨hempty, -, -⟩
      · rw [hsame] at hlt
        exact absurd hlt (Nat.lt_irrefl _)
      · rw [hempty] at hlt
        exact absurd hlt (Nat.not_lt_zero _)
  · rintro ⟨o, h⟩
    rw [(isRecorded_of_calculation? h).history, List.length_append]
    exact Nat.lt_succ_self _

theorem history_execute (s : Session) (a : Action) :
    (s.execute a).history = s.history ∨ (∃ entry, (s.execute a).history = s.history ++ [entry]) ∨
      ((s.execute a).history = [] ∧ a = .confirmClearHistory ∧ s.prompt = none) := by
  cases hcalculation : s.calculation? a with
  | some r =>
    cases r with
    | ok o => exact .inr (.inl ⟨o.entry, (isRecorded_of_calculation? hcalculation).history⟩)
    | error e => exact .inl (history_execute_of_error hcalculation)
  | none => exact (history_execute_of_not_calculation? hcalculation).imp_right .inr

/-- What an action does to the history, the display and the preferences, in every session and
whatever is typed into an open prompt. -/
theorem execute_effect (s : Session) (a : Action) :
    ((s.execute a).history = s.history ∨
      (∃ entry, (s.execute a).history = s.history ++ [entry]) ∨
      ((s.execute a).history = [] ∧ a = .confirmClearHistory ∧ s.prompt = none)) ∧
    (s.history.length < (s.execute a).history.length ↔ ∃ o, s.calculation? a = some (.ok o)) ∧
    (∀ o, s.calculation? a = some (.ok o) → s.IsRecorded (s.execute a) o) ∧
    (∀ answer, s.calculation? a = some (.error (.notNumeric answer)) →
      s.IsNoted (s.execute a) (.notNumeric answer) ∧ a = .submit ∧ s.prompt.isSome = true) ∧
    (s.calculation? a = some (.error .variableNotAllowed) →
      s.IsNoted (s.execute a) .variableNotAllowed ∧ ∃ f, a = .trigonometric f) ∧
    (∀ e, s.calculation? a = some (.error e) → e ≠ .variableNotAllowed →
      (∀ answer, e ≠ .notNumeric answer) → s.IsRejected (s.execute a)) ∧
    ((s.execute a).preferences ≠ s.preferences → a = .toggleTheme ∨ ∃ v, a = .chooseScale v) := by
  refine ⟨history_execute s a, length_history_lt_iff, ?_, ?_, ?_, ?_, ?_⟩
  · intro o h
    exact isRecorded_of_calculation? h
  · intro answer h
    exact ⟨isNoted_of_calculation? h rfl, eq_submit_of_calculation? h⟩
  · intro h
    exact ⟨isNoted_of_calculation? h rfl, exists_trigonometric_of_calculation? h⟩
  · intro e h hvariable hnumeric
    exact isRejected_of_calculation? h (Fault.replacesDisplay_of_ne hvariable hnumeric)
  · intro h
    exact (preferences_execute s a).resolve_left h

/-- A sum has an outcome, a variable and an answer are noted, and a doubled equals sign is not. -/
theorem execute_effect_outcomes :
    (∃ o, IsRecorded { line := ['1', '+', '1'] }
      (execute { line := ['1', '+', '1'] } .calculate) o) ∧
    IsNoted { line := ['x'] } (execute { line := ['x'] } (.trigonometric .sine))
      .variableNotAllowed ∧
    IsNoted { line := ['x'], prompt := some ⟨.valueOfX, ['a']⟩ }
      (execute { line := ['x'], prompt := some ⟨.valueOfX, ['a']⟩ } .submit)
      (.notNumeric ['a']) ∧
    IsRejected { line := ['=', '='] } (execute { line := ['=', '='] } .calculate) := by
  refine ⟨?_, ?_, ?_, ?_⟩
  · obtain ⟨o, ho⟩ :=
      (execute_effect { line := ['1', '+', '1'] } .calculate).2.1.mp (by decide +kernel)
    exact ⟨o, (execute_effect _ _).2.2.1 o ho⟩
  · exact ((execute_effect _ _).2.2.2.2.1 rfl).1
  · exact ((execute_effect _ _).2.2.2.1 _ rfl).1
  · exact (execute_effect _ _).2.2.2.2.2.1 (.notEquation .severalEquals) rfl nofun nofun

end Session

end DeskCalculator
