import DeskCalculator.Proofs.Session.Prompt

/-!
# The confirmation

The clearing of the history is asked for and confirmed by buttons of its own. No other action opens
or closes the confirmation, and no other action takes anything out of the history; so as long as the
confirmation is open there is something to clear.

Only buttons of the panels open a prompt. When actions of other areas close one, it stays closed.
-/

namespace DeskCalculator

namespace Session

variable {s : Session} {a : Action} {as : List Action}

theorem executeAll_induction (p : Session → Prop) (hs : p s)
    (h : ∀ t, p t → ∀ a ∈ as, p (t.execute a)) : p (s.executeAll as) :=
  List.foldlRecOn as execute hs h

/-! ## The confirmation flag -/

/-- The session with its confirmation open or closed. -/
def withConfirming (s : Session) (b : Bool) : Session := { s with isConfirming := b }

@[simp] theorem isConfirming_withConfirming (s : Session) (b : Bool) :
    (s.withConfirming b).isConfirming = b := rfl

@[simp] theorem withConfirming_isConfirming (s : Session) :
    s.withConfirming s.isConfirming = s := rfl

@[simp] theorem line_withConfirming (s : Session) (b : Bool) :
    (s.withConfirming b).line = s.line := rfl

@[simp] theorem prompt_withConfirming (s : Session) (b : Bool) :
    (s.withConfirming b).prompt = s.prompt := rfl

@[simp] theorem record_withConfirming (s : Session) (r : Except Fault Outcome) (b : Bool) :
    (s.withConfirming b).record r = (s.record r).withConfirming b := by
  cases r with
  | ok o => rfl
  | error e =>
    rw [record, record]
    split <;> rfl

@[simp] theorem calculate_withConfirming (s : Session) (b : Bool) :
    (s.withConfirming b).calculate = s.calculate.withConfirming b := by
  rw [calculate, calculate, line_withConfirming]
  cases Kind.ofLine s.line with
  | equation => exact record_withConfirming s _ b
  | withVariable => rfl
  | plain => exact record_withConfirming s _ b

@[simp] theorem submit_withConfirming (s : Session) (b : Bool) :
    (s.withConfirming b).submit = s.submit.withConfirming b := by
  rw [submit, submit, prompt_withConfirming]
  cases s.prompt with
  | none => rfl
  | some p => exact record_withConfirming { s with prompt := none } _ b

/-- An action that is not about the clearing of the history does the same whether the confirmation
is open or not, and leaves it so. -/
theorem execute_withConfirming (hrequest : a ≠ .requestClearHistory)
    (ha : a.area ≠ .confirmation) (s : Session) (b : Bool) :
    (s.withConfirming b).execute a = (s.execute a).withConfirming b := by
  by_cases hheld : s.HoldsBack a
  · rw [execute_of_holdsBack hheld, execute_of_holdsBack (s := s.withConfirming b) hheld]
  rw [execute_eq_perform hheld, execute_eq_perform (s := s.withConfirming b) hheld]
  cases a with
  | requestClearHistory => exact absurd rfl hrequest
  | confirmClearHistory | cancelClearHistory => exact absurd rfl ha
  | squareRoot | trigonometric f => exact record_withConfirming s _ b
  | calculate => exact calculate_withConfirming s b
  | submit => exact submit_withConfirming s b
  | _ => rfl

theorem executeAll_withConfirming
    (h : ∀ a ∈ as, a ≠ .requestClearHistory ∧ a.area ≠ .confirmation) (s : Session) (b : Bool) :
    (s.withConfirming b).executeAll as = (s.executeAll as).withConfirming b := by
  induction as generalizing s with
  | nil => rfl
  | cons a as ih =>
    rw [List.forall_mem_cons] at h
    simp [execute_withConfirming h.1.1 h.1.2, ih h.2]

theorem isConfirming_executeAll (h : ∀ a ∈ as, a ≠ .requestClearHistory ∧ a.area ≠ .confirmation)
    (s : Session) : (s.executeAll as).isConfirming = s.isConfirming := by
  simpa using congrArg isConfirming (executeAll_withConfirming h s s.isConfirming)

theorem isConfirming_execute (hrequest : a ≠ .requestClearHistory) (ha : a.area ≠ .confirmation)
    (s : Session) : (s.execute a).isConfirming = s.isConfirming := by
  simpa using congrArg isConfirming (execute_withConfirming hrequest ha s s.isConfirming)

/-! ## The history -/

/-- Every action but the confirmed clearing keeps the entries that there are. -/
theorem history_prefix_execute (ha : a ≠ .confirmClearHistory) (s : Session) :
    s.history <+: (s.execute a).history := by
  rcases history_execute s a with hsame | ⟨entry, hgrown⟩ | ⟨-, hclear, -⟩
  · rw [hsame]
  · rw [hgrown]
    exact List.prefix_append _ _
  · exact absurd hclear ha

theorem history_prefix_executeAll (h : .confirmClearHistory ∉ as) (s : Session) :
    s.history <+: (s.executeAll as).history := by
  refine executeAll_induction (s.history <+: ·.history) (List.prefix_refl _) fun t ht a ha ↦ ?_
  have hclear : a ≠ .confirmClearHistory := by
    rintro rfl
    exact h ha
  exact ht.trans (history_prefix_execute hclear t)

/-- There is something to clear while the confirmation is open. -/
def HasCauseToConfirm (s : Session) : Prop := s.isConfirming = true → s.history ≠ []

theorem HasCauseToConfirm.execute (hs : s.HasCauseToConfirm) (a : Action) :
    (s.execute a).HasCauseToConfirm := by
  by_cases hheld : s.HoldsBack a
  · rwa [execute_of_holdsBack hheld]
  by_cases harea : a.area = .confirmation
  · rw [execute_eq_perform hheld]
    cases a with
    | confirmClearHistory | cancelClearHistory => exact fun h ↦ absurd h Bool.false_ne_true
    | _ => cases harea
  by_cases hrequest : a = .requestClearHistory
  · rw [execute_eq_perform hheld, hrequest]
    intro hconfirming
    rcases Bool.or_eq_true_iff.mp hconfirming with hopen | hsome
    · exact hs hopen
    · rwa [Bool.not_eq_true', List.isEmpty_eq_false_iff] at hsome
  · intro hconfirming
    rw [isConfirming_execute hrequest harea] at hconfirming
    have hclear : a ≠ .confirmClearHistory := by
      rintro rfl
      exact harea rfl
    exact (history_prefix_execute hclear s).ne_nil (hs hconfirming)

theorem HasCauseToConfirm.executeAll (hs : s.HasCauseToConfirm) (as : List Action) :
    (s.executeAll as).HasCauseToConfirm :=
  executeAll_induction HasCauseToConfirm hs fun _ ht a _ ↦ ht.execute a

/-! ## The prompt -/

theorem prompt_execute_of_area_ne (ha : a.area ≠ .panel) (hs : s.prompt = none) :
    (s.execute a).prompt = none := by
  rw [execute_eq_perform (not_holdsBack_of_prompt hs)]
  cases a with
  | submit =>
    rw [perform_submit_of_not_started (Option.map_eq_none_iff.mpr hs)]
    exact hs
  | cancel => rfl
  | confirmClearHistory | cancelClearHistory | toggleTheme | chooseScale v => exact hs
  | _ => exact absurd rfl ha

theorem prompt_execute_of_isAnswer (ha : Window.isAnswer a = true) (s : Session) :
    (s.execute a).prompt = none := by
  have hpasses : ¬ s.HoldsBack a := by
    rintro ⟨-, hheld⟩
    cases a with
    | submit | cancel => cases hheld
    | _ => cases ha
  rw [execute_eq_perform hpasses]
  cases a with
  | cancel => rfl
  | submit =>
    rw [perform, submit]
    split
    · assumption
    · exact prompt_record _ _
  | _ => cases ha

theorem prompt_executeAll_of_area_ne (h : ∀ a ∈ as, a.area ≠ .panel) (hs : s.prompt = none) :
    (s.executeAll as).prompt = none :=
  executeAll_induction (·.prompt = none) hs fun _ ht a ha ↦ prompt_execute_of_area_ne (h a ha) ht

theorem prompt_executeAll_of_isAnswer (h : ∀ a ∈ as, a.area ≠ .panel)
    (hanswer : ∃ a ∈ as, Window.isAnswer a = true) (s : Session) :
    (s.executeAll as).prompt = none := by
  obtain ⟨a, hmem, ha⟩ := hanswer
  obtain ⟨before, after, rfl⟩ := List.append_of_mem hmem
  have hafter : ∀ b ∈ after, b.area ≠ .panel := fun b hb ↦
    h b (List.mem_append_right _ (List.mem_cons_of_mem a hb))
  rw [executeAll_append, executeAll_cons]
  exact prompt_executeAll_of_area_ne hafter (prompt_execute_of_isAnswer ha _)

/-- Away from the panels, a prompt is open in the end if it was and nothing has ended it. -/
theorem isSome_prompt_executeAll_iff (h : ∀ a ∈ as, a.area ≠ .panel) (s : Session) :
    (s.executeAll as).prompt.isSome = true ↔
      s.prompt.isSome = true ∧ ∀ a ∈ as, Window.isAnswer a = false := by
  constructor
  · intro hopen
    refine ⟨?_, fun a ha ↦ ?_⟩
    · by_contra hclosed
      rw [Option.not_isSome_iff_eq_none] at hclosed
      rw [prompt_executeAll_of_area_ne h hclosed] at hopen
      cases hopen
    · by_contra hanswer
      rw [Bool.not_eq_false] at hanswer
      rw [prompt_executeAll_of_isAnswer h ⟨a, ha, hanswer⟩] at hopen
      cases hopen
  · rintro ⟨hopen, hanswers⟩
    obtain ⟨p, hp⟩ := Option.isSome_iff_exists.mp hopen
    rw [(executeAll_of_not_isAnswer hp hanswers).1]
    rfl

end Session

end DeskCalculator
