import DeskCalculator.Proofs.Session.Effect
import DeskCalculator.Proofs.Window.Clicks

/-!
# Open prompts

An open prompt shields what lies behind it: until it is answered or closed, actions change nothing
but the preferences. When actions in a row open a prompt, all that they do is done by the time it
opens, unless one of them answers or closes it.
-/

namespace DeskCalculator

/-- What lies behind an open prompt. -/
structure Background where
  line : List Char
  preview : List Char
  history : History
  notice : Option String
  isConfirming : Bool
  deriving DecidableEq

/-- The confirmation is closed, and the history stays or is cleared. -/
inductive Background.Closes (b : Background) : Background → Prop
  | keeping : b.Closes { b with isConfirming := false }
  | clearing : b.Closes { b with history := [], isConfirming := false }

theorem Background.Closes.isConfirming {b b' : Background} (h : b.Closes b') :
    b'.isConfirming = false := by
  cases h <;> rfl

namespace Session

/-- What lies behind the prompt of a session. -/
def background (s : Session) : Background :=
  ⟨s.line, s.preview, s.history, s.notice, s.isConfirming⟩

variable {s : Session} {a : Action} {as : List Action} {p : Prompt}

/-! ## One action -/

theorem background_execute_of_looks (ha : a.area = .looks) (s : Session) :
    (s.execute a).background = s.background := by
  have hpasses : ¬ s.HoldsBack a := by
    rintro ⟨-, hheld⟩
    cases a with
    | toggleTheme | chooseScale v => cases hheld
    | _ => cases ha
  rw [execute_eq_perform hpasses]
  cases a with
  | toggleTheme | chooseScale v => rfl
  | _ => cases ha

@[simp] theorem execute_cancel (s : Session) : s.execute .cancel = { s with prompt := none } :=
  execute_eq_perform fun h ↦ absurd h.2 nofun

theorem background_execute_cancel (s : Session) :
    (s.execute .cancel).background = s.background := by
  simp [background]

theorem closes_execute_of_confirmation (hs : s.prompt = none) (ha : a.area = .confirmation) :
    s.background.Closes (s.execute a).background := by
  rw [execute_eq_perform (not_holdsBack_of_prompt hs)]
  cases a with
  | confirmClearHistory => exact .clearing
  | cancelClearHistory => exact .keeping
  | _ => cases ha

/-- Behind an open prompt nothing happens until it is answered or closed. -/
theorem execute_of_not_isAnswer (hs : s.prompt = some p) (ha : Window.isAnswer a = false) :
    (s.execute a).prompt = some p ∧ (s.execute a).background = s.background := by
  by_cases hheld : s.HoldsBack a
  · rw [execute_of_holdsBack hheld]
    exact ⟨hs, rfl⟩
  · rw [execute_eq_perform hheld]
    cases a with
    | toggleTheme | chooseScale v => exact ⟨hs, rfl⟩
    | submit | cancel => cases ha
    | _ =>
      rw [HoldsBack, hs] at hheld
      exact absurd ⟨rfl, rfl⟩ hheld

theorem answer_eq_nil_of_execute (hs : s.prompt = none) (h : (s.execute a).prompt = some p) :
    p.answer = [] := by
  cases hcalculation : s.calculation? a with
  | some r =>
    rw [execute_of_calculation? hcalculation, prompt_record] at h
    cases h
  | none =>
    have hunopened : ¬ s.prompt = some p := by
      rw [hs]
      exact nofun
    rcases execute_of_not_calculation? hcalculation with hsame | ⟨-, hstarted, hperform⟩
    · rw [hsame] at h
      exact absurd h hunopened
    · rw [hperform] at h
      cases a with
      | calculate =>
        rw [perform_calculate_of_not_started hstarted] at h
        cases h
        rfl
      | nthRoot =>
        cases h
        rfl
      | submit =>
        rw [perform_submit_of_not_started hstarted] at h
        exact absurd h hunopened
      | squareRoot | trigonometric f => cases hstarted
      | cancel => cases h
      | _ => exact absurd h hunopened

/-! ## Actions in a row -/

@[simp] theorem executeAll_nil (s : Session) : s.executeAll [] = s := rfl

@[simp] theorem executeAll_cons (s : Session) (a : Action) (as : List Action) :
    s.executeAll (a :: as) = (s.execute a).executeAll as := rfl

@[simp] theorem executeAll_append (s : Session) (as bs : List Action) :
    s.executeAll (as ++ bs) = (s.executeAll as).executeAll bs :=
  List.foldl_append ..

theorem background_executeAll
    (h : ∀ a ∈ as, ∀ s : Session, (s.execute a).background = s.background) (s : Session) :
    (s.executeAll as).background = s.background := by
  induction as generalizing s with
  | nil => rfl
  | cons a as ih =>
    rw [executeAll_cons, ih fun b hb ↦ h b (List.mem_cons_of_mem a hb)]
    exact h a List.mem_cons_self s

theorem executeAll_of_not_isAnswer (hs : s.prompt = some p)
    (h : ∀ a ∈ as, Window.isAnswer a = false) :
    (s.executeAll as).prompt = some p ∧ (s.executeAll as).background = s.background := by
  induction as generalizing s with
  | nil => exact ⟨hs, rfl⟩
  | cons a as ih =>
    obtain ⟨hprompt, hbackground⟩ := execute_of_not_isAnswer hs (h a List.mem_cons_self)
    rw [executeAll_cons, ← hbackground]
    exact ih hprompt fun b hb ↦ h b (List.mem_cons_of_mem a hb)

/-- Actions that open a prompt and do not answer it: one of them opens it, with nothing in its
field, and those behind it change nothing any more. -/
theorem exists_opening (hs : s.prompt = none) (h : ∀ a ∈ as, Window.isAnswer a = false)
    (hp : (s.executeAll as).prompt = some p) :
    p.answer = [] ∧ ∃ before a after, as = before ++ a :: after ∧
      (s.executeAll before).prompt = none ∧ ((s.executeAll before).execute a).prompt = some p ∧
      (s.executeAll as).background = ((s.executeAll before).execute a).background := by
  induction as generalizing s with
  | nil =>
    have hsame : s.prompt = some p := hp
    rw [hs] at hsame
    cases hsame
  | cons a as ih =>
    have has : ∀ b ∈ as, Window.isAnswer b = false := fun b hb ↦ h b (List.mem_cons_of_mem a hb)
    rw [executeAll_cons] at hp ⊢
    cases hnext : (s.execute a).prompt with
    | none =>
      obtain ⟨hanswer, before, b, after, rfl, hrest⟩ := ih hnext has hp
      exact ⟨hanswer, a :: before, b, after, rfl, hrest⟩
    | some q =>
      obtain ⟨hprompt, hbackground⟩ := executeAll_of_not_isAnswer hnext has
      have hpq : q = p := Option.some.inj (hprompt.symm.trans hp)
      rw [hpq] at hnext
      exact ⟨answer_eq_nil_of_execute hs hnext, [], a, as, rfl, hs, hnext, hbackground⟩

end Session

end DeskCalculator
