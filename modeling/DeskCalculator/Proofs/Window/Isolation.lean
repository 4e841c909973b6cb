import DeskCalculator.Proofs.Session.Prompt

/-!
# What an open prompt or confirmation shields

A frame that begins with an open prompt and does not answer it changes nothing behind the prompt,
with one exception. The buttons of a confirmation stay enabled while a prompt is open, and a click
on them is carried out after the keys of the prompt: `Escape` closes the prompt, and the click in
the same frame is then no longer held back.

A prompt that a frame opens has an empty field, and the rest of the frame changes nothing behind it.
An open confirmation lets nothing through but its own buttons.
-/

namespace DeskCalculator

namespace Window

/-- The prompt is answered in the frame. -/
def Answers (w : Window) (f : Frame) : Prop :=
  w.clicked f = some .submit ∨ f.events.any (·.presses .enter) = true

/-- The frame presses `Escape` and clicks on a button of the confirmation. -/
def ClosesBoth (w : Window) (f : Frame) : Prop :=
  f.events.any (·.presses .escape) = true ∧ ∃ a, w.clicked f = some a ∧ a.area = .confirmation

variable {w : Window} {f : Frame} {a b : Action} {p : Prompt}

/-! ## The actions of a frame by its click -/

theorem isAnswer_of_area_ne (h : a.area ≠ .prompt) : isAnswer a = false := by
  simpa using h

theorem promptActions_of_prompt_eq_none (h : w.session.prompt = none) : w.promptActions f = [] := by
  rw [promptActions, h]
  rfl

theorem promptActions_of_not_answers (hprompt : w.session.prompt.isSome = true)
    (h : ¬ w.Answers f) :
    w.promptActions f =
      if w.clicked f = some .cancel ∨ f.events.any (·.presses .escape) = true then [.cancel]
      else [] := by
  have hsubmit : ¬ (decide (w.clicked f = some .submit)
      || f.events.any (·.presses .enter)) = true := by
    rwa [Bool.or_eq_true, decide_eq_true_iff]
  rw [promptActions, if_pos hprompt, if_neg hsubmit, List.nil_append]
  simp only [Bool.or_eq_true, decide_eq_true_iff]

theorem windowActions_of_confirmation (hclicked : w.clicked f = some a)
    (ha : a.area = .confirmation) : w.windowActions f = w.promptActions f ++ [a] := by
  have hconfirmation : isConfirmation a = true := by simpa using ha
  simp only [windowActions, hclicked, Option.toList_some, List.filter_singleton, hconfirmation,
    Bool.not_true, Bool.and_false, cond_false, cond_true, List.nil_append]

theorem windowActions_of_not_confirmation
    (h : ∀ a, w.clicked f = some a → a.area ≠ .confirmation) :
    w.windowActions f = (w.clicked f).toList.filter (!isAnswer ·) ++ w.promptActions f := by
  cases hclicked : w.clicked f with
  | none => simp only [windowActions, hclicked, Option.toList_none, List.filter_nil,
      List.append_nil]
  | some a =>
    have hconfirmation : isConfirmation a = false := by simpa using h a hclicked
    simp only [windowActions, hclicked, Option.toList_some, List.filter_singleton, hconfirmation,
      Bool.not_false, Bool.and_true, cond_false, List.append_nil]

theorem actions_of_isModal (h : w.isModal = true) : w.actions f = w.windowActions f := by
  rw [actions, globalActions, if_pos h, List.append_nil]

theorem area_eq_looks_of_clicked (hmodal : w.isModal = true) (hclicked : w.clicked f = some a)
    (hprompt : a.area ≠ .prompt) (hconfirmation : a.area ≠ .confirmation) : a.area = .looks := by
  have hoffers := offers_of_clicked hclicked
  cases harea : a.area with
  | looks => rfl
  | panel =>
    rw [harea, offers, hmodal] at hoffers
    cases hoffers
  | prompt => exact absurd harea hprompt
  | confirmation => exact absurd harea hconfirmation

/-- With a prompt or a confirmation open and no click on the confirmation, a frame acts on the
looks and on the prompt. -/
theorem area_of_mem_actions (hmodal : w.isModal = true)
    (h : ∀ a, w.clicked f = some a → a.area ≠ .confirmation) (hb : b ∈ w.actions f) :
    b.area = .looks ∨ b ∈ w.promptActions f := by
  rw [actions_of_isModal hmodal, windowActions_of_not_confirmation h, List.mem_append,
    List.mem_filter, Option.mem_toList] at hb
  refine hb.imp_left ?_
  rintro ⟨hclicked, hanswer⟩
  have harea : b.area ≠ .prompt := by simpa using hanswer
  exact area_eq_looks_of_clicked hmodal hclicked harea (h b hclicked)

theorem isAnswer_of_mem_actions (hprompt : w.session.prompt = none) (hb : b ∈ w.actions f) :
    isAnswer b = false := by
  rw [actions, windowActions, promptActions_of_prompt_eq_none hprompt, List.append_nil,
    List.mem_append, List.mem_append, List.mem_filter, List.mem_filter] at hb
  rcases hb with (⟨-, hpanels⟩ | ⟨-, hconfirmation⟩) | hkeys
  · exact (Bool.not_eq_true' _).mp (Bool.and_eq_true_iff.mp hpanels).1
  · have harea : b.area = .confirmation := by simpa using hconfirmation
    simp [harea]
  · rw [globalActions] at hkeys
    split at hkeys
    · cases hkeys
    · simp [area_of_mem_keyboardActions hkeys]

/-! ## Behind a prompt -/

@[simp] theorem background_typed (w : Window) (f : Frame) :
    (w.typed f).background = w.session.background := by
  rw [typed]
  split
  · rfl
  · rfl

@[simp] theorem isSome_prompt_typed (w : Window) (f : Frame) :
    (w.typed f).prompt.isSome = w.session.prompt.isSome := by
  rw [typed]
  split
  · rfl
  · exact Option.isSome_map

theorem typed_of_prompt_eq_none (h : w.session.prompt = none) : w.typed f = w.session := by
  rw [typed, h]

theorem isModal_of_prompt (h : w.session.prompt.isSome = true) : w.isModal = true := by
  simp [isModal, h]

theorem isModal_of_isConfirming (h : w.session.isConfirming = true) : w.isModal = true := by
  simp [isModal, h]

theorem prompt_of_not_isModal (h : w.isModal = false) : w.session.prompt = none :=
  Option.not_isSome_iff_eq_none.mp (Bool.eq_false_iff.mp (Bool.or_eq_false_iff.mp h).1)

theorem background_advance_of_not_confirmation (hmodal : w.isModal = true)
    (hclicked : ∀ a, w.clicked f = some a → a.area ≠ .confirmation)
    (hprompt : ∀ b ∈ w.promptActions f, b = .cancel) :
    (w.advance f).session.background = w.session.background := by
  rw [session_advance, ← background_typed w f]
  refine Session.background_executeAll (fun b hb s ↦ ?_) _
  rcases area_of_mem_actions hmodal hclicked hb with hlooks | hcancel
  · exact Session.background_execute_of_looks hlooks s
  · rw [hprompt b hcancel]
    exact Session.background_execute_cancel s

/-- A frame that begins with an open prompt and does not answer it leaves everything behind the
prompt as it is, unless it closes the confirmation as well. -/
theorem background_advance_of_not_closesBoth (hprompt : w.session.prompt.isSome = true)
    (hanswers : ¬ w.Answers f) (h : ¬ w.ClosesBoth f) :
    (w.advance f).session.background = w.session.background := by
  have hactions := promptActions_of_not_answers hprompt hanswers
  by_cases hconfirmation : ∃ a, w.clicked f = some a ∧ a.area = .confirmation
  · obtain ⟨a, hclicked, ha⟩ := hconfirmation
    have hescape : ¬ f.events.any (·.presses .escape) = true := fun hescape ↦
      h ⟨hescape, a, hclicked, ha⟩
    have hcancel : w.clicked f ≠ some .cancel := by
      rintro hcancel
      cases hclicked.symm.trans hcancel
      cases ha
    rw [if_neg (not_or.mpr ⟨hcancel, hescape⟩)] at hactions
    -- The prompt is still open when the click is carried out.
    obtain ⟨p, hp⟩ := Option.isSome_iff_exists.mp ((isSome_prompt_typed w f).trans hprompt)
    have hheld := Session.execute_of_not_isAnswer hp (a := a) (by simp [ha])
    rw [session_advance, actions_of_isModal (isModal_of_prompt hprompt),
      windowActions_of_confirmation hclicked ha, hactions, ← background_typed w f]
    exact hheld.2
  · refine background_advance_of_not_confirmation (isModal_of_prompt hprompt)
      (fun a hclicked ha ↦ hconfirmation ⟨a, hclicked, ha⟩) fun b hb ↦ ?_
    rw [hactions] at hb
    split at hb
    · exact List.mem_singleton.mp hb
    · cases hb

/-- `Escape` leaves the confirmation open to the click. -/
theorem closes_advance_of_closesBoth (hprompt : w.session.prompt.isSome = true)
    (hanswers : ¬ w.Answers f) (h : w.ClosesBoth f) :
    w.session.background.Closes (w.advance f).session.background := by
  obtain ⟨hescape, a, hclicked, ha⟩ := h
  have hactions := promptActions_of_not_answers hprompt hanswers
  rw [if_pos (.inr hescape)] at hactions
  have hclosed : ((w.typed f).execute .cancel).prompt = none := by simp
  have hcloses := Session.closes_execute_of_confirmation hclosed ha
  rw [Session.background_execute_cancel, background_typed] at hcloses
  rw [session_advance, actions_of_isModal (isModal_of_prompt hprompt),
    windowActions_of_confirmation hclicked ha, hactions]
  exact hcloses

/-- A confirmation without a prompt lets nothing through but its own buttons. -/
theorem background_advance_of_isConfirming (hconfirming : w.session.isConfirming = true)
    (hprompt : w.session.prompt = none) :
    (w.advance f).session.background = w.session.background ∨
      w.session.background.Closes (w.advance f).session.background := by
  have hmodal := isModal_of_isConfirming hconfirming
  by_cases hconfirmation : ∃ a, w.clicked f = some a ∧ a.area = .confirmation
  · obtain ⟨a, hclicked, ha⟩ := hconfirmation
    rw [session_advance, actions_of_isModal hmodal, windowActions_of_confirmation hclicked ha,
      promptActions_of_prompt_eq_none hprompt, typed_of_prompt_eq_none hprompt]
    exact .inr (Session.closes_execute_of_confirmation hprompt ha)
  · refine .inl (background_advance_of_not_confirmation hmodal
      (fun a hclicked ha ↦ hconfirmation ⟨a, hclicked, ha⟩) fun b hb ↦ ?_)
    rw [promptActions_of_prompt_eq_none hprompt] at hb
    cases hb

/-! ## A frame -/

theorem not_closesBoth_of_background (hprompt : w.session.prompt.isSome = true)
    (hanswers : ¬ w.Answers f) (h : (w.advance f).session.background = w.session.background) :
    ¬ w.ClosesBoth f := by
  intro hboth
  have hcloses := closes_advance_of_closesBoth hprompt hanswers hboth
  obtain ⟨-, a, hclicked, ha⟩ := hboth
  -- The confirmation was open when its button was clicked, and the click closes it.
  have hopen : w.session.background.isConfirming = true := by
    have hoffers := offers_of_clicked hclicked
    rwa [ha] at hoffers
  rw [← h, hcloses.isConfirming] at hopen
  cases hopen

theorem exists_opening_of_advance (hprompt : w.session.prompt = none)
    (hp : (w.advance f).session.prompt = some p) :
    p.answer = [] ∧ ∃ before a after, w.actions f = before ++ a :: after ∧
      (w.session.executeAll before).prompt = none ∧
      ((w.session.executeAll before).execute a).prompt = some p ∧
      (w.advance f).session.background =
        ((w.session.executeAll before).execute a).background := by
  rw [session_advance, typed_of_prompt_eq_none hprompt] at hp ⊢
  exact Session.exists_opening hprompt (fun b hb ↦ isAnswer_of_mem_actions hprompt hb) hp

/-- What a frame can change behind a prompt that it does not answer, behind a prompt that it opens,
and behind a confirmation. -/
theorem advance_isolation (w : Window) (f : Frame) :
    (w.session.prompt.isSome = true → ¬ w.Answers f →
      ((w.advance f).session.background = w.session.background ↔ ¬ w.ClosesBoth f) ∧
      (w.ClosesBoth f → w.session.background.Closes (w.advance f).session.background)) ∧
    (∀ p, w.session.prompt = none → (w.advance f).session.prompt = some p →
      p.answer = [] ∧ ∃ before a after, w.actions f = before ++ a :: after ∧
        (w.session.executeAll before).prompt = none ∧
        ((w.session.executeAll before).execute a).prompt = some p ∧
        (w.advance f).session.background =
          ((w.session.executeAll before).execute a).background) ∧
    (w.session.isConfirming = true → w.session.prompt = none →
      (w.advance f).session.background = w.session.background ∨
        w.session.background.Closes (w.advance f).session.background) := by
  refine ⟨?_, ?_, ?_⟩
  · intro hprompt hanswers
    refine ⟨?_, closes_advance_of_closesBoth hprompt hanswers⟩
    constructor
    · exact not_closesBoth_of_background hprompt hanswers
    · exact background_advance_of_not_closesBoth hprompt hanswers
  · intro p hprompt hp
    exact exists_opening_of_advance hprompt hp
  · intro hconfirming hprompt
    exact background_advance_of_isConfirming hconfirming hprompt

/-- A window with one calculation in its history. -/
def calculated : Window := advance {} { events := [.text ['1', '=']] }

/-- The clearing of the history waits to be confirmed, and a key behind the click has opened a
prompt all the same. -/
def bothOpen : Window :=
  calculated.advance { click := some ⟨"Tout effacer", 0⟩, events := [.text ['R']] }

/-- A click on the button that clears the history, with `Escape` pressed. -/
def escapingClick : Frame := { click := some ⟨"Effacer", 0⟩, events := [.key .escape true] }

/-- The history is lost behind a prompt that is not answered; a prompt takes nothing of the frame
that opens it; and a confirmation holds back the keys. -/
theorem background_bothOpen_escapingClick :
    (bothOpen.session.prompt.isSome = true ∧ ¬ bothOpen.Answers escapingClick ∧
      bothOpen.session.history ≠ [] ∧ (bothOpen.advance escapingClick).session.history = [] ∧
      (bothOpen.advance escapingClick).session.background ≠ bothOpen.session.background) ∧
    (∃ p, (calculated.advance { events := [.text ['R', '2', '=']] }).session.prompt = some p ∧
      p.answer = []) ∧
    (∃ w : Window, w.session.isConfirming = true ∧ w.session.prompt = none ∧
      ((w.advance { events := [.text ['R', '2', '=']] }).session.background =
          w.session.background ∨
        w.session.background.Closes
          (w.advance { events := [.text ['R', '2', '=']] }).session.background)) := by
  refine ⟨?_, ?_, ?_⟩
  · have hprompt : bothOpen.session.prompt.isSome = true := by decide +kernel
    have hanswers : ¬ bothOpen.Answers escapingClick := by
      rintro (hsubmit | henter)
      · exact absurd hsubmit (by decide +kernel)
      · exact absurd henter (by decide)
    have hboth : bothOpen.ClosesBoth escapingClick :=
      ⟨rfl, .confirmClearHistory, by decide +kernel, rfl⟩
    refine ⟨hprompt, hanswers, by decide +kernel, by decide +kernel, ?_⟩
    intro h
    exact ((advance_isolation _ _).1 hprompt hanswers).1.mp h hboth
  · have hopened : (calculated.advance { events := [.text ['R', '2', '=']] }).session.prompt =
        some { question := .degree } := by decide +kernel
    refine ⟨_, hopened, ?_⟩
    exact ((advance_isolation calculated _).2.1 _ (by decide +kernel) hopened).1
  · refine ⟨calculated.advance { click := some ⟨"Tout effacer", 0⟩ }, by decide +kernel,
      by decide +kernel, ?_⟩
    exact (advance_isolation _ _).2.2 (by decide +kernel) (by decide +kernel)

end Window

end DeskCalculator
