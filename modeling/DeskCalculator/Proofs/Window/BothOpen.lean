import DeskCalculator.Proofs.Session.Confirmation
import DeskCalculator.Proofs.Session.Preview
import DeskCalculator.Proofs.Window.Isolation
import DeskCalculator.Proofs.Window.Labels

/-!
# A prompt and a confirmation at once

Whether the keys of a frame are taken is decided when the frame begins, and its click is carried out
before them. So a click that asks for the history to be cleared does not stop a key of the same
frame from opening a prompt behind the confirmation. There is no other way to a prompt and a
confirmation at once, and they stay until the prompt is ended.

Then the buttons of both are enabled. Those of the prompt are heard; those of the confirmation are
held back by the prompt, unless the same frame has ended it before.
-/

namespace DeskCalculator

/-- The frame presses a key that ends a prompt, or clicks on such a button. -/
def Frame.EndsPrompt (f : Frame) : Prop :=
  f.events.any (·.presses .enter) = true ∨ f.events.any (·.presses .escape) = true ∨
    f.click = some ⟨"OK", 0⟩ ∨ f.click = some ⟨"Annuler", 0⟩

instance (f : Frame) : Decidable f.EndsPrompt := inferInstanceAs (Decidable (_ ∨ _ ∨ _ ∨ _))

namespace Window

/-- A prompt and a confirmation are open. -/
def IsBothOpen (w : Window) : Prop :=
  w.session.prompt.isSome = true ∧ w.session.isConfirming = true

/-- The frame clicks on the button that asks for the history to be cleared, and its keys open a
prompt. -/
structure OpensBoth (w : Window) (f : Frame) : Prop where
  isModal : w.isModal = false
  history_ne_nil : w.session.history ≠ []
  click : f.click = some ⟨"Tout effacer", 0⟩
  keys : (w.session.executeAll (keyboardActions f.events)).prompt.isSome = true

/-! ## Runs -/

/-- The window of a new application, with the preferences that are stored. -/
def start (stored : Option (List Char)) : Window := { session := Session.start stored }

/-- The window after frames in order. -/
def run (w : Window) (fs : List Frame) : Window := fs.foldl advance w

variable {w : Window} {f : Frame} {fs : List Frame} {a : Action}

@[simp] theorem run_append (w : Window) (fs gs : List Frame) : w.run (fs ++ gs) = (w.run fs).run gs :=
  List.foldl_append ..

theorem run_concat (w : Window) (fs : List Frame) (f : Frame) :
    w.run (fs ++ [f]) = (w.run fs).advance f :=
  run_append w fs [f]

/-! ## The actions of a frame -/

theorem ne_requestClearHistory_of_mem_keyboardActions {es : List Event}
    (h : a ∈ keyboardActions es) : a ≠ .requestClearHistory ∧ a.area ≠ .confirmation := by
  refine ⟨?_, by simp [area_of_mem_keyboardActions h]⟩
  rintro rfl
  obtain ⟨e, -, he⟩ := List.mem_flatMap.mp h
  match e with
  | .text s =>
    obtain ⟨c, -, hc⟩ := List.mem_filterMap.mp he
    rw [Action.ofChar?] at hc
    split_ifs at hc
    all_goals cases hc
  | .key k true =>
    have hk : Action.ofKey? k = some .requestClearHistory := Option.mem_toList.mp he
    cases k with
    | other | enter | backspace | escape => cases hk
  | .key k false | .other => cases he

theorem mem_actions_iff :
    a ∈ w.actions f ↔ (w.clicked f = some a ∧ isAnswer a = false) ∨ a ∈ w.promptActions f ∨
      a ∈ w.globalActions f := by
  have hclick : (w.clicked f = some a ∧ (!isAnswer a && !isConfirmation a) = true ∨
      w.clicked f = some a ∧ isConfirmation a = true) ↔
      w.clicked f = some a ∧ isAnswer a = false := by
    rw [← and_or_left]
    cases harea : a.area <;> simp [harea]
  rw [actions, windowActions, List.mem_append, List.mem_append, List.mem_append, List.mem_filter,
    List.mem_filter, Option.mem_toList, ← hclick]
  tauto

theorem area_of_mem_promptActions (h : a ∈ w.promptActions f) : a.area = .prompt := by
  rw [promptActions] at h
  split at h
  · rcases List.mem_append.mp h with h | h
    all_goals
      split at h
      · rw [List.mem_singleton.mp h]
        rfl
      · cases h
  · cases h

theorem mem_keyboardActions_of_mem_globalActions (h : a ∈ w.globalActions f) :
    a ∈ keyboardActions f.events := by
  rw [globalActions] at h
  split at h
  · cases h
  · exact h

theorem area_of_mem_globalActions (h : a ∈ w.globalActions f) : a.area = .panel :=
  area_of_mem_keyboardActions (mem_keyboardActions_of_mem_globalActions h)

theorem area_ne_panel_of_mem_actions (hmodal : w.isModal = true) (h : a ∈ w.actions f) :
    a.area ≠ .panel := by
  intro harea
  rcases mem_actions_iff.mp h with ⟨hclicked, -⟩ | hprompt | hkeys
  · have hoffers := offers_of_clicked hclicked
    rw [harea, offers, hmodal] at hoffers
    cases hoffers
  · rw [area_of_mem_promptActions hprompt] at harea
    cases harea
  · rw [globalActions, if_pos hmodal] at hkeys
    cases hkeys

theorem promptActions_eq_nil_iff (hprompt : w.session.prompt.isSome = true) :
    w.promptActions f = [] ↔ ¬ f.EndsPrompt := by
  rw [promptActions, if_pos hprompt, List.append_eq_nil_iff, Frame.EndsPrompt]
  simp only [clicked_eq_submit_iff, clicked_eq_cancel_iff, hprompt, true_and, Bool.or_eq_true,
    decide_eq_true_iff, ite_eq_right_iff, List.cons_ne_self, imp_false]
  tauto

/-! ## The prompt -/

theorem forall_isAnswer_promptActions_iff (hprompt : w.session.prompt.isSome = true) :
    (∀ a ∈ w.promptActions f, isAnswer a = false) ↔ ¬ f.EndsPrompt := by
  rw [← promptActions_eq_nil_iff hprompt, List.eq_nil_iff_forall_not_mem]
  refine forall_congr' fun a ↦ ⟨fun h hmem ↦ ?_, fun h hmem ↦ absurd hmem h⟩
  have hfalse := h hmem
  simp [area_of_mem_promptActions hmem] at hfalse

theorem isSome_prompt_executeAll_promptActions_iff :
    ((w.typed f).executeAll (w.promptActions f)).prompt.isSome = true ↔
      w.session.prompt.isSome = true ∧ ¬ f.EndsPrompt := by
  have hareas : ∀ a ∈ w.promptActions f, a.area ≠ .panel := fun a ha ↦ by
    simp [area_of_mem_promptActions ha]
  rw [Session.isSome_prompt_executeAll_iff hareas, isSome_prompt_typed]
  exact and_congr_right forall_isAnswer_promptActions_iff

/-- A frame opens no prompt where one or a confirmation is open. -/
theorem isSome_prompt_advance_iff (hmodal : w.isModal = true) :
    (w.advance f).session.prompt.isSome = true ↔
      w.session.prompt.isSome = true ∧ ¬ f.EndsPrompt := by
  rw [session_advance, Session.isSome_prompt_executeAll_iff
    (fun a ↦ area_ne_panel_of_mem_actions hmodal), isSome_prompt_typed]
  refine and_congr_right fun hprompt ↦ ?_
  rw [← forall_isAnswer_promptActions_iff hprompt]
  refine ⟨fun h a ha ↦ h a (mem_actions_iff.mpr (.inr (.inl ha))), fun h a ha ↦ ?_⟩
  rcases mem_actions_iff.mp ha with ⟨-, hanswer⟩ | hprompted | hkeys
  · exact hanswer
  · exact h a hprompted
  · simp [area_of_mem_globalActions hkeys]

/-! ## The confirmation -/

@[simp] theorem isConfirming_typed (w : Window) (f : Frame) :
    (w.typed f).isConfirming = w.session.isConfirming :=
  congrArg Background.isConfirming (background_typed w f)

theorem isConfirming_advance_of_not_clicked (hrequest : w.clicked f ≠ some .requestClearHistory)
    (hclicked : ∀ a, w.clicked f = some a → a.area ≠ .confirmation) :
    (w.advance f).session.isConfirming = w.session.isConfirming := by
  rw [session_advance, Session.isConfirming_executeAll, isConfirming_typed]
  intro a ha
  rcases mem_actions_iff.mp ha with ⟨hclick, -⟩ | hprompt | hkeys
  · refine ⟨?_, hclicked a hclick⟩
    rintro rfl
    exact hrequest hclick
  · have harea := area_of_mem_promptActions hprompt
    refine ⟨?_, by simp [harea]⟩
    rintro rfl
    cases harea
  · exact ne_requestClearHistory_of_mem_keyboardActions
      (mem_keyboardActions_of_mem_globalActions hkeys)

theorem session_advance_of_request (h : w.clicked f = some .requestClearHistory) :
    (w.advance f).session =
      (w.session.executeAll (keyboardActions f.events)).withConfirming true := by
  obtain ⟨⟨hmodal, hhistory⟩, -⟩ := clicked_eq_requestClearHistory_iff.mp h
  have hprompt := prompt_of_not_isModal hmodal
  have hactions : w.actions f = .requestClearHistory :: keyboardActions f.events := by
    rw [actions, windowActions, promptActions_of_prompt_eq_none hprompt, h, globalActions, hmodal]
    rfl
  have hasked : w.session.execute .requestClearHistory = w.session.withConfirming true := by
    rw [Session.execute_eq_perform (Session.not_holdsBack_of_prompt hprompt), Session.perform,
      List.isEmpty_eq_false_iff.mpr hhistory, Bool.not_false, Bool.or_true]
    rfl
  rw [session_advance, typed_of_prompt_eq_none hprompt, hactions, Session.executeAll_cons, hasked,
    Session.executeAll_withConfirming fun a ↦ ne_requestClearHistory_of_mem_keyboardActions]

theorem background_advance_of_not_endsPrompt (hprompt : w.session.prompt.isSome = true)
    (hends : ¬ f.EndsPrompt) : (w.advance f).session.background = w.session.background := by
  have hanswers : ¬ w.Answers f := by
    rintro (hsubmit | henter)
    · exact hends (.inr (.inr (.inl (clicked_eq_submit_iff.mp hsubmit).2)))
    · exact hends (.inl henter)
  have hboth : ¬ w.ClosesBoth f := fun h ↦ hends (.inr (.inl h.1))
  exact background_advance_of_not_closesBoth hprompt hanswers hboth

theorem isConfirming_advance_of_not_endsPrompt (hprompt : w.session.prompt.isSome = true)
    (hends : ¬ f.EndsPrompt) : (w.advance f).session.isConfirming = w.session.isConfirming :=
  congrArg Background.isConfirming (background_advance_of_not_endsPrompt hprompt hends)

theorem isConfirming_of_clicked (hclicked : w.clicked f = some a) (ha : a.area = .confirmation) :
    w.session.isConfirming = true := by
  have hoffers := offers_of_clicked hclicked
  rwa [ha] at hoffers

theorem session_advance_of_confirmation (hclicked : w.clicked f = some a)
    (ha : a.area = .confirmation) :
    (w.advance f).session = ((w.typed f).executeAll (w.promptActions f)).execute a := by
  have hmodal := isModal_of_isConfirming (isConfirming_of_clicked hclicked ha)
  rw [session_advance, actions_of_isModal hmodal, windowActions_of_confirmation hclicked ha,
    Session.executeAll_append]
  rfl

/-- A click on a button of the confirmation is ignored if a prompt stays open. -/
theorem isConfirming_advance_iff (hclicked : w.clicked f = some a) (ha : a.area = .confirmation) :
    (w.advance f).session.isConfirming = true ↔ w.IsBothOpen ∧ ¬ f.EndsPrompt := by
  have hconfirming := isConfirming_of_clicked hclicked ha
  constructor
  · intro hstays
    by_contra hended
    have hprompt : ((w.typed f).executeAll (w.promptActions f)).prompt = none := by
      rw [← Option.not_isSome_iff_eq_none, isSome_prompt_executeAll_promptActions_iff]
      exact fun h ↦ hended ⟨⟨h.1, hconfirming⟩, h.2⟩
    have hcloses := Session.closes_execute_of_confirmation hprompt ha
    rw [← session_advance_of_confirmation hclicked ha] at hcloses
    cases hstays.symm.trans hcloses.isConfirming
  · rintro ⟨hboth, hends⟩
    rw [isConfirming_advance_of_not_endsPrompt hboth.1 hends, hconfirming]

/-! ## Both at once -/

/-- A frame leaves both open if they were and it does not end the prompt, or if it opens both. -/
theorem isBothOpen_advance_iff :
    (w.advance f).IsBothOpen ↔ (w.IsBothOpen ∧ ¬ f.EndsPrompt) ∨ w.OpensBoth f := by
  cases hmodal : w.isModal with
  | true =>
    have hopens : ¬ w.OpensBoth f := fun h ↦ Bool.false_ne_true (h.isModal.symm.trans hmodal)
    rw [or_iff_left hopens, IsBothOpen, isSome_prompt_advance_iff hmodal, IsBothOpen]
    constructor
    · rintro ⟨⟨hprompt, hends⟩, hconfirming⟩
      rw [isConfirming_advance_of_not_endsPrompt hprompt hends] at hconfirming
      exact ⟨⟨hprompt, hconfirming⟩, hends⟩
    · rintro ⟨⟨hprompt, hconfirming⟩, hends⟩
      rw [isConfirming_advance_of_not_endsPrompt hprompt hends]
      exact ⟨⟨hprompt, hends⟩, hconfirming⟩
  | false =>
    have hclosed : w.session.isConfirming = false := (Bool.or_eq_false_iff.mp hmodal).2
    have hboth : ¬ w.IsBothOpen := fun h ↦ Bool.false_ne_true (hclosed.symm.trans h.2)
    rw [or_iff_right fun h ↦ hboth h.1]
    by_cases hrequest : w.clicked f = some .requestClearHistory
    · obtain ⟨⟨-, hhistory⟩, hclick⟩ := clicked_eq_requestClearHistory_iff.mp hrequest
      rw [IsBothOpen, session_advance_of_request hrequest]
      exact ⟨fun h ↦ ⟨hmodal, hhistory, hclick, h.1⟩, fun h ↦ ⟨h.keys, rfl⟩⟩
    · have hclicked : ∀ a, w.clicked f = some a → a.area ≠ .confirmation := fun a ha harea ↦
        Bool.false_ne_true (hclosed.symm.trans (isConfirming_of_clicked ha harea))
      have hstays : (w.advance f).session.isConfirming = false :=
        (isConfirming_advance_of_not_clicked hrequest hclicked).trans hclosed
      refine iff_of_false (fun h ↦ Bool.false_ne_true (hstays.symm.trans h.2)) fun h ↦ hrequest ?_
      exact clicked_eq_requestClearHistory_iff.mpr ⟨⟨h.isModal, h.history_ne_nil⟩, h.click⟩

/-- Both are open after a run if one of its frames has opened both and no later one has ended the
prompt. -/
theorem isBothOpen_run_iff (hw : ¬ w.IsBothOpen) :
    (w.run fs).IsBothOpen ↔ ∃ before f after, fs = before ++ f :: after ∧
      (w.run before).OpensBoth f ∧ ∀ g ∈ after, ¬ g.EndsPrompt := by
  induction fs using List.reverseRecOn with
  | nil =>
    refine iff_of_false hw ?_
    rintro ⟨before, f, after, hsplit, -⟩
    exact List.append_ne_nil_of_right_ne_nil before (List.cons_ne_nil f after) hsplit.symm
  | append_singleton fs f ih =>
    rw [run_concat, isBothOpen_advance_iff, ih]
    constructor
    · rintro (⟨⟨before, g, after, rfl, hopens, hafter⟩, hends⟩ | hopens)
      · refine ⟨before, g, after ++ [f], by rw [List.append_assoc, List.cons_append], hopens, ?_⟩
        exact List.forall_mem_append.mpr ⟨hafter, List.forall_mem_singleton.mpr hends⟩
      · exact ⟨fs, f, [], rfl, hopens, List.forall_mem_nil _⟩
    · rintro ⟨before, g, after, hsplit, hopens, hafter⟩
      -- the frame that opens both is the last one, or it was there before
      rcases List.eq_nil_or_concat' after with rfl | ⟨after, h, rfl⟩
      · obtain ⟨rfl, hlast⟩ := List.append_inj' hsplit rfl
        cases hlast
        exact .inr hopens
      · rw [← List.cons_append, ← List.append_assoc] at hsplit
        obtain ⟨rfl, hlast⟩ := List.append_inj' hsplit rfl
        cases hlast
        rw [List.forall_mem_append, List.forall_mem_singleton] at hafter
        exact .inl ⟨⟨before, g, after, rfl, hopens, hafter.1⟩, hafter.2⟩

theorem prompt_advance_of_clicked (hclicked : w.clicked f = some a) (ha : a.area = .prompt) :
    (w.advance f).session.prompt = none := by
  have hopen : w.session.prompt.isSome = true := by
    have hoffers := offers_of_clicked hclicked
    rwa [ha] at hoffers
  have hends : f.EndsPrompt := by
    cases a with
    | submit => exact .inr (.inr (.inl (clicked_eq_submit_iff.mp hclicked).2))
    | cancel => exact .inr (.inr (.inr (clicked_eq_cancel_iff.mp hclicked).2))
    | _ => cases ha
  rw [← Option.not_isSome_iff_eq_none, isSome_prompt_advance_iff (isModal_of_prompt hopen)]
  exact fun h ↦ h.2 hends

theorem not_isBothOpen_start (stored : Option (List Char)) : ¬ (start stored).IsBothOpen :=
  fun h ↦ Bool.false_ne_true h.2

/-- When a run leaves a prompt and a confirmation open at once, and which of their buttons are then
ignored. -/
theorem isBothOpen_run_start (stored : Option (List Char)) (fs : List Frame) :
    (((start stored).run fs).IsBothOpen ↔ ∃ before f after, fs = before ++ f :: after ∧
      ((start stored).run before).OpensBoth f ∧ ∀ g ∈ after, ¬ g.EndsPrompt) ∧
    ∀ f a, ((start stored).run fs).clicked f = some a →
      (a.area = .prompt → (((start stored).run fs).advance f).session.prompt = none) ∧
      (a.area = .confirmation → ((((start stored).run fs).advance f).session.isConfirming = true ↔
        ((start stored).run fs).IsBothOpen ∧ ¬ f.EndsPrompt)) := by
  refine ⟨isBothOpen_run_iff (not_isBothOpen_start stored), fun f a hclicked ↦ ⟨?_, ?_⟩⟩
  · exact prompt_advance_of_clicked hclicked
  · exact isConfirming_advance_iff hclicked

/-- A calculation, and then a click on the button that asks for the history to be cleared with the
key that asks for the degree of a root. -/
def openingBoth : List Frame :=
  [{ events := [.text ['1', '=']] },
    { click := some ⟨"Tout effacer", 0⟩, events := [.text ['R']] }]

/-- Both are open then, and the click that confirms the clearing is ignored. -/
theorem isBothOpen_openingBoth :
    ((start none).run openingBoth).IsBothOpen ∧
      ((start none).run openingBoth).clicked { click := some ⟨"Effacer", 0⟩ } =
        some .confirmClearHistory ∧
      (((start none).run openingBoth).advance
        { click := some ⟨"Effacer", 0⟩ }).session.isConfirming = true := by
  have hopens : ((start none).run [{ events := [.text ['1', '=']] }]).OpensBoth
      { click := some ⟨"Tout effacer", 0⟩, events := [.text ['R']] } :=
    ⟨by decide +kernel, by decide +kernel, rfl, by decide +kernel⟩
  have hboth := (isBothOpen_run_start none openingBoth).1.mpr
    ⟨_, _, [], rfl, hopens, List.forall_mem_nil _⟩
  have hclicked : ((start none).run openingBoth).clicked { click := some ⟨"Effacer", 0⟩ } =
      some .confirmClearHistory := by decide +kernel
  refine ⟨hboth, hclicked, ?_⟩
  exact (((isBothOpen_run_start none openingBoth).2 _ _ hclicked).2 rfl).mpr ⟨hboth, by decide⟩

end Window

end DeskCalculator
