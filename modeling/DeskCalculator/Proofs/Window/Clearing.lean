import DeskCalculator.Proofs.Window.BothOpen

/-!
# What clears the history

The history grows at its end, but for one click: that on the button which confirms that it is
cleared. A prompt holds that click back as long as it is open. So it takes all entries away if no
prompt was open when its frame began, or if the same frame ends the prompt; otherwise it takes none.
-/

namespace DeskCalculator

namespace Window

/-- The frame clears the history: it clicks on the button of the confirmation that does so, and no
prompt holds the click back. -/
structure Clears (w : Window) (f : Frame) : Prop where
  isConfirming : w.session.isConfirming = true
  click : f.click = some ⟨"Effacer", 0⟩
  prompt : w.session.prompt = none ∨ f.EndsPrompt

variable {w : Window} {f : Frame} {gs : List Frame}

/-! ## One frame -/

theorem Clears.clicked (h : w.Clears f) : w.clicked f = some .confirmClearHistory :=
  clicked_eq_confirmClearHistory_iff.mpr ⟨h.isConfirming, h.click⟩

@[simp] theorem history_typed (w : Window) (f : Frame) : (w.typed f).history = w.session.history :=
  congrArg Background.history (background_typed w f)

theorem history_advance_of_clears (h : w.Clears f) : (w.advance f).session.history = [] := by
  have hprompt : ((w.typed f).executeAll (w.promptActions f)).prompt = none := by
    rw [← Option.not_isSome_iff_eq_none, isSome_prompt_executeAll_promptActions_iff]
    rintro ⟨hopen, hends⟩
    rw [h.prompt.resolve_right hends] at hopen
    cases hopen
  rw [session_advance_of_confirmation h.clicked rfl,
    Session.execute_eq_perform (Session.not_holdsBack_of_prompt hprompt)]
  rfl

theorem history_prefix_advance_of_not_clicked
    (h : w.clicked f ≠ some .confirmClearHistory) :
    w.session.history <+: (w.advance f).session.history := by
  rw [← history_typed w f, session_advance]
  refine Session.history_prefix_executeAll (fun hmem ↦ ?_) _
  rcases mem_actions_iff.mp hmem with ⟨hclicked, -⟩ | hprompt | hkeys
  · exact h hclicked
  · cases area_of_mem_promptActions hprompt
  · cases area_of_mem_globalActions hkeys

theorem history_prefix_advance_of_not_clears (h : ¬ w.Clears f) :
    w.session.history <+: (w.advance f).session.history := by
  by_cases hclicked : w.clicked f = some .confirmClearHistory
  · obtain ⟨hconfirming, hclick⟩ := clicked_eq_confirmClearHistory_iff.mp hclicked
    have hprompt : w.session.prompt.isSome = true :=
      Option.isSome_iff_ne_none.mpr fun hnone ↦ h ⟨hconfirming, hclick, .inl hnone⟩
    have hends : ¬ f.EndsPrompt := fun hends ↦ h ⟨hconfirming, hclick, .inr hends⟩
    have hsame : (w.advance f).session.history = w.session.history :=
      congrArg Background.history (background_advance_of_not_endsPrompt hprompt hends)
    rw [hsame]
  · exact history_prefix_advance_of_not_clicked hclicked

/-- With something to clear whenever the confirmation is open, entries are lost exactly in the
frames that clear the history. -/
theorem history_prefix_advance_iff (hw : w.session.HasCauseToConfirm) :
    w.session.history <+: (w.advance f).session.history ↔ ¬ w.Clears f := by
  refine ⟨fun hprefix hclears ↦ ?_, history_prefix_advance_of_not_clears⟩
  rw [history_advance_of_clears hclears, List.prefix_nil] at hprefix
  exact hw hclears.isConfirming hprefix

/-! ## Runs -/

theorem hasCauseToConfirm_advance (hw : w.session.HasCauseToConfirm) :
    (w.advance f).session.HasCauseToConfirm := by
  have htyped : (w.typed f).HasCauseToConfirm := by
    simpa [Session.HasCauseToConfirm] using hw
  rw [session_advance]
  exact htyped.executeAll (w.actions f)

theorem hasCauseToConfirm_run (hw : w.session.HasCauseToConfirm) (fs : List Frame) :
    (w.run fs).session.HasCauseToConfirm := by
  induction fs generalizing w with
  | nil => exact hw
  | cons f fs ih => exact ih (hasCauseToConfirm_advance hw)

theorem history_prefix_run
    (h : ∀ before f after, gs = before ++ f :: after → ¬ (w.run before).Clears f) :
    w.session.history <+: (w.run gs).session.history := by
  induction gs generalizing w with
  | nil => exact List.prefix_refl _
  | cons g gs ih =>
    refine (history_prefix_advance_of_not_clears (h [] g gs rfl)).trans (ih ?_)
    rintro before f after rfl
    exact h (g :: before) f after rfl

/-- In a run of a new application, a frame takes entries out of the history exactly if it clears it,
and then it takes them all; between such frames the history only grows at its end. -/
theorem history_run_start (stored : Option (List Char)) (fs gs : List Frame) :
    (∀ f, (((start stored).run fs).session.history <+:
        ((start stored).run (fs ++ [f])).session.history ↔ ¬ ((start stored).run fs).Clears f) ∧
      (((start stored).run fs).Clears f →
        ((start stored).run (fs ++ [f])).session.history = [])) ∧
    ((∀ before f after, gs = before ++ f :: after →
        ¬ ((start stored).run (fs ++ before)).Clears f) →
      ((start stored).run fs).session.history <+:
        ((start stored).run (fs ++ gs)).session.history) := by
  have hstart : (start stored).session.HasCauseToConfirm := fun h ↦
    absurd h Bool.false_ne_true
  refine ⟨fun f ↦ ?_, fun h ↦ ?_⟩
  · rw [run_concat]
    exact ⟨history_prefix_advance_iff (hasCauseToConfirm_run hstart fs), history_advance_of_clears⟩
  · rw [run_append]
    refine history_prefix_run fun before f after hsplit ↦ ?_
    rw [← run_append]
    exact h before f after hsplit

/-- `Escape` ends a prompt in front of the confirmation, and the click of the same frame clears the
history. -/
theorem history_openingBoth_escapingClick :
    ((start none).run openingBoth).Clears escapingClick ∧
      ((start none).run openingBoth).session.prompt.isSome = true ∧
      ((start none).run openingBoth).session.history ≠ [] ∧
      ((start none).run (openingBoth ++ [escapingClick])).session.history = [] := by
  have hclears : ((start none).run openingBoth).Clears escapingClick :=
    ⟨by decide +kernel, rfl, .inr (by decide)⟩
  refine ⟨hclears, by decide +kernel, by decide +kernel, ?_⟩
  exact ((history_run_start none openingBoth []).1 escapingClick).2 hclears

end Window

end DeskCalculator
