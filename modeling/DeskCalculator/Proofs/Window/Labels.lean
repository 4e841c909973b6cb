import DeskCalculator.Proofs.Window.Clicks

/-!
# Labels

A click names a button by its label and by the number of buttons before it with the same label. The
labels of the theme, of the history and of a prompt are their own; a size is labelled as a digit is,
and the panels come behind it.

So a click asks for the history to be cleared, confirms that, or answers a prompt, exactly if it is
on the first button with the label of that action.
-/

namespace DeskCalculator

namespace Window

variable {w : Window} {f : Frame} {a : Action}

/-! ## The labels of the parts -/

/-- The labels and actions of the functions and of the keypad. -/
def panels : List (String × Action) :=
  [("√", .squareRoot), ("n√", .nthRoot)]
    ++ TrigFunction.all.map (fun f ↦ (f.name, .trigonometric f))
    ++ [("x", .append 'x'), ("^", .append '^'), ("éq =", .append '=')] ++ keypad

theorem functionButtons_append_keypadButtons (w : Window) :
    w.functionButtons ++ w.keypadButtons = panels.map fun k ↦ w.panelButton k.1 k.2 := rfl

/-- The labels of the theme. -/
def themeLabels : List String := ["☀ Clair", "🌙 Sombre"]

/-- The labels of the buttons of an entry. -/
def entryLabels : List String := ["Démarche", "Copier"]

/-- The button has one of these labels, and an action that it leads to is one of these. -/
structure IsAmong (labels : List String) (p : Action → Prop) (b : Button) : Prop where
  label_mem : b.label ∈ labels
  action : ∀ a, b.effect = .act a → p a

theorem isAmong_act {labels : List String} {p : Action → Prop} {label : String} {isEnabled : Bool}
    (hlabel : label ∈ labels) (ha : p a) : IsAmong labels p ⟨label, isEnabled, .act a⟩ := by
  refine ⟨hlabel, fun b hb ↦ ?_⟩
  cases hb
  exact ha

theorem IsAmong.mono {labels labels' : List String} {p q : Action → Prop} {b : Button}
    (h : IsAmong labels p b) (hlabels : labels ⊆ labels') (hpq : ∀ a, p a → q a) :
    IsAmong labels' q b :=
  ⟨hlabels h.label_mem, fun a ha ↦ hpq a (h.action a ha)⟩

theorem isAmong_looksButtons : ∀ b ∈ w.looksButtons,
    IsAmong (themeLabels ++ Scale.all.map Scale.label) (·.area = .looks) b := by
  rw [looksButtons, List.forall_mem_cons, List.forall_mem_map]
  refine ⟨isAmong_act ?_ rfl, fun s hs ↦ isAmong_act ?_ rfl⟩
  · split <;> decide
  · exact List.mem_append_right _ (List.mem_map_of_mem hs)

theorem isAmong_entryButtons (e : Entry × Nat) :
    ∀ b ∈ w.entryButtons e, IsAmong entryLabels (fun _ ↦ False) b := by
  rw [entryButtons]
  split
  · exact List.forall_mem_nil _
  · refine List.forall_mem_cons.mpr ⟨⟨List.mem_cons_self, fun a ha ↦ by cases ha⟩, ?_⟩
    split
    · refine List.forall_mem_singleton.mpr ⟨?_, fun a ha ↦ by cases ha⟩
      exact List.mem_cons_of_mem _ List.mem_cons_self
    · exact List.forall_mem_nil _

theorem isAmong_historyButtons : ∀ b ∈ w.historyButtons,
    IsAmong ("Tout effacer" :: entryLabels) (· = .requestClearHistory) b := by
  refine List.forall_mem_cons.mpr ⟨isAmong_act List.mem_cons_self rfl, fun b hb ↦ ?_⟩
  obtain ⟨e, -, hb⟩ := List.mem_flatMap.mp hb
  exact (isAmong_entryButtons e b hb).mono (List.subset_cons_self _ _) fun _ h ↦ h.elim

theorem isAmong_panels : ∀ b ∈ w.functionButtons ++ w.keypadButtons,
    IsAmong (panels.map (·.1)) (fun a ↦ a.area = .panel ∧ a ≠ .requestClearHistory) b := by
  have hpanels : ∀ k ∈ panels, k.2.area = .panel ∧ k.2 ≠ .requestClearHistory := by decide +kernel
  rw [functionButtons_append_keypadButtons, List.forall_mem_map]
  exact fun k hk ↦ isAmong_act (List.mem_map_of_mem hk) (hpanels k hk)

theorem isAmong_promptButtons :
    ∀ b ∈ w.promptButtons, IsAmong ["OK", "Annuler"] (·.area = .prompt) b := by
  rw [promptButtons]
  split
  · exact List.forall_mem_cons.mpr ⟨isAmong_act (by decide) rfl,
      List.forall_mem_singleton.mpr (isAmong_act (by decide) rfl)⟩
  · exact List.forall_mem_nil _

theorem isAmong_confirmationButtons :
    ∀ b ∈ w.confirmationButtons, IsAmong ["Effacer", "Annuler"] (·.area = .confirmation) b := by
  rw [confirmationButtons]
  split
  · exact List.forall_mem_cons.mpr ⟨isAmong_act (by decide) rfl,
      List.forall_mem_singleton.mpr (isAmong_act (by decide) rfl)⟩
  · exact List.forall_mem_nil _

/-- The buttons of the looks and of the panels. -/
def baseButtons (w : Window) : List Button :=
  w.looksButtons ++ w.historyButtons ++ w.functionButtons ++ w.keypadButtons

/-- The labels of the looks and of the panels. -/
def baseLabels : List String :=
  themeLabels ++ Scale.all.map Scale.label ++ "Tout effacer" :: entryLabels ++ panels.map (·.1)

theorem isAmong_baseButtons : ∀ b ∈ w.baseButtons,
    IsAmong baseLabels (fun a ↦ a.area = .looks ∨ a.area = .panel) b := by
  rw [baseButtons, List.append_assoc (w.looksButtons ++ w.historyButtons), List.forall_mem_append,
    List.forall_mem_append]
  refine ⟨⟨fun b hb ↦ ?_, fun b hb ↦ ?_⟩, fun b hb ↦ ?_⟩
  · refine (isAmong_looksButtons b hb).mono ?_ fun a ↦ .inl
    exact List.subset_append_of_subset_left _ (List.subset_append_left _ _)
  · refine (isAmong_historyButtons b hb).mono ?_ fun a ha ↦ .inr (ha ▸ rfl)
    exact List.subset_append_of_subset_left _ (List.subset_append_right _ _)
  · exact (isAmong_panels b hb).mono (List.subset_append_right _ _) fun a ha ↦ .inr ha.1

/-! ## Clicks by their labels -/

theorem effect?_eq_some_iff {before after : List Button} {b : Button} {c : Click}
    (hbuttons : w.buttons = before ++ b :: after) (hlabel : ∀ b' ∈ before, b'.label ≠ b.label)
    (heffect : ∀ b' ∈ before ++ after, b'.effect ≠ b.effect) :
    w.effect? c = some b.effect ↔ b.isEnabled = true ∧ c = ⟨b.label, 0⟩ := by
  have hfilter : w.buttons.filter (·.label == b.label) =
      b :: after.filter (·.label == b.label) := by
    have hbefore : before.filter (·.label == b.label) = [] :=
      List.filter_eq_nil_iff.mpr fun b' hb' h ↦ hlabel b' hb' (beq_iff_eq.mp h)
    rw [hbuttons, List.filter_append, hbefore, List.nil_append,
      List.filter_cons, if_pos (beq_self_eq_true b.label)]
  constructor
  · intro h
    rw [effect?] at h
    cases hbutton : w.button? c.label c.n with
    | none =>
      rw [hbutton] at h
      cases h
    | some b' =>
      rw [hbutton] at h
      obtain ⟨henabled, hsame⟩ := Option.ite_none_right_eq_some.mp h
      obtain ⟨hmem, hname⟩ := List.mem_filter.mp (List.mem_of_getElem? hbutton)
      have hothers : b' ∉ before ++ after := fun hb' ↦ heffect b' hb' (Option.some.inj hsame)
      obtain rfl : b' = b := by
        rw [hbuttons, List.mem_append, List.mem_cons] at hmem
        rw [List.mem_append, not_or] at hothers
        exact (hmem.resolve_left hothers.1).resolve_right hothers.2
      obtain ⟨label, n⟩ := c
      obtain rfl : b'.label = label := beq_iff_eq.mp hname
      -- behind the first place the filter has none but other buttons
      cases n with
      | zero => exact ⟨henabled, rfl⟩
      | succ n =>
        rw [button?, hfilter, List.getElem?_cons_succ] at hbutton
        refine absurd (List.mem_append_right _ ?_) hothers
        exact (List.mem_filter.mp (List.mem_of_getElem? hbutton)).1
  · rintro ⟨henabled, rfl⟩
    rw [effect?, button?, hfilter]
    exact if_pos henabled

theorem clicked_eq_some_iff :
    w.clicked f = some a ↔ ∃ c, f.click = some c ∧ w.effect? c = some (.act a) := by
  refine ⟨effect?_of_clicked, ?_⟩
  rintro ⟨c, hclick, heffect⟩
  rw [clicked, hclick, Option.bind_some, heffect]

/-- The click that carries out an action is on the first button with its label, if that button is
the only one for the action. -/
theorem clicked_eq_some_iff_of_split {before after : List Button} {label : String}
    {isEnabled : Bool} (hbuttons : w.buttons = before ++ ⟨label, isEnabled, .act a⟩ :: after)
    (hlabel : ∀ b ∈ before, b.label ≠ label) (hact : ∀ b ∈ before ++ after, b.effect ≠ .act a) :
    w.clicked f = some a ↔ isEnabled = true ∧ f.click = some ⟨label, 0⟩ := by
  rw [clicked_eq_some_iff]
  constructor
  · rintro ⟨c, hclick, heffect⟩
    obtain ⟨henabled, rfl⟩ := (effect?_eq_some_iff hbuttons hlabel hact).mp heffect
    exact ⟨henabled, hclick⟩
  · rintro ⟨henabled, hclick⟩
    exact ⟨_, hclick, (effect?_eq_some_iff hbuttons hlabel hact).mpr ⟨henabled, rfl⟩⟩

theorem IsAmong.label_ne {labels : List String} {p : Action → Prop} {b : Button} {label : String}
    (h : IsAmong labels p b) (hlabel : label ∉ labels) : b.label ≠ label := by
  rintro rfl
  exact hlabel h.label_mem

theorem IsAmong.effect_ne {labels : List String} {p : Action → Prop} {b : Button}
    (h : IsAmong labels p b) (ha : ¬ p a) : b.effect ≠ .act a :=
  fun heffect ↦ ha (h.action a heffect)

theorem clicked_eq_requestClearHistory_iff :
    w.clicked f = some .requestClearHistory ↔
      (w.isModal = false ∧ w.session.history ≠ []) ∧ f.click = some ⟨"Tout effacer", 0⟩ := by
  have hbuttons : w.buttons = w.looksButtons ++
      ⟨"Tout effacer", !w.isModal && !w.session.history.isEmpty, .act .requestClearHistory⟩ ::
        (w.entries.flatMap w.entryButtons ++ (w.functionButtons ++ w.keypadButtons)
          ++ w.promptButtons ++ w.confirmationButtons) := by
    simp only [buttons, historyButtons, List.append_assoc, List.cons_append]
  have hlooks : ∀ b ∈ w.looksButtons, b.label ≠ "Tout effacer" :=
    fun b hb ↦ (isAmong_looksButtons b hb).label_ne (by decide)
  have hothers : ∀ b ∈ w.looksButtons ++ (w.entries.flatMap w.entryButtons ++
      (w.functionButtons ++ w.keypadButtons) ++ w.promptButtons ++ w.confirmationButtons),
      b.effect ≠ .act .requestClearHistory := by
    simp only [List.forall_mem_append]
    refine ⟨fun b hb ↦ ?_, ⟨⟨fun b hb ↦ ?_, ?_⟩, ?_⟩, ?_⟩
    · exact (isAmong_looksButtons b hb).effect_ne (by decide)
    · obtain ⟨e, -, hb⟩ := List.mem_flatMap.mp hb
      exact (isAmong_entryButtons e b hb).effect_ne id
    · rw [← List.forall_mem_append]
      exact fun b hb ↦ (isAmong_panels b hb).effect_ne fun h ↦ h.2 rfl
    · exact fun b hb ↦ (isAmong_promptButtons b hb).effect_ne (by decide)
    · exact fun b hb ↦ (isAmong_confirmationButtons b hb).effect_ne (by decide)
  rw [clicked_eq_some_iff_of_split hbuttons hlooks hothers, Bool.and_eq_true, Bool.not_eq_true',
    Bool.not_eq_true', List.isEmpty_eq_false_iff]

theorem promptButtons_of_prompt (h : w.session.prompt.isSome = true) :
    w.promptButtons = [⟨"OK", true, .act .submit⟩, ⟨"Annuler", true, .act .cancel⟩] := by
  rw [promptButtons, if_pos h]

theorem label_ne_of_mem_baseButtons {b : Button} (hb : b ∈ w.baseButtons) :
    b.label ≠ "OK" ∧ b.label ≠ "Annuler" ∧ b.label ≠ "Effacer" := by
  have hlabels : "OK" ∉ baseLabels ∧ "Annuler" ∉ baseLabels ∧ "Effacer" ∉ baseLabels := by
    decide +kernel
  have hbase := isAmong_baseButtons b hb
  exact ⟨hbase.label_ne hlabels.1, hbase.label_ne hlabels.2.1, hbase.label_ne hlabels.2.2⟩

theorem effect_ne_of_mem_baseButtons {b : Button} (hb : b ∈ w.baseButtons)
    (ha : a.area = .prompt ∨ a.area = .confirmation) : b.effect ≠ .act a := by
  refine (isAmong_baseButtons b hb).effect_ne ?_
  rcases ha with ha | ha <;> rw [ha] <;> decide

/-- For a button that is shown, and enabled, when its area is offered, the click is on that label
then and else there is none. -/
theorem clicked_eq_some_iff_of_offers {label : String}
    (hsplit : w.offers a.area = true → ∃ before after,
      w.buttons = before ++ ⟨label, true, .act a⟩ :: after ∧ (∀ b ∈ before, b.label ≠ label) ∧
        ∀ b ∈ before ++ after, b.effect ≠ .act a) :
    w.clicked f = some a ↔ w.offers a.area = true ∧ f.click = some ⟨label, 0⟩ := by
  by_cases hoffers : w.offers a.area = true
  · obtain ⟨before, after, hbuttons, hlabel, hact⟩ := hsplit hoffers
    rw [clicked_eq_some_iff_of_split hbuttons hlabel hact, and_iff_right rfl, and_iff_right hoffers]
  · exact iff_of_false (fun h ↦ hoffers (offers_of_clicked h)) fun h ↦ hoffers h.1

theorem clicked_eq_submit_iff :
    w.clicked f = some .submit ↔ w.session.prompt.isSome = true ∧ f.click = some ⟨"OK", 0⟩ := by
  refine clicked_eq_some_iff_of_offers fun hprompt ↦ ⟨w.baseButtons,
    ⟨"Annuler", true, .act .cancel⟩ :: w.confirmationButtons, ?_,
    fun b hb ↦ (label_ne_of_mem_baseButtons hb).1, ?_⟩
  · simp only [buttons, promptButtons_of_prompt hprompt, baseButtons, List.append_assoc,
      List.cons_append, List.nil_append]
  · rw [List.forall_mem_append, List.forall_mem_cons]
    refine ⟨fun b hb ↦ effect_ne_of_mem_baseButtons hb (.inl rfl), ?_, fun b hb ↦ ?_⟩
    · exact mt Effect.act.inj (by decide)
    · exact (isAmong_confirmationButtons b hb).effect_ne (by decide)

theorem clicked_eq_cancel_iff :
    w.clicked f = some .cancel ↔
      w.session.prompt.isSome = true ∧ f.click = some ⟨"Annuler", 0⟩ := by
  refine clicked_eq_some_iff_of_offers fun hprompt ↦
    ⟨w.baseButtons ++ [⟨"OK", true, .act .submit⟩], w.confirmationButtons, ?_, ?_, ?_⟩
  · simp only [buttons, promptButtons_of_prompt hprompt, baseButtons, List.append_assoc,
      List.cons_append, List.nil_append]
  · rw [List.forall_mem_append, List.forall_mem_singleton]
    exact ⟨fun b hb ↦ (label_ne_of_mem_baseButtons hb).2.1, by decide⟩
  · rw [List.forall_mem_append, List.forall_mem_append, List.forall_mem_singleton]
    refine ⟨⟨fun b hb ↦ effect_ne_of_mem_baseButtons hb (.inl rfl), ?_⟩, fun b hb ↦ ?_⟩
    · exact mt Effect.act.inj (by decide)
    · exact (isAmong_confirmationButtons b hb).effect_ne (by decide)

theorem clicked_eq_confirmClearHistory_iff :
    w.clicked f = some .confirmClearHistory ↔
      w.session.isConfirming = true ∧ f.click = some ⟨"Effacer", 0⟩ := by
  refine clicked_eq_some_iff_of_offers fun hconfirming ↦ ⟨w.baseButtons ++ w.promptButtons,
    [⟨"Annuler", true, .act .cancelClearHistory⟩], ?_, ?_, ?_⟩
  · have hshown : w.confirmationButtons = [⟨"Effacer", true, .act .confirmClearHistory⟩,
        ⟨"Annuler", true, .act .cancelClearHistory⟩] := if_pos hconfirming
    rw [buttons, hshown, baseButtons]
  · rw [List.forall_mem_append]
    exact ⟨fun b hb ↦ (label_ne_of_mem_baseButtons hb).2.2,
      fun b hb ↦ (isAmong_promptButtons b hb).label_ne (by decide)⟩
  · rw [List.forall_mem_append, List.forall_mem_append, List.forall_mem_singleton]
    refine ⟨⟨fun b hb ↦ effect_ne_of_mem_baseButtons hb (.inr rfl), fun b hb ↦ ?_⟩, ?_⟩
    · exact (isAmong_promptButtons b hb).effect_ne (by decide)
    · exact mt Effect.act.inj (by decide)

end Window

end DeskCalculator
