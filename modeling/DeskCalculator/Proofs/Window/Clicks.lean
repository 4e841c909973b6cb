import DeskCalculator.Window.Frame
import Mathlib.Tactic.SplitIfs

/-!
# Clicks and keys

Every button belongs to an area of the window, and it is enabled only when its area is: the panels
while nothing is open before them, a prompt and a confirmation while they are open, and the looks
always. So a click that has an effect tells what was open when its frame began. The keys stand for
buttons of the panels.
-/

namespace DeskCalculator

/-- The areas of the window that have buttons. -/
inductive Area where
  | looks
  | panel
  | prompt
  | confirmation
  deriving DecidableEq

/-- The area with the buttons for an action. -/
def Action.area : Action → Area
  | toggleTheme | chooseScale _ => .looks
  | submit | cancel => .prompt
  | confirmClearHistory | cancelClearHistory => .confirmation
  | _ => .panel

namespace Window

/-- The buttons of an area may be clicked. -/
def offers (w : Window) : Area → Bool
  | .looks => true
  | .panel => !w.isModal
  | .prompt => w.session.prompt.isSome
  | .confirmation => w.session.isConfirming

/-- A button for an action is enabled only with the area of the action. -/
def Keeps (w : Window) (b : Button) : Prop :=
  ∀ a, b.effect = .act a → b.isEnabled = true → w.offers a.area = true

variable {w : Window} {f : Frame} {a : Action}

/-! ## The buttons -/

theorem keeps_act {label : String} {isEnabled : Bool}
    (h : isEnabled = true → w.offers a.area = true) : w.Keeps ⟨label, isEnabled, .act a⟩ := by
  rintro b hb henabled
  cases hb
  exact h henabled

theorem keeps_panelButton (label : String) (ha : a.area = .panel) :
    w.Keeps (w.panelButton label a) := by
  refine keeps_act fun henabled ↦ ?_
  rw [ha]
  exact henabled

theorem keeps_looksButtons : ∀ b ∈ w.looksButtons, w.Keeps b := by
  rw [looksButtons, List.forall_mem_cons, List.forall_mem_map]
  exact ⟨keeps_act fun _ ↦ rfl, fun s _ ↦ keeps_act fun _ ↦ rfl⟩

theorem keeps_entryButtons (e : Entry × Nat) : ∀ b ∈ w.entryButtons e, w.Keeps b := by
  rw [entryButtons]
  split
  · exact nofun
  · refine List.forall_mem_cons.mpr ⟨nofun, ?_⟩
    split
    · exact List.forall_mem_singleton.mpr nofun
    · exact nofun

theorem keeps_historyButtons : ∀ b ∈ w.historyButtons, w.Keeps b := by
  refine List.forall_mem_cons.mpr ⟨keeps_act fun henabled ↦ ?_, ?_⟩
  · exact (Bool.and_eq_true_iff.mp henabled).1
  · intro b hb
    obtain ⟨e, -, hb⟩ := List.mem_flatMap.mp hb
    exact keeps_entryButtons e b hb

theorem keeps_functionButtons : ∀ b ∈ w.functionButtons, w.Keeps b := by
  rw [functionButtons, List.forall_mem_append, List.forall_mem_append, List.forall_mem_map]
  refine ⟨⟨?_, fun f _ ↦ keeps_panelButton f.name rfl⟩, ?_⟩
  · exact List.forall_mem_cons.mpr ⟨keeps_panelButton _ rfl,
      List.forall_mem_singleton.mpr (keeps_panelButton _ rfl)⟩
  · exact List.forall_mem_cons.mpr ⟨keeps_panelButton _ rfl,
      List.forall_mem_cons.mpr ⟨keeps_panelButton _ rfl,
        List.forall_mem_singleton.mpr (keeps_panelButton _ rfl)⟩⟩

theorem area_keypad : ∀ k ∈ keypad, k.2.area = .panel := by decide

theorem keeps_keypadButtons : ∀ b ∈ w.keypadButtons, w.Keeps b := by
  rw [keypadButtons, List.forall_mem_map]
  exact fun k hk ↦ keeps_panelButton k.1 (area_keypad k hk)

theorem keeps_promptButtons : ∀ b ∈ w.promptButtons, w.Keeps b := by
  rw [promptButtons]
  split
  next hprompt =>
    exact List.forall_mem_cons.mpr ⟨keeps_act fun _ ↦ hprompt,
      List.forall_mem_singleton.mpr (keeps_act fun _ ↦ hprompt)⟩
  next => exact nofun

theorem keeps_confirmationButtons : ∀ b ∈ w.confirmationButtons, w.Keeps b := by
  rw [confirmationButtons]
  split
  next hconfirming =>
    exact List.forall_mem_cons.mpr ⟨keeps_act fun _ ↦ hconfirming,
      List.forall_mem_singleton.mpr (keeps_act fun _ ↦ hconfirming)⟩
  next => exact nofun

theorem keeps_buttons : ∀ b ∈ w.buttons, w.Keeps b := by
  simp only [buttons, List.forall_mem_append]
  exact ⟨⟨⟨⟨⟨keeps_looksButtons, keeps_historyButtons⟩, keeps_functionButtons⟩,
    keeps_keypadButtons⟩, keeps_promptButtons⟩, keeps_confirmationButtons⟩

/-! ## The click of a frame -/

theorem mem_buttons_of_button? {label : String} {n : Nat} {b : Button}
    (h : w.button? label n = some b) : b ∈ w.buttons :=
  (List.mem_filter.mp (List.mem_of_getElem? h)).1

theorem exists_button_of_effect? {c : Click} {e : Effect} (h : w.effect? c = some e) :
    ∃ b ∈ w.buttons, b.isEnabled = true ∧ b.effect = e := by
  rw [effect?] at h
  cases hbutton : w.button? c.label c.n with
  | none =>
    rw [hbutton] at h
    cases h
  | some b =>
    rw [hbutton] at h
    obtain ⟨henabled, heffect⟩ := Option.ite_none_right_eq_some.mp h
    exact ⟨b, mem_buttons_of_button? hbutton, henabled, Option.some.inj heffect⟩

theorem effect?_of_clicked (h : w.clicked f = some a) :
    ∃ c, f.click = some c ∧ w.effect? c = some (.act a) := by
  rw [clicked] at h
  cases heffect : f.click.bind w.effect? with
  | none =>
    rw [heffect] at h
    cases h
  | some e =>
    rw [heffect] at h
    obtain ⟨c, hclick, he⟩ := Option.bind_eq_some_iff.mp heffect
    cases e with
    | act b =>
      cases h
      exact ⟨c, hclick, he⟩
    | fold i | copy text => cases h

/-- A clicked action belongs to an area that was enabled when the frame began. -/
theorem offers_of_clicked (h : w.clicked f = some a) : w.offers a.area = true := by
  obtain ⟨c, -, heffect⟩ := effect?_of_clicked h
  obtain ⟨b, hb, henabled, hact⟩ := exists_button_of_effect? heffect
  exact keeps_buttons b hb a hact henabled

/-! ## The keys of a frame -/

theorem area_of_ofChar? {c : Char} (h : Action.ofChar? c = some a) : a.area = .panel := by
  rw [Action.ofChar?] at h
  split_ifs at h
  all_goals
    cases h
    rfl

theorem area_of_ofKey? {k : Key} (h : Action.ofKey? k = some a) : a.area = .panel := by
  cases k with
  | other => cases h
  | enter | backspace | escape =>
    cases h
    rfl

theorem area_of_mem_keyboardActions {events : List Event} (h : a ∈ keyboardActions events) :
    a.area = .panel := by
  obtain ⟨e, -, ha⟩ := List.mem_flatMap.mp h
  match e with
  | .text s =>
    obtain ⟨c, -, hc⟩ := List.mem_filterMap.mp ha
    exact area_of_ofChar? hc
  | .key k true => exact area_of_ofKey? (Option.mem_toList.mp ha)
  | .key k false => cases ha
  | .other => cases ha

/-! ## The actions of a frame -/

@[simp] theorem isAnswer_eq (a : Action) : isAnswer a = decide (a.area = .prompt) := by
  cases a <;> rfl

@[simp] theorem isConfirmation_eq (a : Action) : isConfirmation a = decide (a.area = .confirmation) := by
  cases a <;> rfl

/-- The actions of a frame, those of the window before those of the keyboard. -/
def actions (w : Window) (f : Frame) : List Action := w.windowActions f ++ w.globalActions f

theorem session_advance (w : Window) (f : Frame) :
    (w.advance f).session = (w.typed f).executeAll (w.actions f) :=
  (List.foldl_append ..).symm

end Window

end DeskCalculator
