import DeskCalculator.Proofs.Session.Confirmation
import DeskCalculator.Proofs.Window.Isolation
import DeskCalculator.Proofs.Window.Labels

/-!
# Keys and buttons

Most buttons of the panels have keys as well. What is typed in one frame leaves the same window as
clicks on the buttons of the same actions, one a frame.

The two take different ways. Keys are mapped to actions at once, and an action is held back when it
comes to be carried out behind a prompt that a key before it has opened. A click is looked up among
the buttons that the window shows when its frame begins, and there the prompt has disabled them.
They stay in step because no key asks for the history to be cleared, so that a prompt is all that
can open.
-/

namespace DeskCalculator

/-! ## The keys -/

namespace Action

/-- The actions that have both a button and a key. -/
def keyed : List Action :=
  "0123456789.()+-*/%".toList.map append ++ [calculate, clear, backspace, squareRoot, nthRoot]

/-- The label on the button of a keyed action. -/
def label : Action → String
  | append '*' => "×"
  | append '/' => "÷"
  | append c => String.singleton c
  | calculate => "="
  | clear => "C"
  | backspace => "DEL"
  | squareRoot => "√"
  | nthRoot => "n√"
  | _ => ""

/-- A click on the button of a keyed action. The sizes have their buttons before the panels, and one
of them is labelled as a digit is. -/
def click (a : Action) : Click := ⟨a.label, (Scale.all.filter (·.label == a.label)).length⟩

/-- The characters that are typed for a keyed action. -/
def characters : Action → List Char
  | append '*' => ['*', 'x', 'X']
  | append c => [c]
  | calculate => ['=']
  | clear => ['c', 'C']
  | squareRoot => ['r']
  | nthRoot => ['R']
  | _ => []

/-- The key that is pressed for a keyed action. -/
def key? : Action → Option Key
  | calculate => some .enter
  | clear => some .escape
  | backspace => some .backspace
  | _ => none

/-- The event of a keyed action: its key, or else its first character. -/
def event (a : Action) : Event :=
  match a.key? with
  | some k => .key k true
  | none => .text (a.characters.take 1)

end Action

/-- The events type the keyed actions, in order: characters, alone or several in an event, and keys
that go down and up again. -/
inductive Types : List Event → List Action → Prop
  | nil : Types [] []
  | text {s : List Char} {as bs : List Action} {es : List Event}
      (h : List.Forall₂ (fun c a ↦ c ∈ a.characters) s as) (hes : Types es bs) :
      Types (.text s :: es) (as ++ bs)
  | press {k : Key} {a : Action} {bs : List Action} {es : List Event}
      (h : a.key? = some k) (hes : Types es bs) : Types (.key k true :: es) (a :: bs)
  | release {bs : List Action} {es : List Event} (k : Key) (hes : Types es bs) :
      Types (.key k false :: es) bs

namespace Action

variable {a : Action}

theorem ofChar?_of_mem_characters (ha : a ∈ keyed) {c : Char} (hc : c ∈ a.characters) :
    ofChar? c = some a := by
  have h : keyed.all (fun a ↦ a.characters.all fun c ↦ ofChar? c == some a) = true := by rfl
  exact beq_iff_eq.mp (List.all_eq_true.mp (List.all_eq_true.mp h a ha) c hc)

theorem ofKey?_of_key? {k : Key} (h : a.key? = some k) : ofKey? k = some a := by
  cases a with
  | calculate | clear | backspace =>
    cases h
    rfl
  | _ => cases h

theorem area_of_mem_keyed : ∀ a ∈ keyed, a.area = .panel := by decide +kernel

theorem passesPrompt_of_mem_keyed : ∀ a ∈ keyed, a.passesPrompt = false := by decide +kernel

theorem characters_ne_nil : ∀ a ∈ keyed, a.key? = none → a.characters ≠ [] := by decide +kernel

end Action

open DeskCalculator.Action

variable {as : List Action} {es : List Event}

theorem types_map_event (h : ∀ a ∈ as, a ∈ keyed) : Types (as.map event) as := by
  induction as with
  | nil => exact .nil
  | cons a as ih =>
    have has := ih fun b hb ↦ h b (List.mem_cons_of_mem a hb)
    rw [List.map_cons, event]
    cases hkey : a.key? with
    | some k => exact .press hkey has
    | none =>
      obtain ⟨c, s, hs⟩ :=
        List.exists_cons_of_ne_nil (characters_ne_nil a (h a List.mem_cons_self) hkey)
      have hc : c ∈ a.characters := hs ▸ List.mem_cons_self
      rw [hs]
      exact .text (.cons hc .nil) has

theorem filterMap_ofChar?_of_forall₂ {s : List Char}
    (hs : List.Forall₂ (fun c a ↦ c ∈ a.characters) s as) (h : ∀ a ∈ as, a ∈ keyed) :
    s.filterMap ofChar? = as := by
  induction hs with
  | nil => rfl
  | @cons c a s as hc _ ih =>
    rw [List.filterMap_cons_some (ofChar?_of_mem_characters (h a List.mem_cons_self) hc),
      ih fun b hb ↦ h b (List.mem_cons_of_mem a hb)]

theorem keyboardActions_of_types (hes : Types es as) (h : ∀ a ∈ as, a ∈ keyed) :
    keyboardActions es = as := by
  induction hes with
  | nil => rfl
  | @text s as bs es hs _ ih =>
    rw [List.forall_mem_append] at h
    rw [keyboardActions, List.flatMap_cons, Event.actions, filterMap_ofChar?_of_forall₂ hs h.1]
    exact congrArg (as ++ ·) (ih h.2)
  | @press k a bs es hkey _ ih =>
    rw [List.forall_mem_cons] at h
    rw [keyboardActions, List.flatMap_cons, Event.actions, ofKey?_of_key? hkey, Option.toList_some,
      List.singleton_append]
    exact congrArg (a :: ·) (ih h.2)
  | release k _ ih => exact ih h

namespace Window

variable {w : Window} {a : Action}

/-! ## The buttons of the keys -/

theorem filter_label_panels : ∀ a ∈ keyed, panels.filter (·.1 == a.label) = [(a.label, a)] := by
  decide +kernel

theorem label_not_mem_themeLabels : ∀ a ∈ keyed, a.label ∉ themeLabels := by decide +kernel

theorem label_not_mem_historyLabels : ∀ a ∈ keyed, a.label ∉ "Tout effacer" :: entryLabels := by
  decide +kernel

theorem filter_label_historyButtons (ha : a ∈ keyed) :
    w.historyButtons.filter (·.label == a.label) = [] :=
  List.filter_eq_nil_iff.mpr fun b hb hlabel ↦
    (isAmong_historyButtons b hb).label_ne (label_not_mem_historyLabels a ha) (beq_iff_eq.mp hlabel)

theorem length_filter_label_looksButtons (ha : a ∈ keyed) :
    (w.looksButtons.filter (·.label == a.label)).length = a.click.n := by
  have htheme : ((if w.session.preferences.isDark then "☀ Clair" else "🌙 Sombre") == a.label)
      = false := by
    refine beq_false_of_ne fun h ↦ label_not_mem_themeLabels a ha ?_
    rw [← h]
    split <;> decide
  rw [looksButtons, List.filter_cons_of_neg (by rw [htheme]; exact Bool.false_ne_true),
    List.filter_map, List.length_map]
  rfl

theorem button?_click (w : Window) (ha : a ∈ keyed) :
    w.button? a.click.label a.click.n = some (w.panelButton a.label a) := by
  have hpanels : (w.functionButtons ++ w.keypadButtons).filter (·.label == a.label)
      = [w.panelButton a.label a] := by
    rw [functionButtons_append_keypadButtons, List.filter_map]
    exact congrArg (List.map _) (filter_label_panels a ha)
  have hbuttons : w.buttons = w.looksButtons ++ (w.historyButtons ++
      ((w.functionButtons ++ w.keypadButtons) ++ (w.promptButtons ++ w.confirmationButtons))) := by
    simp only [buttons, List.append_assoc]
  have hclick : a.click.label = a.label := rfl
  rw [button?, hbuttons, hclick, List.filter_append, List.filter_append, List.filter_append,
    filter_label_historyButtons ha, hpanels, List.nil_append, List.singleton_append,
    ← length_filter_label_looksButtons (w := w) ha, List.getElem?_append_right le_rfl, Nat.sub_self]
  rfl

/-- A click on the button of a keyed action has the effect of the action while the panels are
enabled, and none behind a prompt or a confirmation. -/
theorem effect?_click (w : Window) (ha : a ∈ keyed) :
    w.effect? a.click = if w.isModal then none else some (.act a) := by
  rw [effect?, button?_click w ha]
  change (if (!w.isModal) = true then some (Effect.act a) else none) = _
  cases w.isModal <;> rfl

/-! ## Frames -/

/-- A frame with nothing but a click on the button of a keyed action. -/
def press (w : Window) (a : Action) : Window := w.advance { click := some a.click }

theorem clicked_press (w : Window) (ha : a ∈ keyed) :
    w.clicked { click := some a.click } = if w.isModal then none else some a := by
  rw [clicked, Option.bind_some, effect?_click w ha]
  cases w.isModal <;> rfl

theorem unfolded_press (w : Window) (ha : a ∈ keyed) : (w.press a).unfolded = w.unfolded := by
  change w.unfoldedAfter _ = w.unfolded
  rw [unfoldedAfter, Option.bind_some, effect?_click w ha]
  cases w.isModal <;> rfl

theorem press_of_not_isModal (hw : w.isModal = false) (ha : a ∈ keyed) :
    w.press a = { w with session := w.session.execute a } := by
  have hprompt := prompt_of_not_isModal hw
  have hclicked := clicked_press w ha
  rw [hw, if_neg Bool.false_ne_true] at hclicked
  have harea := area_of_mem_keyed a ha
  have hactions : w.actions { click := some a.click } = [a] := by
    have hanswer : isAnswer a = false := isAnswer_of_area_ne (by rw [harea]; decide)
    rw [actions, windowActions_of_not_confirmation, promptActions_of_prompt_eq_none hprompt,
      hclicked, Option.toList_some, List.filter_singleton, hanswer, globalActions, hw]
    · rfl
    · rintro b hb
      cases hclicked.symm.trans hb
      rw [harea]
      decide
  have hsession : (w.press a).session = w.session.execute a := by
    rw [press, session_advance, typed_of_prompt_eq_none hprompt, hactions]
    rfl
  rw [← hsession, ← unfolded_press w ha]

theorem typed_of_events_eq_nil (w : Window) (c : Option Click) :
    w.typed { click := c } = w.session := by
  rw [typed]
  split
  · rfl
  · next p hp =>
    rw [Session.setAnswer, hp]
    change { w.session with prompt := some p } = w.session
    rw [← hp]

theorem press_of_isModal (hw : w.isModal = true) (ha : a ∈ keyed) : w.press a = w := by
  have hclicked := clicked_press w ha
  rw [hw, if_pos rfl] at hclicked
  have hactions : w.actions { click := some a.click } = [] := by
    rw [actions_of_isModal hw, windowActions, promptActions, hclicked]
    split <;> rfl
  have hsession : (w.press a).session = w.session := by
    rw [press, session_advance, typed_of_events_eq_nil, hactions]
    rfl
  calc w.press a = ⟨(w.press a).session, (w.press a).unfolded⟩ := rfl
    _ = w := by rw [hsession, unfolded_press w ha]

/-- Without a confirmation, a prompt disables the buttons whose actions it holds back. -/
theorem press_eq (hw : w.session.isConfirming = false) (ha : a ∈ keyed) :
    w.press a = { w with session := w.session.execute a } := by
  cases hprompt : w.session.prompt with
  | none => exact press_of_not_isModal (by rw [isModal, hprompt, hw]; rfl) ha
  | some p =>
    have hopen : w.session.prompt.isSome = true := by rw [hprompt]; rfl
    have hheld : w.session.HoldsBack a := ⟨hopen, passesPrompt_of_mem_keyed a ha⟩
    rw [press_of_isModal (isModal_of_prompt hopen) ha, Session.execute_of_holdsBack hheld]

theorem isConfirming_execute_of_mem_keyed (ha : a ∈ keyed) (s : Session) :
    (s.execute a).isConfirming = s.isConfirming := by
  refine Session.isConfirming_execute ?_ ?_ s
  · rintro rfl
    exact absurd ha (by decide +kernel)
  · rw [area_of_mem_keyed a ha]
    decide

/-- Clicks one a frame carry out their actions in order. -/
theorem foldl_press (hw : w.session.isConfirming = false) (h : ∀ a ∈ as, a ∈ keyed) :
    as.foldl press w = { w with session := w.session.executeAll as } := by
  induction as generalizing w with
  | nil => rfl
  | cons a as ih =>
    rw [List.forall_mem_cons] at h
    have hnext := (isConfirming_execute_of_mem_keyed h.1 w.session).trans hw
    rw [List.foldl_cons, press_eq hw h.1, ih hnext h.2]
    rfl

/-! ## Frames of keys -/

theorem advance_events (hw : w.isModal = false) (es : List Event) :
    w.advance { events := es } =
      { w with session := w.session.executeAll (keyboardActions es) } := by
  have hprompt := prompt_of_not_isModal hw
  have hactions : w.actions { events := es } = keyboardActions es := by
    rw [actions, windowActions, promptActions_of_prompt_eq_none hprompt, globalActions, hw]
    rfl
  have hsession : (w.advance { events := es }).session =
      w.session.executeAll (keyboardActions es) := by
    rw [session_advance, typed_of_prompt_eq_none hprompt, hactions]
  rw [← hsession]
  rfl

/-- What is typed in one frame is what is clicked one a frame. -/
theorem advance_typed_eq_foldl_press (w : Window) (as : List Action) (hw : w.isModal = false)
    (h : ∀ a ∈ as, a ∈ keyed) :
    Types (as.map event) as ∧
      ∀ es, Types es as → w.advance { events := es } = as.foldl press w := by
  refine ⟨types_map_event h, fun es hes ↦ ?_⟩
  have hconfirming : w.session.isConfirming = false := (Bool.or_eq_false_iff.mp hw).2
  rw [advance_events hw, keyboardActions_of_types hes h, foldl_press hconfirming h]

/-- A window with a line in which `x` has no value yet. -/
def unfinishedLine : Window := { session := { line := ['2', 'x'] } }

/-- Keys of which one opens a prompt. -/
def askingKeys : List Action := [.append '+', .append '1', .calculate, .append '5', .clear]

/-- The keys behind the one that opens the prompt are held back, and so are their buttons. -/
theorem advance_askingKeys :
    unfinishedLine.isModal = false ∧ (∀ a ∈ askingKeys, a ∈ keyed) ∧
      Types [.text ['+', '1'], .key .enter true, .text ['5', 'c']] askingKeys ∧
      unfinishedLine.advance { events := [.text ['+', '1'], .key .enter true, .text ['5', 'c']] } =
        askingKeys.foldl press unfinishedLine ∧
      (askingKeys.foldl press unfinishedLine).session.line = "2x+1".toList ∧
      (askingKeys.foldl press unfinishedLine).session.prompt = some { question := .valueOfX } := by
  have hw : unfinishedLine.isModal = false := by decide
  have hkeys : ∀ a ∈ askingKeys, a ∈ keyed := by decide +kernel
  have hbehind : Types [.text ['5', 'c']] ([.append '5', .clear] ++ []) := .text (by decide) .nil
  have htypes : Types [.text ['+', '1'], .key .enter true, .text ['5', 'c']]
      ([.append '+', .append '1'] ++ .calculate :: ([.append '5', .clear] ++ [])) :=
    .text (by decide) (.press rfl hbehind)
  refine ⟨hw, hkeys, htypes, ?_, by decide +kernel, by decide +kernel⟩
  exact (advance_typed_eq_foldl_press unfinishedLine askingKeys hw hkeys).2 _ htypes

end Window

end DeskCalculator
