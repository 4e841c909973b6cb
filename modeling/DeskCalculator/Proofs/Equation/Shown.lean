import DeskCalculator.Equation.Solved
import DeskCalculator.Proofs.Display.Characters
import DeskCalculator.Proofs.Equation.FiniteRoots
import DeskCalculator.Proofs.Equation.Samples
import DeskCalculator.Proofs.Formula.Admitted
import DeskCalculator.Proofs.Formula.ValueAt

/-!
# What a solved equation shows

A solution in finite numbers is shown without the words for what is not finite: neither its numbers
nor the sides of the equation have the letters for them. With a discriminant that is not finite the
imaginary parts of the conjugate roots are not finite either, and are shown as one of the words.
-/

namespace DeskCalculator

/-- Neither of the words for what is not finite is part of the text. -/
def IsWordless (s : List Char) : Prop := ¬ "NaN".toList <:+: s ∧ ¬ "Infinity".toList <:+: s

theorem IsWordless.mono {s t : List Char} (hs : IsWordless s) (h : t <:+: s) : IsWordless t :=
  ⟨fun ht ↦ hs.1 (ht.trans h), fun ht ↦ hs.2 (ht.trans h)⟩

theorem not_infix_of_not_mem {w s : List Char} {c : Char} (hw : c ∈ w) (hs : c ∉ s) : ¬ w <:+: s :=
  fun h ↦ hs (h.subset hw)

/-! ## Solutions -/

namespace Solution

variable {x re im : Float} {c : Char}

/-- The characters of a solution in numbers. -/
def isTextChar (c : Char) : Bool := isNumberChar c || "x=+-i ".toList.contains c

theorem isTextChar_of_isNumberChar (h : isNumberChar c = true) : isTextChar c = true := by
  rw [isTextChar, h, Bool.true_or]

theorem isTextChar_of_mem_rootText (hx : x.isFinite = true) (hc : c ∈ (rootText x).toList) :
    isTextChar c = true := by
  rw [rootText, String.toList_ofList] at hc
  rcases mem_group hc with h | rfl
  · exact isTextChar_of_isNumberChar (Double.isNumberChar_of_mem_resultText hx h)
  · decide

theorem isTextChar_of_mem_conjugateText (hre : re.isFinite = true) (him : im.isFinite = true)
    (hc : c ∈ (conjugateText re im).toList) : isTextChar c = true := by
  have hnumber : ∀ {x : Float}, x.isFinite = true → c ∈ Double.resultText x → isTextChar c = true :=
    fun hx h ↦ isTextChar_of_isNumberChar (Double.isNumberChar_of_mem_resultText hx h)
  have habs : im.abs.isFinite = true := by simpa using him
  have hlink : ∀ b : Prop, ∀ [Decidable b], c ∈ (if b then " - ".toList else " + ".toList) →
      isTextChar c = true := by
    intro b _ h
    have hall : " - ".toList.all isTextChar = true ∧ " + ".toList.all isTextChar = true := by decide
    split at h
    · exact List.all_eq_true.mp hall.1 c h
    · exact List.all_eq_true.mp hall.2 c h
  rw [conjugateText, String.toList_ofList] at hc
  simp only [complexText] at hc
  split at hc
  · exact hnumber hre hc
  · simp only [List.mem_append, List.mem_singleton] at hc
    rcases hc with ((hc | hc) | hc) | rfl
    · exact hnumber hre hc
    · exact hlink _ hc
    · exact hnumber habs hc
    · decide

theorem isTextChar_of_mem_text {s : Solution} (hs : s.IsFinite) (hne : s.numbers ≠ [])
    (hc : c ∈ s.text.toList) : isTextChar c = true := by
  have hall : ("x = ".toList ++ ", ".toList).all isTextChar = true := by decide
  have hfixed : c ∈ "x = ".toList ∨ c ∈ ", ".toList → isTextChar c = true :=
    fun h ↦ List.all_eq_true.mp hall c (List.mem_append.mpr h)
  cases s with
  | unique x =>
    have hx : x.isFinite = true := hs x List.mem_cons_self
    rw [text, String.toList_append, List.mem_append] at hc
    rcases hc with hc | hc
    · exact hfixed (.inl hc)
    · exact isTextChar_of_mem_rootText hx hc
  | real x y =>
    have hx : x.isFinite = true := hs x List.mem_cons_self
    have hy : y.isFinite = true := hs y (List.mem_cons_of_mem _ List.mem_cons_self)
    simp only [text, String.toList_append, List.mem_append] at hc
    rcases hc with ((hc | hc) | hc) | hc
    · exact hfixed (.inl hc)
    · exact isTextChar_of_mem_rootText hx hc
    · exact hfixed (.inr hc)
    · exact isTextChar_of_mem_rootText hy hc
  | conjugate re im =>
    have hre : re.isFinite = true := hs re List.mem_cons_self
    have him : im.isFinite = true := hs im (List.mem_cons_of_mem _ List.mem_cons_self)
    have him' : (-im).isFinite = true := by simpa using him
    simp only [text, String.toList_append, List.mem_append] at hc
    rcases hc with ((hc | hc) | hc) | hc
    · exact hfixed (.inl hc)
    · exact isTextChar_of_mem_conjugateText hre him hc
    · exact hfixed (.inr hc)
    · exact isTextChar_of_mem_conjugateText hre him' hc
  | none => exact absurd rfl hne
  | every => exact absurd rfl hne

/-- A solution in finite numbers lacks a letter of the one word and the first of the other. -/
theorem exists_not_mem_text {s : Solution} (hs : s.IsFinite) :
    ('a' ∉ s.text.toList ∨ 'N' ∉ s.text.toList) ∧ 'I' ∉ s.text.toList := by
  by_cases hne : s.numbers = []
  · cases s with
    | none =>
      -- the marker has the capital letter of the word, but not the small one
      have htext : Solution.none.text.toList = Marker.noSolution.word := String.toList_ofList
      rw [htext]
      exact ⟨.inl (by decide), by decide⟩
    | every => exact ⟨.inr (by decide), by decide⟩
    | _ => cases hne
  · have hmissing : ∀ c, isTextChar c = false → c ∉ s.text.toList := by
      intro c hc hmem
      rw [isTextChar_of_mem_text hs hne hmem] at hc
      cases hc
    exact ⟨.inr (hmissing 'N' (by decide)), hmissing 'I' (by decide)⟩

theorem isWordless_resultText (hx : x.isFinite = true) : IsWordless (Double.resultText x) := by
  have hmissing : ∀ c, isNumberChar c = false → c ∉ Double.resultText x := by
    intro c hc hmem
    rw [Double.isNumberChar_of_mem_resultText hx hmem] at hc
    cases hc
  exact ⟨not_infix_of_not_mem (c := 'N') (by decide) (hmissing 'N' (by decide)),
    not_infix_of_not_mem (c := 'I') (by decide) (hmissing 'I' (by decide))⟩

theorem isWordless_display {s : Solution} (hs : s.IsFinite) : IsWordless s.display := by
  cases s with
  | unique x => exact isWordless_resultText (hs x List.mem_cons_self)
  | real x y => exact isWordless_resultText (hs x List.mem_cons_self)
  | conjugate re im => exact isWordless_resultText (hs re List.mem_cons_self)
  | none =>
    exact ⟨not_infix_of_not_mem (c := 'a') (by decide) (by decide),
      not_infix_of_not_mem (c := 'I') (by decide) (by decide)⟩
  | every =>
    exact ⟨not_infix_of_not_mem (c := 'N') (by decide) (by decide),
      not_infix_of_not_mem (c := 'y') (by decide) (by decide)⟩

theorem beq_zero_eq_false (hx : x.isFinite = false) : (x == 0.0) = false := by
  have hbeq : (x == 0.0) = (Double.parts x).beq (Double.parts 0.0) := rfl
  have hzero : Double.parts 0.0 = .zero .positive := rfl
  rw [Double.isFinite_eq] at hx
  rw [hbeq, hzero]
  cases hparts : Double.parts x with
  | infinity s => cases s <;> rfl
  | notANumber => rfl
  | zero s =>
    rw [hparts] at hx
    cases hx
  | finite s m e hm =>
    rw [hparts] at hx
    cases hx

/-- A complex number whose imaginary part is not finite is shown with a word. -/
theorem not_isWordless_complexText (him : im.isFinite = false) :
    ¬ IsWordless (complexText re im) := by
  have habs : im.abs.isFinite = false := by simpa using him
  have hinfix : Double.resultText im.abs <:+: complexText re im := by
    simp only [complexText, beq_zero_eq_false him, if_neg Bool.false_ne_true]
    exact ((List.suffix_append _ _).isInfix).trans (List.prefix_append _ _).isInfix
  intro h
  rcases Double.infix_resultText habs with hword | hword
  · exact (h.mono hinfix).1 hword
  · exact (h.mono hinfix).2 hword

end Solution

/-! ## Solved equations -/

namespace Equation

variable {e : Equation}

theorem isLineChar_of_difference {v x : Float} (h : e.difference v = .ok x) :
    (∀ c ∈ e.left, isLineChar c = true) ∧ ∀ c ∈ e.right, isLineChar c = true := by
  rw [difference] at h
  obtain ⟨l, hl, h⟩ := exists_of_bind_eq_ok h
  obtain ⟨r, hr, -⟩ := exists_of_bind_eq_ok h
  exact ⟨fun c ↦ isLineChar_of_evaluateAt hl, fun c ↦ isLineChar_of_evaluateAt hr⟩

end Equation

namespace SolvedEquation

variable {s : SolvedEquation}

/-- A refused letter that is not part of the solution is not part of the line either. -/
theorem not_mem_text (hleft : ∀ c ∈ s.equation.left, isLineChar c = true)
    (hright : ∀ c ∈ s.equation.right, isLineChar c = true) {c : Char} (hc : isLineChar c = false)
    (hletter : c.isAlpha = true) (hsolution : c ∉ s.solution.text.toList) :
    c ∉ s.text.toList := by
  have hside : ∀ {side : List Char}, (∀ d ∈ side, isLineChar d = true) →
      c ∉ displayedLine side := by
    intro side hall hmem
    rcases mem_displayedLine hmem with h | rfl | rfl
    · rw [hall c h] at hc
      cases hc
    · exact absurd hletter (by decide)
    · exact absurd hletter (by decide)
  -- what stands between the sides is no letter
  have hfixed : c ∉ " = ".toList ++ " => ".toList := by
    intro hmem
    have hall : (" = ".toList ++ " => ".toList).all (fun d ↦ !d.isAlpha) = true := by decide
    have h := List.all_eq_true.mp hall c hmem
    rw [hletter] at h
    cases h
  rw [List.mem_append, not_or] at hfixed
  simp only [text, String.toList_append, String.toList_ofList, List.mem_append, not_or]
  exact ⟨⟨⟨⟨hside hleft, hfixed.1⟩, hside hright⟩, hfixed.2⟩, hsolution⟩

/-- Neither the line nor the display shows one of the two words. -/
def IsShownWordless (s : SolvedEquation) : Prop :=
  IsWordless s.text.toList ∧ IsWordless s.solution.display

theorem isShownWordless_of_isFinite (hleft : ∀ c ∈ s.equation.left, isLineChar c = true)
    (hright : ∀ c ∈ s.equation.right, isLineChar c = true) (hs : s.solution.IsFinite) :
    s.IsShownWordless := by
  obtain ⟨hnan, hinfinity⟩ := Solution.exists_not_mem_text hs
  have hmissing := fun c ↦ not_mem_text hleft hright (c := c)
  refine ⟨⟨?_, ?_⟩, Solution.isWordless_display hs⟩
  · rcases hnan with h | h
    · exact not_infix_of_not_mem (c := 'a') (by decide) (hmissing 'a' (by decide) (by decide) h)
    · exact not_infix_of_not_mem (c := 'N') (by decide) (hmissing 'N' (by decide) (by decide) h)
  · exact not_infix_of_not_mem (c := 'I') (by decide)
      (hmissing 'I' (by decide) (by decide) hinfinity)

theorem complexText_infix_text {re im : Float} (h : s.solution = .conjugate re im) :
    complexText re im <:+: s.text.toList := by
  have hsolution : complexText re im <:+: s.solution.text.toList := by
    simp only [h, Solution.text, Solution.conjugateText, String.toList_append, String.toList_ofList,
      List.append_assoc]
    exact (List.prefix_append _ _).isInfix.trans (List.suffix_append _ _).isInfix
  rw [text, String.toList_append]
  exact hsolution.trans (List.suffix_append _ _).isInfix

end SolvedEquation

/-- **Solutions are reported in finite numbers, and shown without a word for what is not finite,
exactly if their discriminant is finite.** The only other outcome for an equation with three finite
samples is that the solution is refused as not finite. -/
theorem solveLine_isFinite_iff (line : List Char) :
    (∀ s, solveLine line = .ok s →
      (s.solution.IsFinite ↔ s.model.HasFiniteDiscriminant) ∧
        (s.IsShownWordless ↔ s.model.HasFiniteDiscriminant)) ∧
      ∀ e f0 f1 f2 f, Equation.ofLine line = .ok e → e.difference 0.0 = .ok f0 →
        e.difference 1.0 = .ok f1 → e.difference 2.0 = .ok f2 → solveLine line = .error f →
          f = .notFinite := by
  constructor
  · intro s h
    rw [solveLine] at h
    obtain ⟨e, -, he⟩ := exists_of_bind_eq_ok h
    obtain ⟨rfl, h0, -, -, hmodel, hsolution, -⟩ := Equation.solve_eq_ok_iff.mp he
    -- the sides have a value at zero, so what they show besides the solution has no word either
    obtain ⟨hleft, hright⟩ := Equation.isLineChar_of_difference h0
    by_cases hd : s.model.HasFiniteDiscriminant
    · have hs : s.solution.IsFinite := Model.isFinite_solution (hmodel ▸ hsolution) (hmodel ▸ hd)
      exact ⟨iff_of_true hs hd,
        iff_of_true (SolvedEquation.isShownWordless_of_isFinite hleft hright hs) hd⟩
    · obtain ⟨re, im, hconjugate, him⟩ := Model.exists_eq_conjugate hsolution hd
      refine ⟨iff_of_false (fun hs ↦ ?_) hd, iff_of_false (fun hs ↦ ?_) hd⟩
      · rw [hconjugate] at hs
        have him' : im.isFinite = true := hs im (List.mem_cons_of_mem _ List.mem_cons_self)
        rw [him] at him'
        cases him'
      · have hinfix := SolvedEquation.complexText_infix_text hconjugate
        exact Solution.not_isWordless_complexText him (hs.1.mono hinfix)
  · intro e f0 f1 f2 f he h0 h1 h2 h
    rw [Equation.solveLine_eq_solve he, Equation.solve_of_samples h0 h1 h2] at h
    exact Model.eq_notFinite_of_solve (error_of_map_eq_error h)

/-! ## At the end of the range -/

/-- The largest power of ten that is finite. -/
def huge : Literal where
  whole := '1' :: List.replicate 308 '0'
  whole_ne_nil := List.cons_ne_nil _ _
  isDigit_whole c hc := by
    rcases List.mem_cons.mp hc with rfl | hc
    · rfl
    · rw [List.eq_of_mem_replicate hc]
      rfl

/-- A side of an equation with finite samples whose second difference is not finite: a parabola with
its vertex at the end of the range, moved by one down or up. -/
def overflowing (s : Sign) : Typed true :=
  .binary s
    (.binary .star (.binary .star (.letter rfl false)
      (.binary .minus (.literal { whole := ['2'] }) (.letter rfl false))) (.literal huge))
    (.literal { whole := ['1'] })

/-- The other side of the equation. -/
def zeroSide : Typed true := .literal { whole := ['0'] }

theorem Equation.difference_text {l r : Typed true} (hl : l.IsLegible) (hr : r.IsLegible)
    {v : Float} (hv : v.isFinite = true) : Equation.difference ⟨l.text, r.text⟩ v
      = finite (l.value v) >>= fun a ↦ finite (r.value v) >>= fun b ↦ finite (a - b) := by
  rw [difference, l.evaluateAt_text hl hv, r.evaluateAt_text hr hv]

theorem difference_overflowing {s : Sign} (hs : (overflowing s).IsLegible) {v w : Float}
    (hv : v.isFinite = true)
    (h : (finite ((overflowing s).value v) >>= fun a ↦
      finite (zeroSide.value v) >>= fun b ↦ finite (a - b)).toOption = some w) :
    Equation.difference ⟨(overflowing s).text, zeroSide.text⟩ v = .ok w := by
  have hzero : zeroSide.IsLegible := trivial
  rw [Equation.difference_text hs hzero hv]
  exact eq_ok_of_toOption h

/-- Both outcomes for a second difference that is not finite. Moved down, the parabola has conjugate
roots that are no numbers; moved up, it has real roots, which are refused. -/
theorem solveLine_overflowing :
    (∃ s, solveLine ((overflowing .minus).text ++ "=0".toList) = .ok s ∧
      ¬ s.solution.IsFinite ∧ ¬ s.IsShownWordless) ∧
    solveLine ((overflowing .plus).text ++ "=0".toList) = .error .notFinite := by
  have hfinite : (0.0 : Float).isFinite = true ∧ (1.0 : Float).isFinite = true ∧
      (2.0 : Float).isFinite = true := by decide +kernel
  constructor
  · have hs : (overflowing .minus).IsLegible := by decide +kernel
    have hline : Equation.ofLine ((overflowing .minus).text ++ "=0".toList)
        = .ok ⟨(overflowing .minus).text, zeroSide.text⟩ := eq_ok_of_toOption (by decide +kernel)
    have h0 := difference_overflowing hs (w := -1.0) hfinite.1 (by decide +kernel)
    have h1 := difference_overflowing hs (w := 1e308) hfinite.2.1 (by decide +kernel)
    have h2 := difference_overflowing hs (w := -1.0) hfinite.2.2 (by decide +kernel)
    have hsolve : (Model.fit negligible (-1.0) 1e308 (-1.0)).solve
        = .ok (.conjugate (0.0 / 0.0) (0.0 / 0.0)) := eq_ok_of_toOption (by decide +kernel)
    have hnan : (0.0 / 0.0 : Float).isFinite = false := by decide +kernel
    have h := (Equation.solveLine_eq_solve hline).trans (Equation.solve_of_samples h0 h1 h2)
    rw [hsolve] at h
    obtain ⟨s, hok, hsolution⟩ : ∃ s, solveLine ((overflowing .minus).text ++ "=0".toList) = .ok s ∧
        s.solution = .conjugate (0.0 / 0.0) (0.0 / 0.0) := ⟨_, h, rfl⟩
    obtain ⟨hiff, hshown⟩ := (solveLine_isFinite_iff _).1 s hok
    have hnumbers : ¬ s.solution.IsFinite := by
      intro hs
      rw [hsolution] at hs
      rw [hs _ List.mem_cons_self] at hnan
      cases hnan
    exact ⟨s, hok, hnumbers, fun hw ↦ hnumbers (hiff.mpr (hshown.mp hw))⟩
  · have hs : (overflowing .plus).IsLegible := by decide +kernel
    have hline : Equation.ofLine ((overflowing .plus).text ++ "=0".toList)
        = .ok ⟨(overflowing .plus).text, zeroSide.text⟩ := eq_ok_of_toOption (by decide +kernel)
    have h0 := difference_overflowing hs (w := 1.0) hfinite.1 (by decide +kernel)
    have h1 := difference_overflowing hs (w := 1e308) hfinite.2.1 (by decide +kernel)
    have h2 := difference_overflowing hs (w := 1.0) hfinite.2.2 (by decide +kernel)
    have hsolve : (Model.fit negligible 1.0 1e308 1.0).solve.toOption = none := by decide +kernel
    have h := (Equation.solveLine_eq_solve hline).trans (Equation.solve_of_samples h0 h1 h2)
    cases hfit : (Model.fit negligible 1.0 1e308 1.0).solve with
    | ok solution =>
      rw [hfit] at hsolve
      cases hsolve
    | error f =>
      rw [hfit] at h
      have herror : solveLine ((overflowing .plus).text ++ "=0".toList) = .error f := h
      rw [herror, (solveLine_isFinite_iff _).2 _ _ _ _ f hline h0 h1 h2 herror]

end DeskCalculator
