import DeskCalculator.Proofs.Formula.Admitted
import DeskCalculator.Proofs.Formula.Evaluation

/-!
# A number without its parentheses

Parentheses around a number make no difference to the value of a line, as long as nothing that the
number is made of stands next to them and no percent sign follows. This is not a matter of grammar
alone: the percentages are found before there are tokens, and without the parentheses the number is
part of whatever number it touches.

A line is cut behind a character that is neither a digit nor a point. The expansion of the
percentages and the cutting into tokens both go piece by piece there, and the parentheses are
between two such cuts.
-/

namespace DeskCalculator

/-- No number that the characters end with goes on behind them. -/
def EndsApart (s : List Char) : Prop := ∀ c ∈ s.getLast?, isDecimalDigit c = false ∧ c ≠ '.'

variable {s t rest : List Char} {c : Char}

theorem endsApart_nil : EndsApart [] := fun _ hc ↦ absurd hc (Option.not_mem_none _)

theorem EndsApart.of_append (h : EndsApart (s ++ t)) : EndsApart t := by
  intro c hc
  refine h c ?_
  rw [List.getLast?_append, Option.mem_def.mp hc]
  rfl

theorem EndsApart.of_cons (h : EndsApart (c :: s)) : EndsApart s :=
  EndsApart.of_append (s := [c]) h

theorem EndsApart.append (hs : t = [] → EndsApart s) (ht : EndsApart t) : EndsApart (s ++ t) := by
  intro c hc
  rw [List.getLast?_append] at hc
  cases hlast : t.getLast? with
  | none =>
    rw [hlast, Option.none_or] at hc
    exact hs (List.getLast?_eq_none_iff.mp hlast) c hc
  | some d =>
    rw [hlast, Option.some_or] at hc
    exact ht c (hlast.trans hc)

theorem EndsApart.exists_mem (h : EndsApart s) (hne : s ≠ []) :
    ∃ c ∈ s, isDecimalDigit c = false ∧ c ≠ '.' :=
  ⟨s.getLast hne, List.getLast_mem hne, h _ (List.getLast?_eq_some_getLast hne)⟩

theorem EndsApart.exists_mem_tail (h : EndsApart (c :: s)) (hc : isDecimalDigit c = true) :
    ∃ d ∈ s, isDecimalDigit d = false ∧ d ≠ '.' := by
  obtain ⟨d, hd, hdigit, hpoint⟩ := h.exists_mem (List.cons_ne_nil c s)
  rcases List.mem_cons.mp hd with rfl | hd
  · rw [hc] at hdigit
    cases hdigit
  · exact ⟨d, hd, hdigit, hpoint⟩

theorem EndsApart.dropWhile (h : EndsApart s) (p : Char → Bool) : EndsApart (s.dropWhile p) := by
  rw [← List.takeWhile_append_dropWhile (p := p) (l := s)] at h
  exact h.of_append

theorem EndsApart.of_percentage? {n : List Char × List Char} (h : EndsApart s)
    (hn : percentage? s = some n) : EndsApart n.2 := by
  rw [← percentage?_append hn] at h
  exact h.of_append.of_cons

/-! ## Percentages -/

theorem expandPercentages_of_none (hc : isDecimalDigit c = true)
    (h : percentage? (c :: s) = none) :
    expandPercentages (c :: s) =
      c :: s.takeWhile isDecimalDigit ++ expandPercentages (s.dropWhile isDecimalDigit) := by
  rw [expandPercentages, hc, if_pos rfl]
  split
  · next n hn =>
    rw [h] at hn
    cases hn
  · rfl

/-- Whether a line begins with a percentage is decided in front of a character that no percentage
has inside. -/
theorem percentage?_append_right (hc : c ∈ s) (hdigit : isDecimalDigit c = false)
    (hpoint : c ≠ '.') (rest : List Char) :
    percentage? (s ++ rest) = (percentage? s).map fun n ↦ (n.1, n.2 ++ rest) := by
  have hmem := mem_dropWhile hdigit hc
  rw [percentage?, takeWhile_append_of_mem hc hdigit, dropWhile_append_of_mem hc hdigit,
    percentage?]
  cases hs : s.dropWhile isDecimalDigit with
  | nil =>
    rw [hs] at hmem
    cases hmem
  | cons d u =>
    rw [hs] at hmem
    by_cases hpercent : d = '%'
    · subst hpercent
      rfl
    by_cases hfraction : d = '.'
    · subst hfraction
      have hu : c ∈ u := (List.mem_cons.mp hmem).resolve_left hpoint
      simp only [List.cons_append, takeWhile_append_of_mem hu hdigit,
        dropWhile_append_of_mem hu hdigit]
      cases hd : u.dropWhile isDecimalDigit with
      | nil => exact absurd (mem_dropWhile hdigit hu) (by rw [hd]; exact List.not_mem_nil)
      | cons e v =>
        by_cases he : e = '%'
        · subst he
          simp only [List.cons_append]
          split <;> rfl
        · simp [he]
    · simp [hpercent, hfraction]

/-- The percentages of two pieces are expanded apart if no number goes on behind the first. -/
theorem expandPercentages_append (hs : EndsApart s) (rest : List Char) :
    expandPercentages (s ++ rest) = expandPercentages s ++ expandPercentages rest := by
  fun_induction expandPercentages s with
  | case1 => rfl
  | case2 d u hd n hn ih =>
    obtain ⟨c, hc, hdigit, hpoint⟩ := hs.exists_mem (List.cons_ne_nil d u)
    have hsome : percentage? (d :: (u ++ rest)) = some (n.1, n.2 ++ rest) := by
      rw [← List.cons_append, percentage?_append_right hc hdigit hpoint, hn]
      rfl
    rw [List.cons_append, expandPercentages_of_percentage? hd hsome, ih (hs.of_percentage? hn)]
    exact (List.append_assoc _ _ _).symm
  | case3 d u hd hn ih =>
    obtain ⟨c, hc, hdigit, hpoint⟩ := hs.exists_mem_tail hd
    have hnone : percentage? (d :: (u ++ rest)) = none := by
      rw [← List.cons_append,
        percentage?_append_right (List.mem_cons_of_mem d hc) hdigit hpoint, hn]
      rfl
    rw [List.cons_append, expandPercentages_of_none hd hnone, takeWhile_append_of_mem hc hdigit,
      dropWhile_append_of_mem hc hdigit, ih (hs.of_cons.dropWhile _), List.cons_append,
      List.append_assoc, List.cons_append]
  | case4 d u hd ih =>
    rw [List.cons_append, expandPercentages_cons (Bool.not_eq_true _ ▸ hd), ih hs.of_cons,
      List.cons_append]

@[simp] theorem expandPercentages_eq_nil_iff : expandPercentages s = [] ↔ s = [] := by
  fun_cases expandPercentages s <;> simp

theorem EndsApart.expandPercentages (hs : EndsApart s) : EndsApart (expandPercentages s) := by
  fun_induction DeskCalculator.expandPercentages s with
  | case1 => exact hs
  | case2 d u hd n hn ih =>
    have hclose : EndsApart "/100)".toList := by
      rintro c ⟨⟩
      decide
    have hvalue : EndsApart ('(' :: n.1 ++ "/100)".toList) :=
      .append (fun h ↦ absurd h (by decide)) hclose
    exact .append (fun _ ↦ hvalue) (ih (hs.of_percentage? hn))
  | case3 d u hd hn ih =>
    obtain ⟨c, hc, hdigit, -⟩ := hs.exists_mem_tail hd
    refine .append (fun hnil ↦ ?_) (ih (hs.of_cons.dropWhile _))
    have hmem := mem_dropWhile hdigit hc
    rw [expandPercentages_eq_nil_iff.mp hnil] at hmem
    cases hmem
  | case4 d u hd ih =>
    refine EndsApart.append (s := [d]) (fun hnil ↦ ?_) (ih hs.of_cons)
    rwa [expandPercentages_eq_nil_iff.mp hnil] at hs

theorem IsClear.expandPercentages (h : IsClear s) : IsClear (expandPercentages s) := by
  cases s with
  | nil => simpa using h
  | cons c s =>
    rw [expandPercentages_cons (h c rfl).1]
    rintro d ⟨⟩
    exact h c rfl

/-! ## Tokens -/

theorem isDigit_of_not_isDecimalDigit (h : isDecimalDigit c = false) : c.isDigit = false := by
  rw [← Bool.not_eq_true]
  intro hc
  rw [isDecimalDigit_of_isDigit hc] at h
  cases h

theorem numberText_append_of_endsApart (h : EndsApart s) (hne : s ≠ []) (rest : List Char) :
    numberText (s ++ rest) = ((numberText s).1, (numberText s).2 ++ rest) := by
  obtain ⟨c, hc, hdecimal, hpoint⟩ := h.exists_mem hne
  have hdigit := isDigit_of_not_isDecimalDigit hdecimal
  have hmem := mem_dropWhile hdigit hc
  rw [numberText, takeWhile_append_of_mem hc hdigit, dropWhile_append_of_mem hc hdigit, numberText]
  cases hs : s.dropWhile Char.isDigit with
  | nil =>
    rw [hs] at hmem
    cases hmem
  | cons d u =>
    rw [hs] at hmem
    by_cases hfraction : d = '.'
    · subst hfraction
      have hu : c ∈ u := (List.mem_cons.mp hmem).resolve_left hpoint
      simp only [List.cons_append, takeWhile_append_of_mem hu hdigit,
        dropWhile_append_of_mem hu hdigit]
    · simp [hfraction]

theorem numberText_append_of_isEnd (h : Literal.IsEnd rest) (s : List Char) :
    numberText (s ++ rest) = ((numberText s).1, (numberText s).2 ++ rest) := by
  have hdigit : ∀ c ∈ rest.head?, c.isDigit = false := fun c hc ↦ (h c hc).1
  rw [numberText, takeWhile_append_of_head hdigit, dropWhile_append_of_head hdigit, numberText]
  cases hs : s.dropWhile Char.isDigit with
  | nil =>
    -- the rest does not go on with the point
    cases rest with
    | nil => rfl
    | cons c rest => simp [(h c rfl).2]
  | cons d u =>
    by_cases hfraction : d = '.'
    · subst hfraction
      simp only [List.cons_append, takeWhile_append_of_head hdigit,
        dropWhile_append_of_head hdigit]
    · simp [hfraction]

/-- Neither a number nor a power sign has its beginning in the one piece and its end in the other. -/
structure MeetsApart (s rest : List Char) : Prop where
  number : EndsApart s ∨ Literal.IsEnd rest
  power : s.getLast? = some '*' → ∀ d ∈ rest.head?, d ≠ '*'

theorem MeetsApart.of_append (h : MeetsApart (s ++ t) rest) : MeetsApart t rest where
  number := h.number.imp_left EndsApart.of_append
  power ht := h.power (by rw [List.getLast?_append, ht, Option.some_or])

theorem MeetsApart.of_cons (h : MeetsApart (c :: s) rest) : MeetsApart s rest :=
  MeetsApart.of_append (s := [c]) h

theorem MeetsApart.numberText_append (h : MeetsApart s rest) (hne : s ≠ []) :
    numberText (s ++ rest) = ((numberText s).1, (numberText s).2 ++ rest) :=
  h.number.elim (fun h ↦ numberText_append_of_endsApart h hne rest)
    fun h ↦ numberText_append_of_isEnd h s

/-- What begins no power sign begins none with the other piece behind it. -/
theorem MeetsApart.not_power (h : MeetsApart (c :: s) rest)
    (hpower : ∀ v, c = '*' → s = '*' :: v → False) :
    ∀ v, c = '*' → s ++ rest = '*' :: v → False := by
  rintro v rfl hv
  cases s with
  | nil => exact h.power rfl '*' (List.head?_eq_some_iff.mpr ⟨v, hv⟩) rfl
  | cons d u => exact hpower u rfl (congrArg (· :: u) (List.cons.inj hv).1)

namespace Token

theorem map_cons_bind_append (t : Token) (x y : Except Malformed (List Token)) :
    (t :: ·) <$> (x >>= fun ts ↦ (ts ++ ·) <$> y)
      = (t :: ·) <$> x >>= fun ts ↦ (ts ++ ·) <$> y := by
  cases x <;> cases y <;> rfl

/-- Two pieces that meet apart are cut into tokens one after the other. -/
theorem scan_append (h : MeetsApart s rest) :
    scan (s ++ rest) = scan s >>= fun ts ↦ (ts ++ ·) <$> scan rest := by
  fun_induction scan s with
  | case1 =>
    rw [List.nil_append]
    cases scan rest <;> rfl
  | case2 u ih =>
    rw [List.cons_append, List.cons_append, scan, ih h.of_cons.of_cons, map_cons_bind_append]
  | case3 c u hpower hblank ih =>
    rw [List.cons_append, scan_of_isBlank hblank, ih h.of_cons]
  | case4 c u hpower hblank t ht ih =>
    rw [List.cons_append, scan, if_neg hblank, ht, ih h.of_cons]
    · exact map_cons_bind_append t _ _
    · exact h.not_power hpower
  | case5 c u hpower hblank hvariable hsymbol =>
    rw [List.cons_append, scan_of_not_symbol hblank hsymbol]
    exact if_pos hvariable
  | case6 c u hpower hblank hvariable hnumber w hpoint hsymbol =>
    have htext : numberText (c :: (u ++ rest)) = (w.1, w.2 ++ rest) :=
      h.numberText_append (List.cons_ne_nil c u)
    rw [List.cons_append, scan_of_not_symbol hblank hsymbol, if_neg hvariable, if_pos hnumber, htext]
    exact if_pos hpoint
  | case7 c u hpower hblank hvariable hnumber w hpoint n hn hsymbol ih =>
    have htext : numberText (c :: (u ++ rest)) = (w.1, w.2 ++ rest) :=
      h.numberText_append (List.cons_ne_nil c u)
    rw [List.cons_append, scan_of_not_symbol hblank hsymbol, if_neg hvariable, if_pos hnumber, htext]
    simp only [if_neg hpoint, hn]
    have hrest : MeetsApart (w.1 ++ w.2) rest := by
      rwa [numberText_append]
    rw [ih hrest.of_append]
    exact map_cons_bind_append _ _ _
  | case8 c u hpower hblank hvariable hnumber w hpoint hsymbol hread =>
    have htext : numberText (c :: (u ++ rest)) = (w.1, w.2 ++ rest) :=
      h.numberText_append (List.cons_ne_nil c u)
    rw [List.cons_append, scan_of_not_symbol hblank hsymbol, if_neg hvariable, if_pos hnumber, htext]
    simp only [if_neg hpoint]
    rfl
  | case9 c u hpower hblank hvariable hnumber hsymbol =>
    rw [List.cons_append, scan_of_not_symbol hblank hsymbol, if_neg hvariable, if_neg hnumber]
    rfl

end Token

/-! ## Readings -/

namespace Postfix

namespace Reading

variable {r : Reading}

/-- How far a line is read that goes on after a reading; nowhere if it has no tokens or they cannot
be read on. -/
def after? (r : Reading) (s : List Char) : Option Reading :=
  (Token.scan s >>= fun ts ↦ ts.foldlM next r).toOption

theorem after?_of_scans {ts : List Token} (h : Token.Scans s ts rest) (r : Reading) :
    r.after? (s ++ rest) = (ts.foldlM next r).toOption.bind (·.after? rest) := by
  rw [after?, h]
  cases hrest : Token.scan rest with
  | error e =>
    have hnone : ∀ q : Reading, q.after? rest = none := fun q ↦ by
      rw [after?, hrest]
      rfl
    simp only [hnone]
    cases (ts.foldlM next r).toOption <;> rfl
  | ok us =>
    have hsome : ∀ q : Reading, q.after? rest = (us.foldlM next q).toOption := fun q ↦ by
      rw [after?, hrest]
      rfl
    simp only [hsome]
    rw [← toOption_bind, ← List.foldlM_append]
    rfl

theorem after?_append (hs : EndsApart s) (hrest : ∀ d ∈ rest.head?, d ≠ '*') (r : Reading) :
    r.after? (s ++ rest) = (r.after? s).bind (·.after? rest) := by
  have happend := Token.scan_append ⟨.inl hs, fun _ ↦ hrest⟩
  cases hscan : Token.scan s with
  | error e =>
    rw [hscan] at happend
    rw [after?, happend, after?, hscan]
    rfl
  | ok ts =>
    rw [hscan] at happend
    rw [after?_of_scans happend r, after?, hscan]
    rfl

/-- Parentheses around a number make no difference to what can be read. -/
theorem foldlM_parens (r : Reading) (v : Float) :
    ([.openParen, .number v, .closeParen].foldlM next r).toOption =
      ([.number v].foldlM next r).toOption := by
  obtain ⟨listed, waiting, outside, afterValue⟩ := r
  cases afterValue <;> rfl

end Reading

end Postfix

/-! ## The relation -/

/-- The second line is the first one with the parentheses around a literal left out, once or more
often or not at all. Nothing that the literal could be part of stands next to them, nor does a
percent sign follow. -/
inductive Unwrapped (l : Literal) : List Char → List Char → Prop
  | refl (s : List Char) : Unwrapped l s s
  | unwrap {s s' t' : List Char} (hs : EndsApart s) (ht : IsClear t') (h : Unwrapped l s' t') :
      Unwrapped l (s ++ ('(' :: l.text ++ ')' :: s')) (s ++ (l.text ++ t'))

namespace Unwrapped

variable {l : Literal}

/-- A character in front changes nothing unless it is part of a number and the parentheses behind it
are left out. -/
theorem cons (h : Unwrapped l s t) (hc : EndsApart [c] ∨ s.head? = t.head?) :
    Unwrapped l (c :: s) (c :: t) := by
  cases h with
  | refl => exact .refl _
  | @unwrap u s' t' hu ht h =>
    refine .unwrap (s := c :: u) ?_ ht h
    cases u with
    | nil =>
      refine hc.resolve_right fun hhead ↦ ?_
      obtain ⟨d, v, hd, hdigit⟩ := l.exists_text_eq_cons
      rw [hd] at hhead
      cases hhead
      exact absurd hdigit (by decide)
    | cons d u => exact EndsApart.append (s := [c]) (fun h ↦ absurd h (List.cons_ne_nil d u)) hu

theorem expandPercentages (h : Unwrapped l s t) :
    Unwrapped l (expandPercentages s) (expandPercentages t) := by
  induction h with
  | refl => exact .refl _
  | @unwrap u s' t' hu ht _ ih =>
    rw [expandPercentages_append hu, expandPercentages_append hu,
      l.expandPercentages_text_append ht, List.cons_append, expandPercentages_open,
      l.expandPercentages_text_append (Typed.isClear_close s'), expandPercentages_close]
    exact .unwrap hu.expandPercentages ht.expandPercentages ih

theorem isEmpty_eq (h : Unwrapped l s t) : s.isEmpty = t.isEmpty := by
  cases h with
  | refl => rfl
  | @unwrap u s' t' =>
    obtain ⟨c, v, hc, -⟩ := l.exists_text_eq_cons
    rw [hc]
    cases u <;> rfl

theorem all_isCleanChar_eq (h : Unwrapped l s t) : s.all isCleanChar = t.all isCleanChar := by
  have htext : l.text.all isCleanChar = true :=
    List.all_eq_true.mpr fun c hc ↦ Typed.isCleanChar_of_mem_text hc
  have hparens : isCleanChar '(' = true ∧ isCleanChar ')' = true := by decide
  induction h with
  | refl => rfl
  | unwrap _ _ _ ih => simp [htext, hparens, ih]

theorem after?_eq (h : Unwrapped l s t) (r : Postfix.Reading) : r.after? s = r.after? t := by
  induction h generalizing r with
  | refl => rfl
  | @unwrap u s' t' hu ht _ ih =>
    have hopen : ∀ d ∈ ('(' :: l.text ++ ')' :: s').head?, d ≠ '*' := by
      rintro d ⟨⟩
      decide
    have hdigit : ∀ d ∈ (l.text ++ t').head?, d ≠ '*' := by
      obtain ⟨c, v, hc, hdigit⟩ := l.exists_text_eq_cons
      rw [hc]
      rintro d ⟨⟩ rfl
      exact absurd hdigit (by decide)
    have hinside : Token.Scans l.text [.number l.value] (')' :: s') :=
      Token.scans_literal l (Typed.isEnd_of_isClear (Typed.isClear_close s'))
    have hparens : Token.Scans ('(' :: l.text ++ [')'])
        [.openParen, .number l.value, .closeParen] s' := Token.scans_parens hinside
    have hnumber : Token.Scans l.text [.number l.value] t' :=
      Token.scans_literal l (Typed.isEnd_of_isClear ht)
    rw [Postfix.Reading.after?_append hu hopen, Postfix.Reading.after?_append hu hdigit]
    refine congrArg ((r.after? u).bind ·) (funext fun q ↦ ?_)
    have hs := Postfix.Reading.after?_of_scans hparens q
    rw [List.append_assoc, List.singleton_append] at hs
    rw [hs, Postfix.Reading.after?_of_scans hnumber q, Postfix.Reading.foldlM_parens]
    exact congrArg (Option.bind _) (funext ih)

end Unwrapped

/-! ## Values -/

theorem toOption_evaluate (s : List Char) :
    (evaluate s).toOption = (({} : Postfix.Reading).after? s).bind fun r ↦
      (r.finish >>= Tree.ofPostfix).toOption.bind fun t ↦ (finite t.value).toOption := by
  have hparse : (parse s).toOption = (({} : Postfix.Reading).after? s).bind fun r ↦
      (r.finish >>= Tree.ofPostfix).toOption := by
    rw [Postfix.Reading.after?, ← toOption_bind, bind_assoc, parse]
    simp only [Postfix.ofTokens, bind_assoc]
  rw [← Option.bind_assoc, ← hparse, evaluate]
  cases parse s <;> rfl

/-- The line with its glyphs spelled out and without what it ends with and has not finished. -/
def finished (line : List Char) : List Char := dropEndWhile isUnfinished (spellOut line)

/-- The value of a line whose percentages are expanded; none if it is refused. -/
def expandedValue? (s : List Char) : Option Float :=
  if s.isEmpty then none else if s.all isCleanChar then (evaluate s).toOption else none

theorem toOption_evaluateLine (line : List Char) :
    (evaluateLine line).toOption =
      expandedValue? (expandPercentages (finished line)) := by
  rw [evaluateLine, toOption_bind, expandedValue?, clean, finished]
  split
  · rfl
  · split <;> rfl

theorem toOption_evaluateLine_of_finished {line line' : List Char}
    (h : finished line = finished line') :
    (evaluateLine line).toOption = (evaluateLine line').toOption := by
  rw [toOption_evaluateLine, toOption_evaluateLine, h]

/-- Lines whose finished parts differ in parentheses around a number have the same value, or both
have none. -/
theorem Unwrapped.toOption_evaluateLine_eq {l : Literal} {line line' : List Char}
    (h : Unwrapped l (finished line) (finished line')) :
    (evaluateLine line).toOption = (evaluateLine line').toOption := by
  have hexpanded := h.expandPercentages
  rw [toOption_evaluateLine, toOption_evaluateLine, expandedValue?, expandedValue?,
    toOption_evaluate, toOption_evaluate, hexpanded.isEmpty_eq, hexpanded.all_isCleanChar_eq,
    hexpanded.after?_eq]

end DeskCalculator
