import DeskCalculator.Proofs.Keypad.Line
import DeskCalculator.Proofs.Number.Literal
import Mathlib.Data.List.Chain

/-!
# Lines as they are keyed

The lines that are meant to be typed key by key, by their parts:

```text
line    ::= sum | sum = sum
sum     ::= signed | sum (+ | - | * | /) power
signed  ::= power | - power
power   ::= operand | operand ^ signed
operand ::= x | closed | closed x
closed  ::= number | ( sum ) | ( sum ) number
```

A minus sign that is no operation thus stands at the very start, or behind `(`, `^` or `=`, and only
a coefficient, before the variable or behind a parenthesis, is multiplied without a sign.

Which key is taken as it is depends on little: on the character before it, and for a closing
parenthesis on whether one is open. In a keyed line every key fits behind the one before it, and the
parentheses never close too early. A decimal point depends on more, so that no line is asked here
where its points stand.
-/

namespace DeskCalculator

namespace Buffer

/-! ## The grammar -/

/-- The parts of a keyed line. -/
inductive Part where
  | closed
  | operand
  | power
  | signed
  | sum
  deriving DecidableEq, Repr

/-- The characters are a part of a keyed line. -/
inductive Keyed : Part → List Char → Prop where
  | number (l : Literal) : Keyed .closed l.text
  | parens {s : List Char} : Keyed .sum s → Keyed .closed ('(' :: s ++ [')'])
  | parens_number {s : List Char} (l : Literal) :
      Keyed .sum s → Keyed .closed ('(' :: s ++ [')'] ++ l.text)
  | letter : Keyed .operand ['x']
  | operand_of_closed {s : List Char} : Keyed .closed s → Keyed .operand s
  | coefficient {s : List Char} : Keyed .closed s → Keyed .operand (s ++ ['x'])
  | power_of_operand {s : List Char} : Keyed .operand s → Keyed .power s
  | power {s t : List Char} :
      Keyed .operand s → Keyed .signed t → Keyed .power (s ++ '^' :: t)
  | signed_of_power {s : List Char} : Keyed .power s → Keyed .signed s
  | minus {s : List Char} : Keyed .power s → Keyed .signed ('-' :: s)
  | sum_of_signed {s : List Char} : Keyed .signed s → Keyed .sum s
  | sum {s t : List Char} {o : Char} (ho : o ∈ ['+', '-', '*', '/']) :
      Keyed .sum s → Keyed .power t → Keyed .sum (s ++ o :: t)

/-- A keyed line: an expression, or an equation of two. -/
inductive IsKeyedLine : List Char → Prop where
  | expression {s : List Char} : Keyed .sum s → IsKeyedLine s
  | equation {s t : List Char} : Keyed .sum s → Keyed .sum t → IsKeyedLine (s ++ '=' :: t)

/-! ## Keys that fit -/

/-- Whether the line takes the key `d` as it is behind the character `c`. Only a digit comes behind
a point. -/
def takes (c d : Char) : Bool :=
  d.isDigit ||
    (c != '.' &&
      if isOperatorKey d then !isOperatorKey c
      else if d == '(' then !(c.isDigit || c == ')')
      else if d == ')' then !(c == '(' || isOperatorKey c)
      else ".x^=".toList.contains d)

/-- Each key fits behind the one before it. -/
abbrev Fitting (s : List Char) : Prop := s.IsChain fun c d ↦ takes c d = true

/-- With `n` parentheses open, none is closed too early. -/
def StaysOpen : Nat → List Char → Prop
  | _, [] => True
  | n, c :: s =>
    if c = '(' then StaysOpen (n + 1) s
    else if c = ')' then 0 < n ∧ StaysOpen (n - 1) s
    else StaysOpen n s

/-- The characters that a part may begin with. -/
def begins (k : Part) (c : Char) : Bool :=
  c.isDigit || c == '(' || c == 'x' || (c == '-' && (k == .signed || k == .sum))

/-- The characters that a part may end with. -/
def ends (c : Char) : Bool := c.isDigit || c == ')' || c == 'x'

section Characters

variable {c : Char} {k : Part}

theorem takes_of_isDigit (c : Char) {d : Char} (hd : d.isDigit = true) : takes c d = true := by
  rw [takes, hd, Bool.true_or]

/-- What holds of a digit, a closing parenthesis and the variable holds of the end of a part. -/
theorem of_ends (p : Char → Bool) (hdigit : ∀ n < 10, p (Char.ofNat (n + 48)) = true)
    (hclose : p ')' = true) (hx : p 'x' = true) (hc : ends c = true) : p c = true := by
  rw [ends, Bool.or_eq_true, Bool.or_eq_true, beq_iff_eq, beq_iff_eq] at hc
  rcases hc with (hc | rfl) | rfl
  · exact eq_of_isDigit p hdigit hc
  · exact hclose
  · exact hx

/-- What holds of a digit, an opening parenthesis and the variable, and of a minus sign if the part
may be signed, holds of the beginning of a part. -/
theorem of_begins (p : Char → Bool) (hdigit : ∀ n < 10, p (Char.ofNat (n + 48)) = true)
    (hopen : p '(' = true) (hx : p 'x' = true)
    (hminus : k = .signed ∨ k = .sum → p '-' = true) (hc : begins k c = true) : p c = true := by
  simp only [begins, Bool.or_eq_true, Bool.and_eq_true, beq_iff_eq] at hc
  rcases hc with ((hc | rfl) | rfl) | ⟨rfl, hk⟩
  · exact eq_of_isDigit p hdigit hc
  · exact hopen
  · exact hx
  · exact hminus hk

theorem takes_operator {o : Char} (ho : isOperatorKey o = true) (hc : ends c = true) :
    takes c o = true := by
  have hpoint : (c != '.') = true := of_ends (· != '.') (by decide) rfl rfl hc
  have hoperand : (!isOperatorKey c) = true := of_ends (!isOperatorKey ·) (by decide) rfl rfl hc
  rw [takes, if_pos ho, hpoint, hoperand, Bool.and_true, Bool.or_true]

theorem takes_behind_operator {o : Char} (ho : isOperatorKey o = true)
    (hc : begins .power c = true) : takes o c = true := by
  have hoperators : "+-*/%".toList.all (fun o ↦ takes o '(' && takes o 'x') = true := by decide
  obtain ⟨hopen, hx⟩ :=
    Bool.and_eq_true_iff.mp (List.all_eq_true.mp hoperators o (List.contains_iff_mem.mp ho))
  have hdigits : ∀ n < 10, (Char.ofNat (n + 48)).isDigit = true := by decide
  refine of_begins (takes o) (fun n hn ↦ takes_of_isDigit o (hdigits n hn)) hopen hx ?_ hc
  rintro (hk | hk) <;> cases hk

end Characters

/-- A part fits: its keys fit, it can stand where a part is due, and it leaves the parentheses as
they are before it. -/
structure Fits (k : Part) (s : List Char) : Prop where
  fitting : Fitting s
  ne_nil : s ≠ []
  begins : ∀ c ∈ s.head?, begins k c = true
  ends : ∀ c ∈ s.getLast?, ends c = true
  staysOpen : ∀ n rest, StaysOpen n (s ++ rest) ↔ StaysOpen n rest

/-! ## Numbers -/

theorem fitting_cons_digits (c : Char) {s : List Char} (h : ∀ d ∈ s, d.isDigit = true) :
    Fitting (c :: s) := by
  induction s generalizing c with
  | nil => exact .singleton c
  | cons d s ih =>
    refine .cons_cons (takes_of_isDigit c (h d List.mem_cons_self)) (ih d fun e he ↦ ?_)
    exact h e (List.mem_cons_of_mem d he)

theorem staysOpen_append_of_not {s : List Char} (h : ∀ c ∈ s, c ≠ '(' ∧ c ≠ ')') (n : Nat)
    (rest : List Char) : StaysOpen n (s ++ rest) ↔ StaysOpen n rest := by
  induction s with
  | nil => exact Iff.rfl
  | cons c s ih =>
    obtain ⟨hopen, hclose⟩ := h c List.mem_cons_self
    rw [List.cons_append, StaysOpen, if_neg hopen, if_neg hclose]
    exact ih fun d hd ↦ h d (List.mem_cons_of_mem c hd)

theorem fitting_text (l : Literal) : Fitting l.text := by
  obtain ⟨c, s, hs⟩ := List.exists_cons_of_ne_nil l.whole_ne_nil
  have hwhole : Fitting l.whole := by
    rw [hs]
    refine fitting_cons_digits c fun d hd ↦ l.isDigit_whole d ?_
    rw [hs]
    exact List.mem_cons_of_mem c hd
  by_cases hf : l.fraction = []
  · rwa [Literal.text_of_fraction_eq_nil hf]
  · rw [Literal.text_of_fraction_ne_nil hf]
    refine List.isChain_append.mpr ⟨hwhole, fitting_cons_digits '.' l.isDigit_fraction, ?_⟩
    rintro d hd _ ⟨⟩
    have hdigit : d.isDigit = true := l.isDigit_whole d (List.mem_of_getLast? hd)
    exact eq_of_isDigit (fun d ↦ takes d '.') (by decide) hdigit

theorem fits_number (l : Literal) : Fits .closed l.text where
  fitting := fitting_text l
  ne_nil := by
    obtain ⟨c, s, hs, -⟩ := l.exists_text_eq_cons
    rw [hs]
    exact List.cons_ne_nil c s
  begins := by
    obtain ⟨c, s, hs, hc⟩ := l.exists_text_eq_cons
    rw [hs]
    rintro _ ⟨⟩
    simp [Buffer.begins, hc]
  ends := by
    obtain ⟨s, c, hs, hc⟩ := l.exists_text_eq_append
    rw [hs, List.getLast?_append, List.getLast?_singleton]
    rintro _ ⟨⟩
    simp [Buffer.ends, hc]
  staysOpen := by
    refine staysOpen_append_of_not fun c hc ↦ ?_
    rcases l.isDigit_or_eq_point c hc with hdigit | rfl
    · constructor <;>
      · rintro rfl
        cases hdigit
    · decide

/-! ## Compound parts -/

theorem Fits.mono {k k' : Part} {s : List Char} (h : Fits k s)
    (hk : ∀ c, Buffer.begins k c = true → Buffer.begins k' c = true) : Fits k' s where
  fitting := h.fitting
  ne_nil := h.ne_nil
  begins c hc := hk c (h.begins c hc)
  ends := h.ends
  staysOpen := h.staysOpen

theorem Fits.fitting_cons {k : Part} {s : List Char} (h : Fits k s) {o : Char}
    (ho : ∀ c, Buffer.begins k c = true → takes o c = true) : Fitting (o :: s) := by
  rw [Fitting, List.isChain_cons]
  exact ⟨fun c hc ↦ ho c (h.begins c hc), h.fitting⟩

theorem Fits.join {k k' : Part} {s t : List Char} {o : Char} (hs : Fits k s) (ht : Fits k' t)
    (hbefore : ∀ c, Buffer.ends c = true → takes c o = true)
    (hafter : ∀ c, Buffer.begins k' c = true → takes o c = true) (hopen : o ≠ '(')
    (hclose : o ≠ ')') : Fits k (s ++ o :: t) where
  fitting := by
    refine List.isChain_append.mpr ⟨hs.fitting, ht.fitting_cons hafter, ?_⟩
    rintro c hc _ ⟨⟩
    exact hbefore c (hs.ends c hc)
  ne_nil := List.append_ne_nil_of_left_ne_nil hs.ne_nil _
  begins := by
    intro c hc
    rw [List.head?_append_of_ne_nil _ hs.ne_nil] at hc
    exact hs.begins c hc
  ends := by
    intro c hc
    rw [List.getLast?_append_of_ne_nil _ (List.cons_ne_nil o t),
      List.getLast?_cons_of_ne_nil ht.ne_nil] at hc
    exact ht.ends c hc
  staysOpen := by
    intro n rest
    rw [List.append_assoc, List.cons_append, hs.staysOpen, StaysOpen, if_neg hopen, if_neg hclose,
      ht.staysOpen]

theorem fits_letter : Fits .operand ['x'] where
  fitting := .singleton 'x'
  ne_nil := List.cons_ne_nil _ _
  begins := by
    rintro _ ⟨⟩
    rfl
  ends := by
    rintro _ ⟨⟩
    rfl
  staysOpen n rest := by
    rw [List.singleton_append, StaysOpen, if_neg (by decide), if_neg (by decide)]

theorem Fits.parens {s : List Char} (h : Fits .sum s) : Fits .closed ('(' :: s ++ [')']) where
  fitting := by
    have hopen : Fitting ('(' :: s) :=
      h.fitting_cons fun c hc ↦ of_begins (takes '(') (by decide) rfl rfl (fun _ ↦ rfl) hc
    refine List.isChain_append.mpr ⟨hopen, .singleton ')', ?_⟩
    rintro c hc _ ⟨⟩
    rw [List.getLast?_cons_of_ne_nil h.ne_nil] at hc
    exact of_ends (fun c ↦ takes c ')') (by decide) rfl rfl (h.ends c hc)
  ne_nil := List.cons_ne_nil _ _
  begins := by
    rintro _ ⟨⟩
    rfl
  ends := by
    rw [List.getLast?_append, List.getLast?_singleton]
    rintro _ ⟨⟩
    rfl
  staysOpen n rest := by
    rw [List.append_assoc, List.cons_append, StaysOpen, if_pos rfl, h.staysOpen,
      List.singleton_append, StaysOpen, if_neg (by decide), if_pos rfl, Nat.add_sub_cancel]
    exact and_iff_right (Nat.succ_pos n)

theorem Fits.append {k k' : Part} {s t : List Char} (hs : Fits k s) (ht : Fits k' t)
    (hmeet : ∀ c d, Buffer.ends c = true → d ∈ t.head? → takes c d = true) : Fits k (s ++ t) where
  fitting := by
    refine List.isChain_append.mpr ⟨hs.fitting, ht.fitting, ?_⟩
    exact fun c hc d hd ↦ hmeet c d (hs.ends c hc) hd
  ne_nil := List.append_ne_nil_of_left_ne_nil hs.ne_nil _
  begins := by
    intro c hc
    rw [List.head?_append_of_ne_nil _ hs.ne_nil] at hc
    exact hs.begins c hc
  ends := by
    intro c hc
    rw [List.getLast?_append_of_ne_nil _ ht.ne_nil] at hc
    exact ht.ends c hc
  staysOpen n rest := by
    rw [List.append_assoc, hs.staysOpen, ht.staysOpen]

theorem Fits.parens_number {s : List Char} (h : Fits .sum s) (l : Literal) :
    Fits .closed ('(' :: s ++ [')'] ++ l.text) := by
  refine h.parens.append (fits_number l) fun c d _ hd ↦ takes_of_isDigit c ?_
  obtain ⟨e, t, ht, he⟩ := l.exists_text_eq_cons
  rw [ht] at hd
  rwa [← Option.some.inj hd]

theorem Fits.coefficient {s : List Char} (h : Fits .closed s) : Fits .operand (s ++ ['x']) := by
  refine Fits.mono (h.append fits_letter ?_) fun _ hc ↦ hc
  rintro c _ hc ⟨⟩
  exact of_ends (fun c ↦ takes c 'x') (by decide) rfl rfl hc

theorem Fits.minus {s : List Char} (h : Fits .power s) : Fits .signed ('-' :: s) where
  fitting := by
    refine h.fitting_cons fun c hc ↦ of_begins (takes '-') (by decide) rfl rfl ?_ hc
    rintro (hk | hk) <;> cases hk
  ne_nil := List.cons_ne_nil _ _
  begins := by
    rintro _ ⟨⟩
    rfl
  ends := by
    rw [List.getLast?_cons_of_ne_nil h.ne_nil]
    exact h.ends
  staysOpen n rest := by
    rw [List.cons_append, StaysOpen, if_neg (by decide), if_neg (by decide), h.staysOpen]

/-- Every part of a keyed line fits. -/
theorem Keyed.fits {k : Part} {s : List Char} (h : Keyed k s) : Fits k s := by
  induction h with
  | number l => exact fits_number l
  | parens _ ih => exact ih.parens
  | parens_number l _ ih => exact ih.parens_number l
  | letter => exact fits_letter
  | operand_of_closed _ ih => exact ih.mono fun _ hc ↦ hc
  | coefficient _ ih => exact ih.coefficient
  | power_of_operand _ ih => exact ih.mono fun _ hc ↦ hc
  | power _ _ ihs iht =>
    refine Fits.mono (ihs.join iht ?_ ?_ (by decide) (by decide)) fun _ hc ↦ hc
    · exact fun c hc ↦ of_ends (fun c ↦ takes c '^') (by decide) rfl rfl hc
    · exact fun c hc ↦ of_begins (takes '^') (by decide) rfl rfl (fun _ ↦ rfl) hc
  | signed_of_power _ ih => exact ih.mono fun c hc ↦ by simp_all [Buffer.begins]
  | minus _ ih => exact ih.minus
  | sum_of_signed _ ih => exact ih.mono fun c hc ↦ by simp_all [Buffer.begins]
  | @sum s t o ho _ _ ihs iht =>
    have hoperator : isOperatorKey o = true :=
      List.all_eq_true.mp (by decide : ['+', '-', '*', '/'].all isOperatorKey = true) o ho
    refine ihs.join iht (fun c hc ↦ takes_operator hoperator hc)
      (fun c hc ↦ takes_behind_operator hoperator hc) ?_ ?_
    · rintro rfl
      cases hoperator
    · rintro rfl
      cases hoperator

theorem IsKeyedLine.fits {s : List Char} (h : IsKeyedLine s) : Fits .sum s := by
  cases h with
  | expression hs => exact hs.fits
  | equation hs ht =>
    refine hs.fits.join ht.fits ?_ ?_ (by decide) (by decide)
    · exact fun c hc ↦ of_ends (fun c ↦ takes c '=') (by decide) rfl rfl hc
    · exact fun c hc ↦ of_begins (takes '=') (by decide) rfl rfl (fun _ ↦ rfl) hc

end Buffer

end DeskCalculator
