import DeskCalculator.Proofs.Formula.Unwrapped
import DeskCalculator.Proofs.Number.Written
import Mathlib.Data.List.Forall2

/-!
# Lexemes

A *lexeme* is what one token is written as: a parenthesis, a sign of operation or a number. A line
has tokens exactly if it can be cut into blanks and lexemes from left to right, each lexeme the
longest at its place, and then it has one token for each lexeme.

Only two lexemes can be begun by a shorter one, a power sign by the sign of a product and a number
by a number with fewer digits or without its point. For numbers the longest is what the reader of
numerals takes: it takes a number to its end, and it takes no less than any number at the head of
the line.

No lexeme goes on behind a blank, so a line is cut there into two lines that are cut on their own.
-/

namespace DeskCalculator

/-! ## Numbers -/

/-- A text is a number of an expression, with these digits: it has at least one of them, and a point
before, between or behind them or none. -/
inductive Numeral.IsWriting : List Char → Numeral → Prop where
  | whole {w : List Char} (hne : w ≠ []) (hw : ∀ c ∈ w, c.isDigit = true) :
      IsWriting w { whole := w }
  | pointed {w f : List Char} (hne : w ++ f ≠ []) (hw : ∀ c ∈ w, c.isDigit = true)
      (hf : ∀ c ∈ f, c.isDigit = true) : IsWriting (w ++ '.' :: f) { whole := w, fraction := f }

namespace Numeral

variable {w s : List Char} {n : Numeral}

theorem IsWriting.isMantissa (h : IsWriting w n) :
    IsMantissa Char.isDigit w n.whole n.fraction := by
  cases h with
  | whole hne hw => exact .whole hne hw
  | pointed hne hw hf => exact .pointed hne hw hf

theorem IsMantissa.isWriting {whole fraction : List Char}
    (h : IsMantissa Char.isDigit w whole fraction) :
    IsWriting w { whole := whole, fraction := fraction } := by
  cases h with
  | whole hne hw => exact .whole hne hw
  | pointed hne hw hf => exact .pointed hne hw hf

theorem IsWriting.unsigned_eq (h : IsWriting w n) : unsigned Char.isDigit w = (n, []) := by
  have hsame : { whole := n.whole, fraction := n.fraction } = n := by cases h <;> rfl
  have hread := h.isMantissa.unsigned_append rfl (s := []) fun c hc ↦
    absurd hc (Option.not_mem_none c)
  rwa [List.append_nil, hsame] at hread

theorem isWriting_numberText (h : ¬ ((unsigned Char.isDigit s).1.whole.isEmpty
      && (unsigned Char.isDigit s).1.fraction.isEmpty) = true) :
    IsWriting (numberText s).1 (unsigned Char.isDigit s).1 := by
  rw [unsigned_fst]
  exact (isMantissa_numberText h).isWriting

theorem IsWriting.length_unsigned_append_le (h : IsWriting w n) (s : List Char) :
    (unsigned Char.isDigit (w ++ s)).2.length ≤ s.length :=
  h.isMantissa.length_unsigned_append_le rfl s

theorem IsWriting.unsigned_append_ne_nil (h : IsWriting w n) (s : List Char) :
    ¬ ((unsigned Char.isDigit (w ++ s)).1.whole.isEmpty
      && (unsigned Char.isDigit (w ++ s)).1.fraction.isEmpty) = true :=
  h.isMantissa.unsigned_append_ne_nil rfl s

theorem IsWriting.exists_eq_cons (h : IsWriting w n) :
    ∃ c s, w = c :: s ∧ beginsNumber c = true := by
  cases h with
  | whole hne hw =>
    obtain ⟨c, s, rfl⟩ := List.exists_cons_of_ne_nil hne
    refine ⟨c, s, rfl, ?_⟩
    rw [beginsNumber, hw c List.mem_cons_self, Bool.true_or]
  | @pointed w f hne hw hf =>
    cases w with
    | nil => exact ⟨'.', f, rfl, rfl⟩
    | cons c w =>
      refine ⟨c, w ++ '.' :: f, rfl, ?_⟩
      rw [beginsNumber, hw c List.mem_cons_self, Bool.true_or]

theorem IsWriting.isDigit_or_eq_point (h : IsWriting w n) :
    ∀ c ∈ w, c.isDigit = true ∨ c = '.' :=
  h.isMantissa.isDigit_or_eq_point

theorem IsWriting.leading?_eq (h : IsWriting w n) : leading? Char.isDigit w = some (n, []) := by
  have hsame : (⟨false, n.whole, n.fraction, false, []⟩ : Numeral) = n := by cases h <;> rfl
  have hread := (IsNumber.intro .none h.isMantissa .none).leading?_eq isDigitClass_isDigit
  rwa [hsame, List.nil_append, List.append_nil] at hread

end Numeral

/-! ## Lexemes -/

namespace Token

/-- What a token is written as. -/
inductive IsLexeme : List Char → Token → Prop where
  | openParen : IsLexeme ['('] openParen
  | closeParen : IsLexeme [')'] closeParen
  | sign {o : Operator} (ho : o ≠ .power) : IsLexeme [o.symbol] (operator o)
  | power : IsLexeme ['*', '*'] (operator .power)
  | number {w : List Char} {n : Numeral} (h : n.IsWriting w) : IsLexeme w (number n.value)

/-- No lexeme at the head of the line is longer. -/
def IsLongest (w s : List Char) : Prop :=
  ∀ w' t, IsLexeme w' t → w' <+: w ++ s → w'.length ≤ w.length

/-- A line is cut from left to right into blanks and lexemes, each the longest at its place. -/
inductive Cut : List Char → List (List Char) → Prop where
  | nil : Cut [] []
  | blank {c : Char} {s : List Char} {ws : List (List Char)} (hc : isBlank c = true)
      (h : Cut s ws) : Cut (c :: s) ws
  | lexeme {w s : List Char} {t : Token} {ws : List (List Char)} (hw : IsLexeme w t)
      (hl : IsLongest w s) (h : Cut s ws) : Cut (w ++ s) (w :: ws)

variable {w s : List Char} {c : Char} {t : Token}

theorem isLexeme_of_ofSymbol? (h : ofSymbol? c = some t) : IsLexeme [c] t := by
  unfold ofSymbol? at h
  split at h
  case h_1 => exact Option.some.inj h ▸ .openParen
  case h_2 => exact Option.some.inj h ▸ .closeParen
  case h_3 => exact Option.some.inj h ▸ .sign (o := .plus) (by decide)
  case h_4 => exact Option.some.inj h ▸ .sign (o := .minus) (by decide)
  case h_5 => exact Option.some.inj h ▸ .sign (o := .times) (by decide)
  case h_6 => exact Option.some.inj h ▸ .sign (o := .divide) (by decide)
  case h_7 => exact Option.some.inj h ▸ .sign (o := .remainder) (by decide)
  case h_8 => cases h

/-- A lexeme is a single sign, the power sign or a number. -/
theorem IsLexeme.cases_cons (h : IsLexeme (c :: s) t) :
    (s = [] ∧ ofSymbol? c = some t) ∨ (c = '*' ∧ s = ['*'] ∧ t = operator .power) ∨
      beginsNumber c = true ∧ ∃ n, Numeral.IsWriting (c :: s) n ∧ t = .number n.value := by
  generalize hw : c :: s = w at h
  cases h with
  | openParen | closeParen =>
    cases hw
    exact .inl ⟨rfl, rfl⟩
  | @sign o ho =>
    cases hw
    refine .inl ⟨rfl, ?_⟩
    cases o with
    | power => exact absurd rfl ho
    | _ => rfl
  | power =>
    cases hw
    exact .inr (.inl ⟨rfl, rfl, rfl⟩)
  | @number w n h =>
    obtain ⟨d, u, rfl, hd⟩ := h.exists_eq_cons
    cases hw
    exact .inr (.inr ⟨hd, n, h, rfl⟩)

theorem IsLexeme.exists_eq_cons (h : IsLexeme w t) : ∃ c s, w = c :: s := by
  cases h with
  | number h =>
    obtain ⟨c, s, hs, -⟩ := h.exists_eq_cons
    exact ⟨c, s, hs⟩
  | _ => exact ⟨_, _, rfl⟩

theorem IsLexeme.isBlank_eq_false (h : IsLexeme w t) : ∀ c ∈ w, isBlank c = false := by
  have hall : ∀ w : List Char, w.any isBlank = false → ∀ c ∈ w, isBlank c = false :=
    fun w hw c hc ↦ Bool.eq_false_iff.mpr (List.any_eq_false.mp hw c hc)
  cases h with
  | @sign o ho => cases o <;> exact hall _ (by decide)
  | number h =>
    intro c hc
    rcases h.isDigit_or_eq_point c hc with hdigit | rfl
    · exact eq_of_isDigit isBlank (by decide) hdigit
    · decide
  | _ => exact hall _ (by decide)

/-! ## The longest lexeme -/

theorem isLongest_symbol (hc : ofSymbol? c = some t) (hstar : ∀ v, c = '*' → s = '*' :: v → False) :
    IsLongest [c] s := by
  intro w' t' h hprefix
  obtain ⟨d, u, rfl⟩ := h.exists_eq_cons
  obtain ⟨rfl, hu⟩ := List.cons_prefix_cons.mp hprefix
  rcases h.cases_cons with ⟨rfl, -⟩ | ⟨rfl, rfl, -⟩ | ⟨hnumber, -⟩
  · exact Nat.le_refl 1
  · obtain ⟨v, hv⟩ := hu
    exact absurd hv.symm fun hv ↦ hstar v rfl hv
  · rw [(of_beginsNumber hnumber).2.1] at hc
    cases hc

theorem isLongest_power (s : List Char) : IsLongest ['*', '*'] s := by
  intro w' t' h hprefix
  obtain ⟨d, u, rfl⟩ := h.exists_eq_cons
  obtain ⟨rfl, -⟩ := List.cons_prefix_cons.mp hprefix
  rcases h.cases_cons with ⟨rfl, -⟩ | ⟨-, rfl, -⟩ | ⟨hnumber, -⟩
  · exact Nat.le_succ 1
  · exact Nat.le_refl 2
  · exact absurd hnumber (by decide)

/-- What is read is the longest lexeme at the head of the line. -/
theorem isLongest_number {n : Numeral} (h : n.IsWriting w)
    (hread : (Numeral.unsigned Char.isDigit (w ++ s)).2 = s) : IsLongest w s := by
  rintro w' t' h' ⟨v, hv⟩
  obtain ⟨c, u, rfl, hc⟩ := h.exists_eq_cons
  obtain ⟨d, u', rfl⟩ := h'.exists_eq_cons
  obtain rfl : d = c := (List.cons.inj hv).1
  rcases h'.cases_cons with ⟨rfl, -⟩ | ⟨rfl, -⟩ | ⟨-, n', hn', -⟩
  · exact Nat.succ_le_succ (Nat.zero_le _)
  · exact absurd hc (by decide)
  · have hle := hn'.length_unsigned_append_le v
    rw [hv, hread] at hle
    have hlength := congrArg List.length hv
    rw [List.length_append, List.length_append] at hlength
    omega

/-- If a number is the longest lexeme at the head of the line, it is what is read. -/
theorem unsigned_append_of_isLongest {n : Numeral} (h : n.IsWriting w) (hl : IsLongest w s) :
    Numeral.unsigned Char.isDigit (w ++ s) = (n, s) := by
  have hle := h.length_unsigned_append_le s
  have hw' := Numeral.isWriting_numberText (h.unsigned_append_ne_nil s)
  have happend := numberText_append (w ++ s)
  rw [numberText_snd] at happend
  have hle' := hl _ _ (.number hw') ⟨_, happend⟩
  have hlength := congrArg List.length happend
  rw [List.length_append, List.length_append] at hlength
  obtain ⟨htext, hrest⟩ := List.append_inj happend (by omega)
  have hread := hw'.unsigned_eq
  rw [htext, h.unsigned_eq] at hread
  exact Prod.ext (congrArg Prod.fst hread).symm hrest

theorem IsLongest.ne_star (hl : IsLongest ['*'] s) : ∀ d ∈ s.head?, d ≠ '*' := by
  rintro d hd rfl
  obtain ⟨v, rfl⟩ := List.head?_eq_some_iff.mp hd
  exact absurd (hl _ _ .power ⟨v, rfl⟩) (by decide)

/-! ## Tokens -/

theorem IsLexeme.scans (h : IsLexeme w t) (hl : IsLongest w s) : Scans w [t] s := by
  cases h with
  | openParen => exact scans_open s
  | closeParen => exact scans_close s
  | @sign o ho =>
    cases o with
    | times => exact scans_symbol rfl (by decide) fun d hd _ ↦ hl.ne_star d hd
    | power => exact absurd rfl ho
    | _ => exact scans_symbol rfl (by decide) fun d _ h ↦ absurd h (by decide)
  | power => exact scans_stars s
  | @number w n h =>
    have hread := unsigned_append_of_isLongest h hl
    have hdigits := h.unsigned_append_ne_nil s
    obtain ⟨c, u, rfl, hc⟩ := h.exists_eq_cons
    rw [List.cons_append] at hread hdigits
    rw [Scans, List.cons_append, scan_of_beginsNumber hc, if_neg hdigits, hread]
    rfl

theorem Cut.scan_eq {ws : List (List Char)} {ts : List Token} (h : Cut s ws)
    (hws : List.Forall₂ IsLexeme ws ts) : scan s = .ok ts := by
  induction h generalizing ts with
  | nil =>
    cases hws
    rw [scan]
  | blank hc _ ih => rw [scan_of_isBlank hc, ih hws]
  | @lexeme w s t ws hw hl _ ih =>
    obtain ⟨u, us, hu, hus, rfl⟩ := List.forall₂_cons_left_iff.mp hws
    rw [hu.scans hl, ih hus]
    rfl

theorem exists_cut_of_scan {ts : List Token} (h : scan s = .ok ts) :
    ∃ ws, Cut s ws ∧ List.Forall₂ IsLexeme ws ts := by
  fun_induction scan s generalizing ts with
  | case1 =>
    cases h
    exact ⟨[], .nil, .nil⟩
  | case2 s ih =>
    obtain ⟨us, hus, rfl⟩ := exists_of_map_eq_ok h
    obtain ⟨ws, hcut, hws⟩ := ih hus
    exact ⟨_, .lexeme .power (isLongest_power s) hcut, .cons .power hws⟩
  | case3 c s hpower hblank ih =>
    obtain ⟨ws, hcut, hws⟩ := ih h
    exact ⟨ws, .blank hblank hcut, hws⟩
  | case4 c s hpower hblank t ht ih =>
    obtain ⟨us, hus, rfl⟩ := exists_of_map_eq_ok h
    obtain ⟨ws, hcut, hws⟩ := ih hus
    have hc := isLexeme_of_ofSymbol? ht
    exact ⟨_, .lexeme hc (isLongest_symbol ht hpower) hcut, .cons hc hws⟩
  | case5 => cases h
  | case6 => cases h
  | case7 c s hpower hblank hvariable hnumber w hpoint n hn hsymbol =>
    rename_i ih
    obtain ⟨us, hus, rfl⟩ := exists_of_map_eq_ok h
    obtain ⟨ws, hcut, hws⟩ := ih hus
    have hdigits := mt (numberText_eq_point_iff hnumber).mpr hpoint
    have hw := Numeral.isWriting_numberText hdigits
    have hread : some (n, []) = some ((Numeral.unsigned Char.isDigit (c :: s)).1, []) :=
      hn.symm.trans (leading?_numberText hdigits)
    cases hread
    have happend : w.1 ++ w.2 = c :: s := numberText_append (c :: s)
    have hcut' : Cut (w.1 ++ w.2) (w.1 :: ws) := by
      refine .lexeme (.number hw) (isLongest_number hw ?_) hcut
      rw [happend]
      exact (numberText_snd (c :: s)).symm
    rw [happend] at hcut'
    exact ⟨_, hcut', .cons (.number hw) hws⟩
  | case8 => cases h
  | case9 => cases h

theorem Cut.eq {ws ws' : List (List Char)} (h : Cut s ws) (h' : Cut s ws') : ws = ws' := by
  induction h generalizing ws' with
  | nil =>
    generalize hs : [] = s at h'
    cases h' with
    | nil => rfl
    | blank => cases hs
    | lexeme hw =>
      obtain ⟨c, u, rfl⟩ := hw.exists_eq_cons
      cases hs
  | @blank c s ws hc _ ih =>
    generalize hs : c :: s = s' at h'
    cases h' with
    | nil => cases hs
    | blank hc' h' =>
      cases hs
      exact ih h'
    | lexeme hw =>
      obtain ⟨d, u, rfl⟩ := hw.exists_eq_cons
      cases hs
      exact absurd hc (Bool.eq_false_iff.mp (hw.isBlank_eq_false c List.mem_cons_self))
  | @lexeme w s t ws hw hl _ ih =>
    generalize hs : w ++ s = s' at h'
    cases h' with
    | nil =>
      obtain ⟨c, u, rfl⟩ := hw.exists_eq_cons
      cases hs
    | blank hc =>
      obtain ⟨d, u, rfl⟩ := hw.exists_eq_cons
      cases hs
      exact absurd hc (Bool.eq_false_iff.mp (hw.isBlank_eq_false _ List.mem_cons_self))
    | @lexeme w' s' t' ws' hw' hl' h' =>
      -- each of the two is no longer than the other
      have hle := hl w' t' hw' ⟨s', hs.symm⟩
      have hle' := hl' w t hw ⟨s, hs⟩
      obtain ⟨rfl, rfl⟩ := List.append_inj hs (Nat.le_antisymm hle' hle)
      rw [ih h']

/-! ## Blanks -/

theorem Cut.flatten_eq {ws : List (List Char)} (h : Cut s ws) :
    ws.flatten = s.filter (!isBlank ·) := by
  induction h with
  | nil => rfl
  | blank hc _ ih => rw [ih, List.filter_cons_of_neg (by rw [hc]; exact Bool.false_ne_true)]
  | lexeme hw _ _ ih =>
    have hkept : ∀ c ∈ _, (!isBlank c) = true := fun c hc ↦ by
      rw [hw.isBlank_eq_false c hc]
      rfl
    rw [List.flatten_cons, ih, List.filter_append, List.filter_eq_self.mpr hkept]

theorem scan_blanks_append {b : List Char} (hb : ∀ c ∈ b, isBlank c = true) (s : List Char) :
    scan (b ++ s) = scan s := by
  induction b with
  | nil => rfl
  | cons c b ih =>
    rw [List.forall_mem_cons] at hb
    rw [List.cons_append, scan_of_isBlank hb.1, ih hb.2]

theorem isEnd_of_isBlank (hc : isBlank c = true) (s : List Char) : Literal.IsEnd (c :: s) := by
  refine Literal.isEnd_cons (isDigit_of_not_isDecimalDigit (isDecimalDigit_of_isBlank hc)) ?_ s
  rintro rfl
  exact absurd hc (by decide)

/-- A line is cut at its blanks into lines that have their tokens, or their faults, on their own. -/
theorem scan_append_blanks_append {b : List Char} (hne : b ≠ []) (hb : ∀ c ∈ b, isBlank c = true)
    (s u : List Char) : scan (s ++ b ++ u) = scan s >>= fun ts ↦ (ts ++ ·) <$> scan u := by
  rw [← scan_blanks_append hb u, List.append_assoc]
  obtain ⟨c, b, rfl⟩ := List.exists_cons_of_ne_nil hne
  have hc := hb c List.mem_cons_self
  refine scan_append ⟨.inr (isEnd_of_isBlank hc _), ?_⟩
  rintro - d ⟨⟩ rfl
  exact absurd hc (by decide)

/-! ## All lines -/

theorem fault_of_subset {u : List Char} {e : Malformed} (hu : u ⊆ s)
    (h : e = .unknownVariable ∨ e = .lonePoint ∨ ∃ c ∈ u, e = .unexpected c) :
    e = .unknownVariable ∨ e = .lonePoint ∨ ∃ c ∈ s, e = .unexpected c := by
  rcases h with h | h | ⟨c, hc, h⟩
  · exact .inl h
  · exact .inr (.inl h)
  · exact .inr (.inr ⟨c, hu hc, h⟩)

/-- A line is refused for the variable, for a point on its own or for a character of its own. -/
theorem eq_of_scan_eq_error {e : Malformed} (h : scan s = .error e) :
    e = .unknownVariable ∨ e = .lonePoint ∨ ∃ c ∈ s, e = .unexpected c := by
  fun_induction scan s with
  | case1 => cases h
  | case2 s ih =>
    refine fault_of_subset (fun c hc ↦ ?_) (ih (error_of_map_eq_error h))
    exact List.mem_cons_of_mem _ (List.mem_cons_of_mem _ hc)
  | case3 c s hpower hblank ih => exact fault_of_subset (List.subset_cons_self c s) (ih h)
  | case4 c s hpower hblank t ht ih =>
    exact fault_of_subset (List.subset_cons_self c s) (ih (error_of_map_eq_error h))
  | case5 => exact .inl (Except.error.inj h).symm
  | case6 => exact .inr (.inl (Except.error.inj h).symm)
  | case7 c s hpower hblank hvariable hnumber w hpoint n hn hsymbol ih =>
    have happend : w.1 ++ w.2 = c :: s := numberText_append (c :: s)
    refine fault_of_subset (fun d hd ↦ ?_) (ih (error_of_map_eq_error h))
    rw [← happend]
    exact List.mem_append_right w.1 hd
  | case8 c s hpower hblank hvariable hnumber w hpoint hsymbol hread =>
    -- a text with digits is read
    have hdigits := mt (numberText_eq_point_iff hnumber).mpr hpoint
    exact absurd (leading?_numberText hdigits) (hread _)
  | case9 c => exact .inr (.inr ⟨c, List.mem_cons_self, (Except.error.inj h).symm⟩)

/-- No line is refused because the text of a number cannot be read. -/
theorem scan_ne_invalidNumber (s w : List Char) : scan s ≠ .error (.invalidNumber w) := by
  intro h
  rcases eq_of_scan_eq_error h with h | h | ⟨c, -, h⟩ <;> cases h

/-- **The tokens of a line are those of its lexemes.** A line has tokens exactly if it can be cut
into blanks and lexemes, each the longest at its place, and it has one token for each lexeme. It can
be cut in one way at most, and its lexemes put end to end are the line without its blanks. A lexeme
that is a number is always one that can be read, to its end, so a line is refused for other reasons
only, and never for the text of a number. At blanks a line is cut into two lines of their own; the
faults of the first come first. -/
theorem scan_cut (s : List Char) :
    (∀ ts, scan s = .ok ts ↔ ∃ ws, Cut s ws ∧ List.Forall₂ IsLexeme ws ts) ∧
    (∀ ws, Cut s ws → ws.flatten = s.filter (!isBlank ·) ∧ ∀ ws', Cut s ws' → ws' = ws) ∧
    (∀ w v, IsLexeme w (.number v) →
      ∃ n, Numeral.leading? Char.isDigit w = some (n, []) ∧ n.value = v) ∧
    (∀ e, scan s = .error e →
      e = .unknownVariable ∨ e = .lonePoint ∨ ∃ c ∈ s, e = .unexpected c) ∧
    (∀ w, scan s ≠ .error (.invalidNumber w)) ∧
    ∀ b u : List Char, b ≠ [] → (∀ c ∈ b, isBlank c = true) →
      scan (s ++ b ++ u) = scan s >>= fun ts ↦ (ts ++ ·) <$> scan u := by
  refine ⟨fun ts ↦ ⟨exists_cut_of_scan, fun ⟨_, h, hws⟩ ↦ h.scan_eq hws⟩,
    fun ws h ↦ ⟨h.flatten_eq, fun ws' h' ↦ h'.eq h⟩, fun w v h ↦ ?_,
    fun e ↦ eq_of_scan_eq_error, scan_ne_invalidNumber s,
    fun b u hne hb ↦ scan_append_blanks_append hne hb s u⟩
  generalize ht : number v = t at h
  cases h with
  | number hw =>
    cases ht
    exact ⟨_, hw.leading?_eq, rfl⟩
  | _ => cases ht

/-- Two points begin two numbers, and three stars are a power sign first. Behind a blank a point has
no digits, though the line in front of it ends in some. -/
theorem scan_cut_stars :
    scan "1.2.3***5".toList = .ok [number 1.2, number 0.3, operator .power, operator .times,
      number 5.0] ∧
    (∃ ws, Cut "1.2.3***5".toList ws ∧ ws.flatten = "1.2.3***5".toList ∧
      List.Forall₂ IsLexeme ws
        [number 1.2, number 0.3, operator .power, operator .times, number 5.0]) ∧
    (∃ n, Numeral.leading? Char.isDigit "5.".toList = some (n, []) ∧ n.value = 5.0) ∧
    [' ', '\t'] ≠ [] ∧ (∀ c ∈ [' ', '\t'], isBlank c = true) ∧
    scan ("1.2.3***5".toList ++ [' ', '\t'] ++ ".x".toList) = .error .lonePoint ∧
    ∃ e, scan ".x".toList = .error e ∧
      (e = .unknownVariable ∨ e = .lonePoint ∨ ∃ c ∈ ".x".toList, e = .unexpected c) := by
  have hscan : scan "1.2.3***5".toList = .ok [number 1.2, number 0.3, operator .power,
      operator .times, number 5.0] := eq_ok_of_toOption (by decide +kernel)
  have hpoint : scan ".x".toList = .error .lonePoint := by
    rw [show ".x".toList = ['.', 'x'] from rfl, scan_of_beginsNumber rfl]
    rfl
  have hnumber : IsLexeme "5.".toList (number 5.0) := by
    have hwriting : Numeral.IsWriting ("5".toList ++ '.' :: []) { whole := ['5'] } :=
      .pointed (by decide) (List.all_eq_true.mp (by decide)) isDigit_of_mem_nil
    have hvalue : ({ whole := ['5'] } : Numeral).value = 5.0 := by decide +kernel
    rw [← hvalue]
    exact .number hwriting
  obtain ⟨htokens, hlexemes, hread, -, -, hblanks⟩ := scan_cut "1.2.3***5".toList
  obtain ⟨ws, hcut, hws⟩ := (htokens _).mp hscan
  have hblank : ∀ c ∈ [' ', '\t'], isBlank c = true := List.all_eq_true.mp (by decide)
  have hsplit := hblanks [' ', '\t'] ".x".toList (by decide) hblank
  rw [hscan, hpoint] at hsplit
  refine ⟨hscan, ⟨ws, hcut, ?_, hws⟩, hread _ _ hnumber, by decide, hblank, hsplit,
    _, hpoint, (scan_cut ".x".toList).2.2.2.1 _ hpoint⟩
  rw [(hlexemes ws hcut).1]
  decide

end Token

end DeskCalculator
