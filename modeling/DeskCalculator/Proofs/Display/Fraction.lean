import DeskCalculator.Proofs.Display.Characters
import DeskCalculator.Proofs.Formula.Unwrapped
import DeskCalculator.Proofs.Keypad.Sound

/-!
# Commas behind a point

The separators are meant for whole numbers, and the digits behind a point are left alone because the
point belongs to the number in front of it. A point without a number in front of it belongs to none,
so the digits behind it are separated like a whole number. Such a point can be typed: behind an
operator, a parenthesis or the variable. Then there is a comma behind it as soon as there are four
digits, and there is no other way to a comma behind a point.

A typed line is cut in front of whatever is neither a digit nor a point. Of the pieces each has one
point at most, and so there are only two kinds: digits, and digits on the two sides of a point.
-/

namespace DeskCalculator

variable {s t p q r : List Char} {c : Char}

/-- Digits directly behind a point have a comma between them. -/
def HasGroupedFraction (s : List Char) : Prop :=
  ∃ before f d after, s = before ++ '.' :: (f ++ ',' :: d :: after) ∧
    f ≠ [] ∧ (∀ c ∈ f, c.isDigit = true) ∧ d.isDigit = true

/-- A point that no digit stands in front of has four digits or more behind it. -/
def HasLooseFraction (s : List Char) : Prop :=
  ∃ before f after, s = before ++ '.' :: (f ++ after) ∧
    f.length = 4 ∧ (∀ c ∈ f, c.isDigit = true) ∧ ∀ c ∈ before.getLast?, c.isDigit = false

/-! ## Cutting a line -/

theorem append_eq_append_cons_iff {before after : List Char} (hc : c ∉ s) :
    s ++ t = before ++ c :: after ↔ ∃ u, before = s ++ u ∧ t = u ++ c :: after := by
  rw [List.append_eq_append_iff]
  refine or_iff_left_of_imp ?_
  rintro ⟨u, rfl, hu⟩
  cases u with
  | nil => exact ⟨[], by simp, hu.symm⟩
  | cons d u =>
    cases hu
    exact absurd (List.mem_append_right _ List.mem_cons_self) hc

theorem hasGroupedFraction_append (hs : '.' ∉ s) :
    HasGroupedFraction (s ++ t) ↔ HasGroupedFraction t := by
  constructor
  · rintro ⟨before, f, d, after, h, hf⟩
    obtain ⟨u, -, hu⟩ := (append_eq_append_cons_iff hs).mp h
    exact ⟨u, f, d, after, hu, hf⟩
  · rintro ⟨before, f, d, after, rfl, hf⟩
    exact ⟨s ++ before, f, d, after, (List.append_assoc _ _ _).symm, hf⟩

/-- What is behind a point begins with digits and a comma between them. -/
def BeginsGrouped (s : List Char) : Prop :=
  ∃ f d after, s = f ++ ',' :: d :: after ∧ f ≠ [] ∧ (∀ c ∈ f, c.isDigit = true) ∧ d.isDigit = true

theorem hasGroupedFraction_point :
    HasGroupedFraction ('.' :: s) ↔ BeginsGrouped s ∨ HasGroupedFraction s := by
  constructor
  · rintro ⟨_ | ⟨c, before⟩, f, d, after, h, hf⟩
    · exact .inl ⟨f, d, after, (List.cons.inj h).2, hf⟩
    · exact .inr ⟨before, f, d, after, (List.cons.inj h).2, hf⟩
  · rintro (⟨f, d, after, rfl, hf⟩ | ⟨before, f, d, after, rfl, hf⟩)
    · exact ⟨[], f, d, after, rfl, hf⟩
    · exact ⟨'.' :: before, f, d, after, rfl, hf⟩

theorem forall_getLast?_cons (hc : c.isDigit = false) :
    (∀ d ∈ (c :: s).getLast?, d.isDigit = false) ↔ ∀ d ∈ s.getLast?, d.isDigit = false := by
  rw [List.getLast?_cons]
  cases s.getLast? with
  | none =>
    refine iff_of_true ?_ fun d hd ↦ absurd hd (Option.not_mem_none d)
    rintro d ⟨⟩
    exact hc
  | some d => rfl

/-- Behind what is neither a digit nor a loose point a line goes on as a line of its own. -/
theorem hasLooseFraction_append_cons (hp : ∀ d ∈ p, d.isDigit = true) (hc : c.isDigit = false)
    (hloose : c = '.' → p ≠ []) : HasLooseFraction (p ++ c :: s) ↔ HasLooseFraction s := by
  have hpoint : '.' ∉ p := fun h ↦ absurd (hp '.' h) (by decide)
  constructor
  · rintro ⟨before, f, after, h, hlength, hf, hlast⟩
    obtain ⟨u, rfl, hu⟩ := (append_eq_append_cons_iff hpoint).mp h
    cases u with
    | nil =>
      have hne := hloose (List.cons.inj hu).1
      rw [List.append_nil] at hlast
      have hfalse := hlast _ (List.getLast?_eq_some_getLast hne)
      rw [hp _ (List.getLast_mem hne)] at hfalse
      cases hfalse
    | cons d u =>
      cases hu
      rw [List.getLast?_append_of_ne_nil _ (List.cons_ne_nil _ _)] at hlast
      exact ⟨u, f, after, rfl, hlength, hf, (forall_getLast?_cons hc).mp hlast⟩
  · rintro ⟨before, f, after, rfl, hlength, hf, hlast⟩
    refine ⟨p ++ c :: before, f, after, by simp, hlength, hf, ?_⟩
    rw [List.getLast?_append_of_ne_nil _ (List.cons_ne_nil _ _)]
    exact (forall_getLast?_cons hc).mpr hlast

theorem not_hasLooseFraction (h : '.' ∉ s) : ¬ HasLooseFraction s := by
  rintro ⟨before, f, after, rfl, -⟩
  exact h (by simp)

theorem not_hasGroupedFraction (h : '.' ∉ s) : ¬ HasGroupedFraction s := by
  rintro ⟨before, f, d, after, rfl, -⟩
  exact h (by simp)

theorem hasLooseFraction_digits_append (hq : ∀ d ∈ q, d.isDigit = true)
    (hr : Literal.IsEnd r) : HasLooseFraction (q ++ r) ↔ HasLooseFraction r := by
  cases r with
  | nil =>
    rw [List.append_nil]
    refine iff_of_false (not_hasLooseFraction fun h ↦ ?_) (not_hasLooseFraction List.not_mem_nil)
    exact absurd (hq '.' h) (by decide)
  | cons c r =>
    obtain ⟨hdigit, hpoint⟩ := hr c rfl
    have hnone : ∀ d ∈ ([] : List Char), d.isDigit = true := isDigit_of_mem_nil
    rw [hasLooseFraction_append_cons hq hdigit fun h ↦ absurd h hpoint]
    exact (hasLooseFraction_append_cons hnone hdigit fun h ↦ absurd h hpoint).symm

theorem hasLooseFraction_point (hq : ∀ d ∈ q, d.isDigit = true) (hr : Literal.IsEnd r) :
    HasLooseFraction ('.' :: (q ++ r)) ↔ 4 ≤ q.length ∨ HasLooseFraction r := by
  rw [← hasLooseFraction_digits_append hq hr]
  constructor
  · rintro ⟨_ | ⟨c, before⟩, f, after, h, hlength, hf, hlast⟩
    · left
      have htake := congrArg (List.takeWhile Char.isDigit) (List.cons.inj h).2
      rw [takeWhile_stretch hq fun c hc ↦ (hr c hc).1, List.takeWhile_append_of_pos hf] at htake
      rw [htake, List.length_append]
      omega
    · right
      obtain ⟨rfl, hrest⟩ := List.cons.inj h
      exact ⟨before, f, after, hrest, hlength, hf, (forall_getLast?_cons rfl).mp hlast⟩
  · rintro (hlength | ⟨before, f, after, h, hlength, hf, hlast⟩)
    · refine ⟨[], q.take 4, q.drop 4 ++ r, ?_, by simpa using hlength,
        fun c hc ↦ hq c (List.mem_of_mem_take hc), fun _ hc ↦ absurd hc (Option.not_mem_none _)⟩
      rw [← List.append_assoc, List.take_append_drop]
      rfl
    · refine ⟨'.' :: before, f, after, ?_, hlength, hf, (forall_getLast?_cons rfl).mpr hlast⟩
      rw [h, List.cons_append]

/-! ## Separating thousands -/

theorem groupDigits_of_length_le (h : s.length ≤ 3) : groupDigits s = s := by
  match s with
  | [] | [_] | [_, _] | [_, _, _] => rfl

theorem beginsGrouped_groupDigits (hs : ∀ d ∈ s, d.isDigit = true) (h : 4 ≤ s.length) :
    BeginsGrouped (groupDigits s) := by
  induction s with
  | nil => exact absurd h (by decide)
  | cons c s ih =>
    rw [List.forall_mem_cons] at hs
    rw [List.length_cons] at h
    rw [groupDigits]
    split
    · cases s with
      | nil => exact absurd h (by decide)
      | cons d s =>
        have hd := hs.2 d List.mem_cons_self
        have hc : ∀ e ∈ [c], e.isDigit = true := List.forall_mem_singleton.mpr hs.1
        rw [groupDigits]
        split
        · exact ⟨[c], d, _, rfl, List.cons_ne_nil _ _, hc, hd⟩
        · exact ⟨[c], d, _, rfl, List.cons_ne_nil _ _, hc, hd⟩
    · next hthree =>
      have hlength : 4 ≤ s.length := by
        refine Nat.lt_of_le_of_ne (Nat.le_of_lt_succ h) fun heq ↦ hthree ?_
        rw [← heq, List.isEmpty_eq_false_iff.mpr (List.ne_nil_of_length_pos (by omega))]
        rfl
      obtain ⟨f, d, after, hgroup, -, hf, hd⟩ := ih hs.2 hlength
      exact ⟨c :: f, d, after, by rw [hgroup]; rfl, List.cons_ne_nil c f,
        List.forall_mem_cons.mpr ⟨hs.1, hf⟩, hd⟩

/-- Digits without a comma behind them have none between them. -/
theorem not_beginsGrouped_append (hq : ∀ d ∈ q, d.isDigit = true)
    (hr : ∀ c ∈ r.head?, c.isDigit = false ∧ c ≠ ',') : ¬ BeginsGrouped (q ++ r) := by
  rintro ⟨f, d, after, h, -, hf, -⟩
  have hcomma : ∀ c ∈ (',' :: d :: after).head?, c.isDigit = false := by
    rintro c ⟨⟩
    rfl
  have hdrop := congrArg (List.dropWhile Char.isDigit) h
  rw [dropWhile_stretch hq fun c hc ↦ (hr c hc).1, dropWhile_stretch hf hcomma] at hdrop
  rw [hdrop] at hr
  exact (hr ',' rfl).2 rfl

theorem beginsGrouped_groupDigits_append_iff (hq : ∀ d ∈ q, d.isDigit = true)
    (hr : ∀ c ∈ r.head?, c.isDigit = false ∧ c ≠ ',') :
    BeginsGrouped (groupDigits q ++ r) ↔ 4 ≤ q.length := by
  constructor
  · intro h
    by_contra hlength
    rw [groupDigits_of_length_le (by omega)] at h
    exact not_beginsGrouped_append hq hr h
  · intro h
    obtain ⟨f, d, after, hgroup, hf⟩ := beginsGrouped_groupDigits hq h
    exact ⟨f, d, after ++ r, by rw [hgroup, List.append_assoc]; rfl, hf⟩

theorem point_notMem_groupDigits (hp : ∀ d ∈ p, d.isDigit = true) : '.' ∉ groupDigits p := by
  intro h
  rcases mem_groupDigits h with h | h
  · exact absurd (hp '.' h) (by decide)
  · exact absurd h (by decide)

/-! ## Numbers of a line -/

theorem group_append (hp : ∀ d ∈ p, d.isDigit = true) (hne : p ≠ [])
    (ht : ∀ d ∈ t, d.isDigit = true ∨ d = '.') (hhead : ∀ d ∈ t.head?, d = '.') :
    group (p ++ t) = groupDigits p ++ t := by
  have hall : ∀ d ∈ p ++ t, d.isDigit = true ∨ d = '.' :=
    List.forall_mem_append.mpr ⟨fun d hd ↦ .inl (hp d hd), ht⟩
  have hletter : ∀ d, d.isDigit = false → d ≠ '.' → (p ++ t).contains d = false := by
    intro d hdigit hpoint
    rw [← Bool.not_eq_true, List.contains_iff_mem]
    intro hd
    refine (hall d hd).elim (fun h ↦ ?_) hpoint
    rw [hdigit] at h
    cases h
  have hwhole : ∀ d ∈ p, (d != '.') = true := by
    intro d hd
    rw [bne_iff_ne]
    rintro rfl
    exact absurd (hp '.' hd) (by decide)
  have hpoint : ∀ d ∈ t.head?, (d != '.') = false := fun d hd ↦ by
    rw [hhead d hd]
    rfl
  have htake := takeWhile_stretch hwhole hpoint
  have hempty : (p ++ t).isEmpty = false :=
    List.isEmpty_eq_false_iff.mpr (List.append_ne_nil_of_left_ne_nil hne t)
  have hgroupable : isGroupable (p ++ t) = true := by
    rw [isGroupable, hempty, hletter 'e' (by decide) (by decide),
      hletter 'E' (by decide) (by decide), htake, List.all_eq_true.mpr hp]
    rfl
  unfold group
  split
  · next rest heq =>
    have hminus := hall '-' (by rw [heq]; exact List.mem_cons_self)
    exact absurd hminus (by decide)
  · rw [if_pos hgroupable, groupUnsigned, htake, dropWhile_stretch hwhole hpoint]

@[simp] theorem groupNumbers_nil : groupNumbers [] = [] := by
  rw [groupNumbers]

theorem groupNumbers_cons (hc : isDecimalDigit c = false) (s : List Char) :
    groupNumbers (c :: s) = c :: groupNumbers s := by
  rw [groupNumbers, dif_neg (Bool.eq_false_iff.mp hc)]

theorem head?_groupNumbers (hr : ∀ c ∈ r.head?, isDecimalDigit c = false) :
    (groupNumbers r).head? = r.head? := by
  cases r with
  | nil => simp
  | cons c r => simp [groupNumbers_cons (hr c rfl)]

theorem groupNumbers_of_leadingNumber {n : List Char × List Char} (hp : ∀ d ∈ p, d.isDigit = true)
    (hne : p ≠ []) (h : leadingNumber (p ++ r) = n) :
    groupNumbers (p ++ r) = group n.1 ++ groupNumbers n.2 := by
  obtain ⟨c, p, rfl⟩ := List.exists_cons_of_ne_nil hne
  have hc := isDecimalDigit_of_isDigit (hp c List.mem_cons_self)
  rw [List.cons_append] at h ⊢
  rw [groupNumbers, dif_pos hc, h]

/-- The digits in front of what ends a number are separated. -/
theorem groupNumbers_digits_append (hp : ∀ d ∈ p, d.isDigit = true)
    (hr : ∀ c ∈ r.head?, isDecimalDigit c = false ∧ c ≠ '.') :
    groupNumbers (p ++ r) = groupDigits p ++ groupNumbers r := by
  rcases eq_or_ne p [] with rfl | hne
  · rfl
  have hp' : ∀ d ∈ p, isDecimalDigit d = true := fun d hd ↦ isDecimalDigit_of_isDigit (hp d hd)
  have hr' : ∀ c ∈ r.head?, isDecimalDigit c = false := fun c hc ↦ (hr c hc).1
  have hleading : leadingNumber (p ++ r) = (p, r) := by
    rw [leadingNumber, takeWhile_stretch hp' hr', dropWhile_stretch hp' hr']
    cases r with
    | nil => rfl
    | cons c r => simp [(hr c rfl).2]
  have hgroup := group_append hp hne (t := []) (by simp) (by simp)
  rw [List.append_nil, List.append_nil] at hgroup
  rw [groupNumbers_of_leadingNumber hp hne hleading, hgroup]

theorem groupNumbers_point_append (hp : ∀ d ∈ p, d.isDigit = true) (hne : p ≠ [])
    (hq : ∀ d ∈ q, d.isDigit = true) (hr : ∀ c ∈ r.head?, isDecimalDigit c = false) :
    groupNumbers (p ++ '.' :: (q ++ r)) = groupDigits p ++ '.' :: (q ++ groupNumbers r) := by
  have hp' : ∀ d ∈ p, isDecimalDigit d = true := fun d hd ↦ isDecimalDigit_of_isDigit (hp d hd)
  have hq' : ∀ d ∈ q, isDecimalDigit d = true := fun d hd ↦ isDecimalDigit_of_isDigit (hq d hd)
  have hpoint := Literal.isDecimalDigit_point (q ++ r)
  have hleading : leadingNumber (p ++ '.' :: (q ++ r))
      = if q.isEmpty then (p, '.' :: (q ++ r)) else (p ++ '.' :: q, r) := by
    rw [leadingNumber, takeWhile_stretch hp' hpoint, dropWhile_stretch hp' hpoint]
    simp only [takeWhile_stretch hq' hr, dropWhile_stretch hq' hr]
  rw [groupNumbers_of_leadingNumber hp hne hleading]
  rcases eq_or_ne q [] with rfl | hqne
  · have hgroup := group_append hp hne (t := []) (by simp) (by simp)
    rw [List.append_nil, List.append_nil] at hgroup
    rw [List.isEmpty_nil, if_pos rfl, hgroup, List.nil_append, groupNumbers_cons (by decide),
      List.nil_append]
  · have hgroup := group_append hp hne (t := '.' :: q)
      (List.forall_mem_cons.mpr ⟨.inr rfl, fun d hd ↦ .inl (hq d hd)⟩) (by rintro d ⟨⟩; rfl)
    rw [List.isEmpty_eq_false_iff.mpr hqne, if_neg Bool.false_ne_true, hgroup, List.append_assoc,
      List.cons_append]

/-! ## Typed lines -/

/-- The characters that keys put on a line. -/
def isTypedChar (c : Char) : Bool := c.isDigit || "+-*/%.()x=^".toList.contains c

theorem isDigit_of_isTypedChar (h : isTypedChar c = true) (hc : isDecimalDigit c = true) :
    c.isDigit = true := by
  have hsigns : "+-*/%.()x=^".toList.all (fun c ↦ !isDecimalDigit c) = true := by decide
  refine (Bool.or_eq_true_iff.mp h).resolve_right fun h ↦ ?_
  have hnot := List.all_eq_true.mp hsigns c (List.contains_iff_mem.mp h)
  rw [hc] at hnot
  cases hnot

/-- A line of typed characters in which no number has two points. -/
structure IsTypedLine (s : List Char) : Prop where
  isTypedChar : ∀ c ∈ s, isTypedChar c = true
  count_point_le : ∀ t, t <:+: s → (∀ c ∈ t, c.isDigit = true ∨ c = '.') → t.count '.' ≤ 1

theorem IsTypedLine.of_append (h : IsTypedLine (s ++ t)) : IsTypedLine t where
  isTypedChar := (List.forall_mem_append.mp h.isTypedChar).2
  count_point_le u hu := h.count_point_le u (hu.trans (List.suffix_append s t).isInfix)

theorem IsTypedLine.of_cons (h : IsTypedLine (c :: s)) : IsTypedLine s := of_append (s := [c]) h

theorem IsTypedLine.exists_digits_append (h : IsTypedLine s) :
    ∃ p t, s = p ++ t ∧ (∀ d ∈ p, d.isDigit = true) ∧
      ∀ c ∈ t.head?, isDecimalDigit c = false ∧ c ≠ ',' := by
  refine ⟨s.takeWhile isDecimalDigit, s.dropWhile isDecimalDigit,
    List.takeWhile_append_dropWhile.symm, fun d hd ↦ ?_, fun c hc ↦ ⟨?_, ?_⟩⟩
  · exact isDigit_of_isTypedChar (h.isTypedChar d ((List.takeWhile_sublist _).subset hd))
      (List.all_eq_true.mp List.all_takeWhile d hd)
  · exact head?_dropWhile_eq_false isDecimalDigit s c hc
  · rintro rfl
    have hmem := (List.dropWhile_sublist _).subset (List.mem_of_mem_head? hc)
    exact absurd (h.isTypedChar ',' hmem) (by decide)

theorem IsTypedLine.ne_point (h : IsTypedLine (p ++ '.' :: (q ++ r)))
    (hp : ∀ d ∈ p, d.isDigit = true) (hq : ∀ d ∈ q, d.isDigit = true) :
    ∀ c ∈ r.head?, c ≠ '.' := by
  rintro c hc rfl
  obtain ⟨u, rfl⟩ := List.head?_eq_some_iff.mp hc
  have hinfix : p ++ '.' :: (q ++ ['.']) <:+: p ++ '.' :: (q ++ '.' :: u) := ⟨[], u, by simp⟩
  have hcount := h.count_point_le _ hinfix (List.forall_mem_append.mpr
    ⟨fun d hd ↦ .inl (hp d hd), List.forall_mem_cons.mpr ⟨.inr rfl, List.forall_mem_append.mpr
      ⟨fun d hd ↦ .inl (hq d hd), List.forall_mem_singleton.mpr (.inr rfl)⟩⟩⟩)
  rw [List.count_append, List.count_cons_self, List.count_append,
    List.count_singleton_self] at hcount
  omega

/-- **What is separated behind a point.** The line is cut behind each number. -/
theorem IsTypedLine.hasGroupedFraction_iff (h : IsTypedLine s) :
    HasGroupedFraction (groupNumbers s) ↔ HasLooseFraction s := by
  induction hlength : s.length using Nat.strongRecOn generalizing s with
  | ind n ih =>
  subst hlength
  obtain ⟨p, t, rfl, hp, ht⟩ := h.exists_digits_append
  have hpoint := point_notMem_groupDigits hp
  cases t with
  | nil =>
    rw [groupNumbers_digits_append hp (by simp), groupNumbers_nil, List.append_nil, List.append_nil]
    refine iff_of_false (not_hasGroupedFraction hpoint) (not_hasLooseFraction fun h ↦ ?_)
    exact absurd (hp '.' h) (by decide)
  | cons c y =>
    have hc := (ht c rfl).1
    by_cases hcpoint : c = '.'
    · subst hcpoint
      obtain ⟨q, r, rfl, hq, hr⟩ := h.of_append.of_cons.exists_digits_append
      have hrpoint := h.ne_point hp hq
      have hrend : Literal.IsEnd r :=
        fun c hc ↦ ⟨isDigit_of_not_isDecimalDigit (hr c hc).1, hrpoint c hc⟩
      have hrhead : ∀ c ∈ (groupNumbers r).head?, c.isDigit = false ∧ c ≠ ',' := by
        rw [head?_groupNumbers fun c hc ↦ (hr c hc).1]
        exact fun c hc ↦ ⟨(hrend c hc).1, (hr c hc).2⟩
      have hrest := ih _ (by simp; omega) h.of_append.of_cons.of_append rfl
      rcases eq_or_ne p [] with rfl | hne
      -- a loose point: the digits behind it are separated like a whole number
      · rw [List.nil_append, groupNumbers_cons (by decide),
          groupNumbers_digits_append hq fun c hc ↦ ⟨(hr c hc).1, hrpoint c hc⟩,
          hasGroupedFraction_point, beginsGrouped_groupDigits_append_iff hq hrhead,
          hasGroupedFraction_append (point_notMem_groupDigits hq), hrest,
          hasLooseFraction_point hq hrend]
      · have hqpoint : '.' ∉ q := fun h ↦ absurd (hq '.' h) (by decide)
        rw [groupNumbers_point_append hp hne hq fun c hc ↦ (hr c hc).1,
          hasGroupedFraction_append hpoint, hasGroupedFraction_point,
          hasGroupedFraction_append hqpoint, hrest,
          hasLooseFraction_append_cons hp rfl fun _ ↦ hne, hasLooseFraction_digits_append hq hrend]
        exact or_iff_right (not_beginsGrouped_append hq hrhead)
    · have hsep : '.' ∉ groupDigits p ++ [c] := by simp [hpoint, Ne.symm hcpoint]
      rw [groupNumbers_digits_append hp (by rintro d ⟨⟩; exact ⟨hc, hcpoint⟩), groupNumbers_cons hc,
        List.append_cons, hasGroupedFraction_append hsep,
        hasLooseFraction_append_cons hp (isDigit_of_not_isDecimalDigit hc) fun h ↦ absurd h hcpoint]
      exact ih _ (by simp; omega) h.of_append.of_cons rfl

namespace Buffer

theorem isTypedChar_of_isOperatorKey (hc : isOperatorKey c = true) : isTypedChar c = true := by
  have hall : "+-*/%".toList.all isTypedChar = true := by decide
  exact List.all_eq_true.mp hall c (List.contains_iff_mem.mp hc)

theorem isTypedChar_appendOperator (hs : ∀ c ∈ s, isTypedChar c = true) {k : Char}
    (hk : isOperatorKey k = true) : ∀ c ∈ appendOperator s k, isTypedChar c = true := by
  have htyped := isTypedChar_of_isOperatorKey hk
  fun_cases appendOperator s k with
  | case2 => exact List.forall_mem_cons.mpr ⟨by decide, List.forall_mem_singleton.mpr htyped⟩
  | case5 =>
    refine List.forall_mem_append.mpr ⟨fun c hc ↦ hs c ?_, List.forall_mem_singleton.mpr htyped⟩
    exact (isPrefix_dropEndWhile isOperatorKey s).subset hc
  | _ => exact List.all_eq_true.mp (by decide)

theorem isTypedChar_append (hs : ∀ c ∈ s, isTypedChar c = true) (k : Char) :
    ∀ c ∈ append s k, isTypedChar c = true := by
  have hbehind : ∀ t : List Char, t.all isTypedChar = true → ∀ c ∈ s ++ t, isTypedChar c = true :=
    fun t ht ↦ List.forall_mem_append.mpr ⟨hs, List.all_eq_true.mp ht⟩
  have hdigit : ∀ {d : Char}, d.isDigit = true → isTypedChar d = true := fun h ↦ by
    rw [isTypedChar, h, Bool.true_or]
  fun_cases append s k with
  | case1 _ hk => exact List.forall_mem_singleton.mpr (hdigit hk)
  | case2 _ hk => exact hbehind [k] (by rw [List.all_cons, hdigit hk, List.all_nil]; rfl)
  | case3 => exact isTypedChar_appendOperator hs (by assumption)
  | case5 | case11 | case20 => exact hs
  | case6 | case8 | case9 | case10 | case13 | case15 | case17 | case19 =>
    exact hbehind _ (by decide)
  | _ => exact List.all_eq_true.mp (by decide)

theorem isTypedChar_cleared : ∀ c ∈ cleared, isTypedChar c = true :=
  List.all_eq_true.mp (by decide)

theorem isTypedChar_edit (hs : ∀ c ∈ s, isTypedChar c = true) (e : Edit) :
    ∀ c ∈ edit s e, isTypedChar c = true := by
  cases e with
  | key k => exact isTypedChar_append hs k
  | backspace =>
    rw [edit, Buffer.backspace]
    split
    · exact isTypedChar_cleared
    · split
      · exact isTypedChar_cleared
      · exact fun c hc ↦ hs c (List.mem_of_mem_dropLast hc)
  | clear => exact isTypedChar_cleared

theorem isTypedChar_foldl_edit (hs : ∀ c ∈ s, isTypedChar c = true) (edits : List Edit) :
    ∀ c ∈ edits.foldl edit s, isTypedChar c = true := by
  induction edits generalizing s with
  | nil => exact hs
  | cons e edits ih => exact ih (isTypedChar_edit hs e)

/-- What a run of edits makes of the line at rest. -/
theorem isTypedLine_foldl_edit (edits : List Edit) : IsTypedLine (edits.foldl edit cleared) where
  isTypedChar := isTypedChar_foldl_edit isTypedChar_cleared edits
  count_point_le := (isSound_cleared.foldl_edit edits).count_point_le

/-- **Where a typed line is shown with commas behind a point**: exactly if a point with no digit in
front of it has four digits or more behind it. Such a point can be typed. -/
theorem hasGroupedFraction_displayedLine_iff (edits : List Edit) :
    HasGroupedFraction (displayedLine (edits.foldl edit cleared)) ↔
      HasLooseFraction (edits.foldl edit cleared) := by
  have hne := (isSound_cleared.foldl_edit edits).ne_nil
  rw [displayedLine, List.isEmpty_eq_false_iff.mpr hne, if_neg Bool.false_ne_true]
  exact (isTypedLine_foldl_edit edits).hasGroupedFraction_iff

example : [.key '1', .key '+', .key '.', .key '1', .key '2', .key '3', .key '4'].foldl edit cleared
      = "1+.1234".toList ∧ displayedLine "1+.1234".toList = "1+.1,234".toList := by
  decide +kernel

end Buffer

end DeskCalculator
