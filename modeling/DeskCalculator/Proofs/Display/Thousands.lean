import DeskCalculator.Proofs.Display.Lossless

/-!
# Groups of three digits

A number with separators is cut at them into groups, of which the first has one to three digits and
every other has three. A digit is followed by a comma where a multiple of three digits is left; what
is left then begins with a full group, and this is what the induction along the digits rests on.

Only the digits in front of the first point of a number are separated. Done once more, nothing
changes: either there were no more than three digits, or there is a comma among them now, and what
has a comma there is no number to separate.
-/

namespace DeskCalculator

/-- The groups that separators cut a whole number into. -/
def IsGrouping : List (List Char) → Prop
  | [] => True
  | g :: groups => 1 ≤ g.length ∧ g.length ≤ 3 ∧ ∀ h ∈ groups, h.length = 3

/-- The line is a number to separate: a minus sign or none, digits, and behind them nothing or a
point with anything that is not the letter of an exponent. A sign alone is no number. -/
structure IsSeparable (s : List Char) (negative : Bool) (digits rest : List Char) : Prop where
  eq_append : s = Double.sign negative ++ (digits ++ rest)
  isDigit_digits : ∀ c ∈ digits, c.isDigit = true
  head?_rest : ∀ c ∈ rest.head?, c = '.'
  ne_nil : digits ++ rest ≠ []
  lower_notMem : 'e' ∉ digits ++ rest
  upper_notMem : 'E' ∉ digits ++ rest

variable {s digits rest : List Char} {negative : Bool}

/-! ## Groups -/

theorem IsGrouping.length_flatten {g : List Char} {groups : List (List Char)}
    (h : IsGrouping (g :: groups)) :
    (g :: groups).flatten.length = g.length + 3 * groups.length := by
  have hthree : groups.map List.length = List.replicate groups.length 3 :=
    List.map_eq_replicate_iff.mpr h.2.2
  rw [List.flatten_cons, List.length_append, List.length_flatten, hthree, List.sum_replicate_nat,
    Nat.mul_comm]

/-- **Separated digits are groups with a comma between two.** -/
theorem exists_isGrouping (s : List Char) :
    ∃ groups, IsGrouping groups ∧ groups.flatten = s ∧
      [','].intercalate groups = groupDigits s := by
  induction s with
  | nil => exact ⟨[], trivial, rfl, rfl⟩
  | cons c s ih =>
    obtain ⟨groups, hgroups, rfl, hjoin⟩ := ih
    cases groups with
    | nil => exact ⟨[[c]], by simp [IsGrouping], rfl, rfl⟩
    | cons g groups =>
      have hlength := hgroups.length_flatten
      obtain ⟨hlow, hhigh, hrest⟩ := hgroups
      have hne : (g :: groups).flatten.isEmpty = false :=
        List.isEmpty_eq_false_iff.mpr (List.ne_nil_of_length_pos (by omega))
      rw [groupDigits, ← hjoin, hne, hlength, Nat.add_mul_mod_self_left]
      -- the digit begins a group if the group behind it is full, and joins that group otherwise
      by_cases hfull : g.length = 3
      · refine ⟨[c] :: g :: groups, ⟨Nat.le_refl 1, Nat.le_add_left 1 2, ?_⟩, rfl, ?_⟩
        · exact List.forall_mem_cons.mpr ⟨hfull, hrest⟩
        · rw [hfull]
          rfl
      · have hthree : g.length % 3 ≠ 0 := by omega
        refine ⟨(c :: g) :: groups, ⟨Nat.le_add_left 1 _, ?_, hrest⟩, rfl, ?_⟩
        · rw [List.length_cons]
          omega
        · rw [if_neg (by simp [hthree])]
          cases groups <;> rfl

theorem groupDigits_eq_self_or (s : List Char) : groupDigits s = s ∨ ',' ∈ groupDigits s := by
  induction s with
  | nil => exact .inl rfl
  | cons c s ih =>
    rw [groupDigits]
    split
    · exact .inr (by simp)
    · exact ih.imp (congrArg _) (List.mem_cons_of_mem c)

/-! ## Numbers -/

theorem group_sign_append (h : negative = false → ∀ c ∈ s.head?, c ≠ '-') :
    group (Double.sign negative ++ s)
      = Double.sign negative ++ if isGroupable s then groupUnsigned s else s := by
  cases negative with
  | true => exact (apply_ite (List.cons '-') (isGroupable s = true) (groupUnsigned s) s).symm
  | false =>
    rw [Double.sign_false, List.nil_append, List.nil_append]
    unfold group
    split
    · exact absurd rfl (h rfl '-' rfl)
    · rfl

/-- A line is a sign or none and something that no sign is passed over in. -/
theorem exists_eq_sign_append (s : List Char) :
    ∃ negative u, s = Double.sign negative ++ u ∧ (negative = false → ∀ c ∈ u.head?, c ≠ '-') := by
  by_cases h : s.head? = some '-'
  · obtain ⟨u, rfl⟩ := List.head?_eq_some_iff.mp h
    exact ⟨true, u, rfl, nofun⟩
  · refine ⟨false, s, rfl, ?_⟩
    rintro - c hc rfl
    exact h hc

theorem ne_point_of_isDigit (h : ∀ c ∈ digits, c.isDigit = true) :
    ∀ c ∈ digits, (c != '.') = true := by
  intro c hc
  rw [bne_iff_ne]
  rintro rfl
  exact absurd (h '.' hc) (by decide)

theorem ne_point_of_mem_groupDigits (h : ∀ c ∈ digits, c.isDigit = true) :
    ∀ c ∈ groupDigits digits, (c != '.') = true := by
  intro c hc
  rcases mem_groupDigits hc with hc | rfl
  · exact ne_point_of_isDigit h c hc
  · rfl

theorem isGroupable_iff :
    isGroupable s = true ↔
      s ≠ [] ∧ 'e' ∉ s ∧ 'E' ∉ s ∧ ∀ c ∈ s.takeWhile (· != '.'), c.isDigit = true := by
  simp [isGroupable, and_assoc]

theorem head?_dropWhile_ne_point (s : List Char) :
    ∀ c ∈ (s.dropWhile (· != '.')).head?, c = '.' := by
  intro c hc
  have h := head?_dropWhile_eq_false (· != '.') s c hc
  rwa [bne_eq_false_iff_eq] at h

theorem isSeparable_of_isGroupable (h : isGroupable s = true) :
    IsSeparable (Double.sign negative ++ s) negative (s.takeWhile (· != '.'))
      (s.dropWhile (· != '.')) := by
  obtain ⟨hne, hlower, hupper, hdigits⟩ := isGroupable_iff.mp h
  have hs : s.takeWhile (· != '.') ++ s.dropWhile (· != '.') = s :=
    List.takeWhile_append_dropWhile
  refine ⟨by rw [hs], hdigits, head?_dropWhile_ne_point s, ?_, ?_, ?_⟩ <;> rwa [hs]

namespace IsSeparable

theorem bne_point (h : IsSeparable s negative digits rest) :
    ∀ c ∈ rest.head?, (c != '.') = false := by
  intro c hc
  rw [h.head?_rest c hc]
  rfl

theorem isGroupable (h : IsSeparable s negative digits rest) :
    isGroupable (digits ++ rest) = true := by
  refine isGroupable_iff.mpr ⟨h.ne_nil, h.lower_notMem, h.upper_notMem, ?_⟩
  rw [takeWhile_stretch (ne_point_of_isDigit h.isDigit_digits) h.bne_point]
  exact h.isDigit_digits

theorem ne_minus {p : List Char} (h : IsSeparable s negative digits rest)
    (hp : ∀ c ∈ p, c ∈ digits ∨ c = ',') : ∀ c ∈ (p ++ rest).head?, c ≠ '-' := by
  rintro c hc rfl
  cases p with
  | nil => exact absurd (h.head?_rest '-' hc) (by decide)
  | cons d p =>
    cases hc
    rcases hp '-' List.mem_cons_self with hd | hd
    · exact absurd (h.isDigit_digits '-' hd) (by decide)
    · exact absurd hd (by decide)

theorem group_eq (h : IsSeparable s negative digits rest) :
    group s = Double.sign negative ++ (groupDigits digits ++ rest) := by
  have hdigits := ne_point_of_isDigit h.isDigit_digits
  rw [h.eq_append, group_sign_append fun _ ↦ h.ne_minus fun _ ↦ .inl, if_pos h.isGroupable,
    groupUnsigned, takeWhile_stretch hdigits h.bne_point, dropWhile_stretch hdigits h.bne_point]

theorem cut_group (h : IsSeparable s negative digits rest) :
    (group s).takeWhile (· != '.') = Double.sign negative ++ groupDigits digits ∧
      (group s).dropWhile (· != '.') = rest := by
  have hwhole : ∀ c ∈ Double.sign negative ++ groupDigits digits, (c != '.') = true := by
    refine List.forall_mem_append.mpr ⟨fun c hc ↦ ?_, ne_point_of_mem_groupDigits h.isDigit_digits⟩
    rw [Double.eq_of_mem_sign hc]
    rfl
  rw [h.group_eq, ← List.append_assoc]
  exact ⟨takeWhile_stretch hwhole h.bne_point, dropWhile_stretch hwhole h.bne_point⟩

theorem withoutCommas_cut_group (h : IsSeparable s negative digits rest) :
    withoutCommas ((group s).takeWhile (· != '.')) ++ (group s).dropWhile (· != '.') = s := by
  have hcomma : ',' ∉ Double.sign negative ++ digits := by
    refine List.not_mem_append (fun hc ↦ ?_) fun hc ↦ ?_
    · exact absurd (Double.eq_of_mem_sign hc) (by decide)
    · exact absurd (h.isDigit_digits ',' hc) (by decide)
  rw [h.cut_group.1, h.cut_group.2, withoutCommas_append, withoutCommas_groupDigits,
    ← withoutCommas_append, withoutCommas_eq_self hcomma, List.append_assoc, ← h.eq_append]

theorem group_group (h : IsSeparable s negative digits rest) : group (group s) = group s := by
  rcases groupDigits_eq_self_or digits with hself | hcomma
  · have hgroup : group s = s := by rw [h.group_eq, hself, ← h.eq_append]
    rw [hgroup, hgroup]
  · have hnot : ¬ DeskCalculator.isGroupable (groupDigits digits ++ rest) = true := by
      intro hgroupable
      have hall := (isGroupable_iff.mp hgroupable).2.2.2
      rw [takeWhile_stretch (ne_point_of_mem_groupDigits h.isDigit_digits) h.bne_point] at hall
      exact absurd (hall ',' hcomma) (by decide)
    rw [h.group_eq, group_sign_append fun _ ↦ h.ne_minus fun _ ↦ mem_groupDigits, if_neg hnot]

end IsSeparable

/-- Anything else is left alone. -/
theorem group_of_not_isSeparable
    (h : ∀ negative digits rest, ¬ IsSeparable s negative digits rest) : group s = s := by
  obtain ⟨negative, u, rfl, hu⟩ := exists_eq_sign_append s
  rw [group_sign_append hu, if_neg fun hu ↦ h _ _ _ (isSeparable_of_isGroupable hu)]

/-- **A number is separated in groups of three, and anything else is left alone.** Without the
separators the number is as before, from its first point on it is not touched, and separating once
more changes nothing. -/
theorem group_separable (s : List Char) :
    (∀ negative digits rest, IsSeparable s negative digits rest →
      (∃ groups, IsGrouping groups ∧ groups.flatten = digits ∧
        group s = Double.sign negative ++ ([','].intercalate groups ++ rest)) ∧
      withoutCommas ((group s).takeWhile (· != '.')) ++ (group s).dropWhile (· != '.') = s ∧
      (group s).dropWhile (· != '.') = rest) ∧
    ((∀ negative digits rest, ¬ IsSeparable s negative digits rest) → group s = s) ∧
    group (group s) = group s := by
  refine ⟨fun negative digits rest h ↦ ?_, group_of_not_isSeparable, ?_⟩
  · obtain ⟨groups, hgroups, hflatten, hjoin⟩ := exists_isGrouping digits
    refine ⟨⟨groups, hgroups, hflatten, ?_⟩, h.withoutCommas_cut_group, h.cut_group.2⟩
    rw [hjoin, h.group_eq]
  · by_cases h : ∃ negative digits rest, IsSeparable s negative digits rest
    · obtain ⟨negative, digits, rest, h⟩ := h
      exact h.group_group
    · have hself : group s = s := group_of_not_isSeparable fun negative digits rest hs ↦
        h ⟨negative, digits, rest, hs⟩
      rw [hself, hself]

/-- The comma behind the point is not a separator and stays. -/
theorem group_separable_million :
    IsSeparable "-1234567.8,9".toList true "1234567".toList ".8,9".toList ∧
    group "-1234567.8,9".toList = "-1,234,567.8,9".toList ∧
    (∃ groups, IsGrouping groups ∧ groups.flatten = "1234567".toList ∧
      group "-1234567.8,9".toList = ['-'] ++ ([','].intercalate groups ++ ".8,9".toList)) ∧
    group "1,234".toList = "1,234".toList := by
  have hnumber : IsSeparable "-1234567.8,9".toList true "1234567".toList ".8,9".toList :=
    ⟨rfl, List.all_eq_true.mp (by decide), by rintro c ⟨⟩; rfl, by decide, by decide, by decide⟩
  have hcomma : ∀ negative digits rest, ¬ IsSeparable "1,234".toList negative digits rest := by
    intro negative digits rest h
    have hsplit := h.eq_append
    cases negative with
    | true => exact absurd (List.cons.inj hsplit).1 (by decide)
    | false => exact absurd (hsplit ▸ h.isGroupable) (by decide)
  exact ⟨hnumber, by decide, ((group_separable _).1 _ _ _ hnumber).1,
    (group_separable _).2.1 hcomma⟩

end DeskCalculator
