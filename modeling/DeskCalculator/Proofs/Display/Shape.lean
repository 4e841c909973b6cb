import DeskCalculator.Proofs.Display.Stable
import DeskCalculator.Proofs.Number.Places

/-!
# What a result looks like

A result is digits, with a minus sign in front or without, and with decimals behind a point or
without. There is nothing superfluous in it: no zero in front of the digits, none behind the
decimals, no sign at a zero. That there are ten decimals at most is not seen from the text, which is
not the number rounded to ten places but the shortest decimal of a magnitude near to it. Because the
rounded number reads back as that magnitude, it gives a bound on the places of the shortest one.
-/

namespace DeskCalculator

/-! ## The digits of a natural number -/

theorem head?_toDigits_ne {n : Nat} (hn : 0 < n) : (Nat.toDigits 10 n).head? ≠ some '0' := by
  induction n using Nat.strongRecOn with
  | ind n ih =>
    rw [Nat.toDigits_eq_if (by decide)]
    split
    · next hlt =>
      have hdigit : ∀ d < 10, 0 < d → Nat.digitChar d ≠ '0' := by decide
      rw [List.head?_cons]
      exact fun h ↦ hdigit n hlt hn (Option.some.inj h)
    · next hge =>
      have hquotient : 0 < n / 10 := Nat.div_pos (Nat.not_lt.mp hge) (by decide)
      rw [List.head?_append_of_ne_nil _ Nat.toDigits_ne_nil]
      exact ih (n / 10) (Nat.div_lt_self hn (by decide)) hquotient

theorem not_dvd_ofDigitChars_append {s : List Char} {c : Char} (hc : c.isDigit = true)
    (hzero : c ≠ '0') : ¬ 10 ∣ Nat.ofDigitChars 10 (s ++ [c]) 0 := by
  have hdigit : (c.toNat - 48) % 10 ≠ 0 := by
    have h := eq_of_isDigit (fun c ↦ c == '0' || (c.toNat - 48) % 10 != 0) (b := true)
      (by decide) hc
    simpa [hzero] using h
  rw [Nat.ofDigitChars_append, Nat.ofDigitChars_cons, Nat.ofDigitChars_nil]
  have hchar : '0'.toNat = 48 := rfl
  rw [hchar]
  omega

/-! ## Tidy literals -/

/-- A literal with nothing superfluous in it, and with so many decimals at most. -/
structure Literal.IsTidy (l : Literal) (places : Nat) : Prop where
  whole_eq : l.whole.head? = some '0' → l.whole = ['0']
  length_fraction_le : l.fraction.length ≤ places
  getLast?_fraction_ne : l.fraction.getLast? ≠ some '0'

theorem getLast?_fractionDigits_ne (places n : Nat) :
    (fractionDigits places n).getLast? ≠ some '0' := by
  intro h
  have hlast := getLast?_dropEndWhile (· == '0') (paddedDigits places n) '0' h
  exact absurd hlast (by decide)

/-- A number of units that is a multiple of larger ones has no decimals behind those. -/
theorem length_fractionDigits_le {places n e : Nat} (hp : 0 < places) (hn : n < 10 ^ places)
    (h : 10 ^ e ∣ n) : (fractionDigits places n).length ≤ places - e := by
  obtain ⟨k, hk⟩ := exists_fractionDigits_append places n
  have hlength : (fractionDigits places n).length + k = places := by
    have h := congrArg List.length hk
    rwa [List.length_append, List.length_replicate, length_paddedDigits hp hn] at h
  have hvalue : Nat.ofDigitChars 10 (fractionDigits places n) 0 * 10 ^ k = n := by
    have h := ofDigitChars_paddedDigits places n 0 hp hn
    rwa [← hk, Nat.ofDigitChars_append, Nat.ofDigitChars_replicate_zero, Nat.mul_zero, Nat.zero_add,
      Nat.mul_comm] at h
  rcases Nat.lt_or_ge k e with hlt | hge
  · obtain ⟨d, rfl⟩ := Nat.exists_eq_add_of_lt hlt
    have hten : 10 ∣ Nat.ofDigitChars 10 (fractionDigits places n) 0 := by
      rw [← hvalue, Nat.add_assoc, Nat.add_comm, Nat.pow_add, Nat.pow_succ] at h
      exact Nat.dvd_trans (Nat.dvd_mul_left _ _)
        (Nat.dvd_of_mul_dvd_mul_right (Nat.pow_pos (by decide)) h)
    -- the last decimal would be a zero, unless there is none
    rcases List.eq_nil_or_concat (fractionDigits places n) with hnil | ⟨s, c, hs⟩
    · rw [hnil]
      exact Nat.zero_le _
    · rw [List.concat_eq_append] at hs
      have hmem : c ∈ paddedDigits places n := by
        rw [← hk, hs]
        simp
      have hne : c ≠ '0' := by
        rintro rfl
        exact getLast?_fractionDigits_ne places n (by rw [hs, List.getLast?_concat])
      rw [hs] at hten
      exact absurd hten (not_dvd_ofDigitChars_append (isDigit_of_mem_paddedDigits hmem) hne)
  · omega

theorem isTidy_written {places n e : Nat} (hp : 0 < places) (he : e ≤ places) (h : 10 ^ e ∣ n) :
    (written places n).IsTidy (places - e) where
  whole_eq hhead := by
    have hwhole : n / 10 ^ places = 0 := by
      refine Nat.eq_zero_of_not_pos fun hpos ↦ ?_
      exact head?_toDigits_ne hpos hhead
    have htext : (written places n).whole = Nat.toDigits 10 (n / 10 ^ places) := rfl
    rw [htext, hwhole, Nat.toDigits_zero]
  length_fraction_le :=
    length_fractionDigits_le hp (Nat.mod_lt _ (Nat.pow_pos (by decide)))
      ((Nat.dvd_mod_iff (Nat.pow_dvd_pow 10 he)).mpr h)
  getLast?_fraction_ne := getLast?_fractionDigits_ne _ _

namespace Double

variable {x : Float}

/-! ## The places of a result -/

/-- One unit of the last place is read as a little more than it is. -/
theorem le_exact_nearest_one : 10 ^ (BinaryFormat.double.grain - resultPlaces) ≤
    BinaryFormat.double.exact (BinaryFormat.double.nearest 1 (10 ^ resultPlaces)) := by
  decide +kernel

theorem pow_dvd_shortest_shownCode_of_isWhole (hx : x.isFinite = true) (hwhole : isWhole x = true) :
    10 ^ BinaryFormat.double.grain ∣ BinaryFormat.double.shortest (shownCode x) := by
  refine BinaryFormat.double.pow_dvd_shortest_of_isWhole (by decide) (by decide)
    (Nat.le_of_lt (shownCode_lt hx)) ?_
  rw [shownCode_of_isWhole hwhole]
  exact (isWhole_iff x).mp hwhole

/-- **A result has no more places than it was rounded to.** -/
theorem isTidy_shownLiteral (hx : x.isFinite = true) : (shownLiteral x).IsTidy resultPlaces := by
  have hplaces : BinaryFormat.double.grain - (BinaryFormat.double.grain - resultPlaces)
      = resultPlaces := by decide
  rw [← hplaces]
  refine isTidy_written (by decide) (Nat.sub_le _ _) ?_
  cases hwhole : isWhole x with
  | true =>
    exact Nat.dvd_trans (Nat.pow_dvd_pow 10 (Nat.sub_le _ _))
      (pow_dvd_shortest_shownCode_of_isWhole hx hwhole)
  | false =>
    rw [shownCode_of_not_isWhole hwhole]
    exact BinaryFormat.double.pow_dvd_shortest_nearest (by decide) (by decide) (by decide)
      (by decide) le_exact_nearest_one _

theorem fraction_shownLiteral_of_isWhole (hx : x.isFinite = true) (hwhole : isWhole x = true) :
    (shownLiteral x).fraction = [] := by
  have htidy : (shownLiteral x).IsTidy (BinaryFormat.double.grain - BinaryFormat.double.grain) :=
    isTidy_written (by decide) (Nat.le_refl _) (pow_dvd_shortest_shownCode_of_isWhole hx hwhole)
  rw [Nat.sub_self] at htidy
  exact List.eq_nil_of_length_eq_zero (Nat.le_zero.mp htidy.length_fraction_le)

theorem shownCode_eq_zero_of_text (hx : x.isFinite = true) (h : (shownLiteral x).text = ['0']) :
    shownCode x = 0 := by
  have hcode : (shownLiteral x).numeral.code .double = shownCode x :=
    code_written_shortest (by decide) (Nat.le_of_lt (shownCode_lt hx))
  have hzero : (shownLiteral x).significand = 0 := by
    by_cases hfraction : (shownLiteral x).fraction = []
    · rw [Literal.text_of_fraction_eq_nil hfraction] at h
      simp only [Literal.significand, Numeral.significand, Literal.numeral, hfraction, h,
        List.append_nil]
      rfl
    · rw [Literal.text_of_fraction_ne_nil hfraction] at h
      have hpoint : '.' ∈ ['0'] := h ▸ List.mem_append_right _ List.mem_cons_self
      exact absurd hpoint (by decide)
  rw [← hcode, Literal.code_numeral, hzero,
    BinaryFormat.double.nearest_zero (Nat.pow_pos (by decide))]

/-! ## The text -/

/-- **What a result looks like.** The text of a finite number is a literal with a minus sign in
front or without: digits without a superfluous zero before them, then either nothing or a point and
up to ten decimals, the last of which is not a zero. It is not the text of a negative zero, and a
whole number has no point in it. -/
theorem resultText_shape {v : Float} (hv : v.isFinite = true) :
    ∃ (b : Bool) (l : Literal), resultText v = sign b ++ l.text ∧ l.IsTidy resultPlaces ∧
      resultText v ≠ ['-', '0'] ∧ (isWhole v = true → '.' ∉ resultText v) := by
  refine ⟨isShownNegative v, shownLiteral v, resultText_of_isFinite hv, isTidy_shownLiteral hv,
    fun h ↦ ?_, fun hwhole hpoint ↦ ?_⟩
  · rw [resultText_of_isFinite hv] at h
    cases hsign : isShownNegative v with
    | false =>
      obtain ⟨c, s, hs, hc⟩ := (shownLiteral v).exists_text_eq_cons
      rw [hsign, sign_false, List.nil_append, hs] at h
      rw [(List.cons.inj h).1] at hc
      exact absurd hc (by decide)
    | true =>
      rw [hsign, sign_true, List.singleton_append] at h
      have hzero := shownCode_eq_zero_of_text hv (List.cons.inj h).2
      rw [isShownNegative, hzero, bne_self_eq_false, Bool.and_false] at hsign
      cases hsign
  · rw [resultText_of_isFinite hv,
      Literal.text_of_fraction_eq_nil (fraction_shownLiteral_of_isWhole hv hwhole)] at hpoint
    rcases List.mem_append.mp hpoint with hsign | hdigit
    · exact absurd (eq_of_mem_sign hsign) (by decide)
    · exact absurd ((shownLiteral v).isDigit_whole _ hdigit) (by decide)

/-- Ten decimals of a third, none of a large whole number, no sign at what is rounded to zero. -/
theorem resultText_shape_third :
    ((-1.0 / 3.0 : Float).isFinite = true ∧ resultText (-1.0 / 3.0) = "-0.3333333333".toList ∧
      ∃ (b : Bool) (l : Literal), "-0.3333333333".toList = sign b ++ l.text ∧
        l.IsTidy resultPlaces) ∧
    ((1e22 : Float).isFinite = true ∧ isWhole 1e22 = true ∧ '.' ∉ resultText 1e22) ∧
    ((-1e-11 : Float).isFinite = true ∧ resultText (-1e-11) ≠ ['-', '0']) := by
  have hthird : (-1.0 / 3.0 : Float).isFinite = true := by decide +kernel
  have hthirdText : resultText (-1.0 / 3.0) = "-0.3333333333".toList := by decide +kernel
  have hlarge : (1e22 : Float).isFinite = true := by decide +kernel
  have hwhole : isWhole 1e22 = true := by decide +kernel
  have htiny : (-1e-11 : Float).isFinite = true := by decide +kernel
  obtain ⟨b, l, htext, htidy, -⟩ := resultText_shape hthird
  obtain ⟨-, -, -, -, -, hpoint⟩ := resultText_shape hlarge
  obtain ⟨-, -, -, -, hzero, -⟩ := resultText_shape htiny
  rw [hthirdText] at htext
  exact ⟨⟨hthird, hthirdText, b, l, htext, htidy⟩, ⟨hlarge, hwhole, hpoint hwhole⟩, htiny, hzero⟩

end Double

end DeskCalculator
