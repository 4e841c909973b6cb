import DeskCalculator.Fault

/-!
# Computations that may be refused

A computation in several steps has a result only if each of its steps has one, and if all its steps
refuse with faults of one kind only, it does so too. What is let through as finite is the number
itself, and the only other outcome is that it is refused as not finite.
-/

namespace DeskCalculator

section Steps

variable {ε α β : Type} {x : Except ε α}

theorem exists_of_bind_eq_ok {f : α → Except ε β} {b : β} (h : (x >>= f) = .ok b) :
    ∃ a, x = .ok a ∧ f a = .ok b := by
  rcases x with e | a
  · exact absurd h nofun
  · exact ⟨a, rfl, h⟩

theorem exists_of_map_eq_ok {f : α → β} {b : β} (h : (f <$> x) = .ok b) :
    ∃ a, x = .ok a ∧ f a = b := by
  rcases x with e | a
  · exact absurd h nofun
  · exact ⟨a, rfl, Except.ok.inj h⟩

theorem error_of_map_eq_error {f : α → β} {e : ε} (h : (f <$> x) = .error e) : x = .error e := by
  rcases x with e' | a
  · exact congrArg Except.error (Except.error.inj h)
  · exact absurd h nofun

theorem eq_ok_of_toOption {a : α} (h : x.toOption = some a) : x = .ok a := by
  rcases x with e | b
  · exact absurd h nofun
  · exact congrArg Except.ok (Option.some.inj h)

theorem exists_of_toOption_eq_none (h : x.toOption = none) : ∃ e, x = .error e := by
  rcases x with e | a
  · exact ⟨e, rfl⟩
  · exact absurd h nofun

theorem toOption_bind (x : Except ε α) (f : α → Except ε β) :
    (x >>= f).toOption = x.toOption.bind fun a ↦ (f a).toOption := by
  cases x <;> rfl

/-- A computation that has the result wherever there is one, and refuses with this fault if there is
none, has no other result and no other fault. -/
theorem outcome_iff {p : α → Prop} {fault : ε} (hok : ∀ a, p a → x = .ok a)
    (herror : (∀ a, ¬ p a) → x = .error fault) :
    (∀ a, x = .ok a ↔ p a) ∧ ∀ e, x = .error e ↔ e = fault ∧ ∀ a, ¬ p a := by
  by_cases h : ∃ a, p a
  · obtain ⟨a, ha⟩ := h
    rw [hok a ha]
    refine ⟨fun b ↦ ⟨?_, fun hb ↦ (hok a ha).symm.trans (hok b hb)⟩, fun e ↦ ?_⟩
    · rintro ⟨⟩
      exact ha
    · exact iff_of_false nofun fun hnone ↦ hnone.2 a ha
  · rw [not_exists] at h
    rw [herror h]
    refine ⟨fun a ↦ iff_of_false nofun (h a), fun e ↦ ?_⟩
    rw [Except.error.injEq, eq_comm, and_iff_left h]

end Steps

section Kinds

variable {α β : Type} {p q : Fault → Prop} {x : Except Fault α}

/-- Every fault that the computation may end with is of this kind. -/
def RefusesOnly (p : Fault → Prop) (x : Except Fault α) : Prop := ∀ e, x = .error e → p e

theorem refusesOnly_ok (a : α) : RefusesOnly p (.ok a : Except Fault α) :=
  fun _ h ↦ absurd h nofun

theorem refusesOnly_error {e : Fault} (h : p e) : RefusesOnly p (.error e : Except Fault α) := by
  intro e' he
  rwa [← Except.error.inj he]

theorem RefusesOnly.mono (hx : RefusesOnly p x) (h : ∀ e, p e → q e) : RefusesOnly q x :=
  fun e he ↦ h e (hx e he)

theorem RefusesOnly.bind {f : α → Except Fault β} (hx : RefusesOnly p x)
    (hf : ∀ a, x = .ok a → RefusesOnly p (f a)) : RefusesOnly p (x >>= f) := by
  intro e he
  rcases x with e' | a
  · exact hx e (congrArg Except.error (Except.error.inj he))
  · exact hf a rfl e he

end Kinds

section Results

variable {ε α β : Type} {p : β → Prop} {x : Except ε α}

/-- If the computation has a result, the result has this property. -/
def ResultsIn (p : β → Prop) (x : Except ε β) : Prop := ∀ b, x = .ok b → p b

theorem resultsIn_ok {b : β} (h : p b) : ResultsIn p (.ok b : Except ε β) := by
  intro b' hb
  rwa [← Except.ok.inj hb]

theorem resultsIn_error (e : ε) : ResultsIn p (.error e : Except ε β) :=
  fun _ h ↦ absurd h nofun

/-- What holds of the result is decided by the last step. -/
theorem ResultsIn.bind {f : α → Except ε β} (hf : ∀ a, ResultsIn p (f a)) :
    ResultsIn p (x >>= f) := by
  intro b hb
  obtain ⟨a, -, ha⟩ := exists_of_bind_eq_ok hb
  exact hf a b ha

end Results

variable {v w : Float}

theorem finite_eq_ok_iff : finite v = .ok w ↔ v.isFinite = true ∧ v = w := by
  rw [finite]
  by_cases hv : v.isFinite = true
  · rw [if_pos hv, Except.ok.injEq, and_iff_right hv]
  · rw [if_neg hv]
    exact iff_of_false nofun fun h ↦ hv h.1

theorem finite_eq_error_iff {f : Fault} :
    finite v = .error f ↔ v.isFinite = false ∧ f = .notFinite := by
  rw [finite]
  by_cases hv : v.isFinite = true
  · rw [if_pos hv, hv]
    exact iff_of_false nofun nofun
  · rw [if_neg hv, Except.error.injEq, and_iff_right (Bool.eq_false_iff.mpr hv), eq_comm]

theorem eq_notFinite_of_finite {f : Fault} (h : finite v = .error f) : f = .notFinite := by
  rw [finite] at h
  split at h
  · exact absurd h nofun
  · exact (Except.error.inj h).symm

end DeskCalculator
