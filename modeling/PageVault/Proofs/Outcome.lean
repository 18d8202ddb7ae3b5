import PageVault.Cursor

/-!
# Outcomes of steps in a row

A computation that may fail succeeds exactly if all of its steps do, and fails with
the error of the first step that does.  Every later proof that opens a sequence of
steps goes through these equivalences, for plain outcomes and for readings.
-/

namespace PageVault

variable {ε α β : Type}

namespace Outcome

instance decidableEq [DecidableEq ε] [DecidableEq α] : DecidableEq (Except ε α)
  | .ok _, .ok _ => decidable_of_iff _ ⟨congrArg Except.ok, Except.ok.inj⟩
  | .error _, .error _ => decidable_of_iff _ ⟨congrArg Except.error, Except.error.inj⟩
  | .ok _, .error _ => .isFalse nofun
  | .error _, .ok _ => .isFalse nofun

theorem map_eq_ok {r : Except ε α} {f : α → β} {b : β} :
    r.map f = .ok b ↔ ∃ a, r = .ok a ∧ f a = b := by
  cases r with
  | error e => simp [Except.map]
  | ok a => simp [Except.map]

theorem bind_eq_ok {r : Except ε α} {f : α → Except ε β} {b : β} :
    (r >>= f) = .ok b ↔ ∃ a, r = .ok a ∧ f a = .ok b := by
  cases r with
  | error e => simp [bind, Except.bind]
  | ok a => simp [bind, Except.bind]

theorem bind_eq_error {r : Except ε α} {f : α → Except ε β} {e : ε} :
    (r >>= f) = .error e ↔ r = .error e ∨ ∃ a, r = .ok a ∧ f a = .error e := by
  cases r with
  | error e' => simp [bind, Except.bind]
  | ok a => simp [bind, Except.bind]

/-- Two steps in a row have the same outcome as two others if the first ones have, and the
second ones behind whatever the first can give. -/
theorem bind_congr {r r' : Except ε α} {f g : α → Except ε β} (hr : r' = r)
    (h : ∀ a, r = .ok a → g a = f a) : (r' >>= g) = (r >>= f) := by
  subst hr
  cases r' with
  | error e => rfl
  | ok a => exact h a rfl

/-- An outcome that is an error where `p` holds and a success elsewhere. -/
theorem exists_error_iff {r : Except ε α} {p : Prop}
    (h : (p ∧ ∃ e, r = .error e) ∨ (¬ p ∧ ∃ a, r = .ok a)) : (∃ e, r = .error e) ↔ p := by
  rcases h with ⟨hp, he⟩ | ⟨hp, a, ha⟩
  · exact ⟨fun _ => hp, fun _ => he⟩
  · constructor
    · rintro ⟨e, he⟩
      rw [ha] at he
      cases he
    · intro hp'
      exact absurd hp' hp

end Outcome

namespace Reading

variable {α β : Type}

theorem bind_eq_ok {m : Reading α} {f : α → Reading β} {c c' : Cursor} {b : β} :
    (m >>= f) c = (.ok b, c') ↔ ∃ a c₁, m c = (.ok a, c₁) ∧ f a c₁ = (.ok b, c') := by
  show bind m f c = _ ↔ _
  unfold bind
  rcases m c with ⟨_ | a, c₁⟩
  · simp
  · constructor
    · intro h
      exact ⟨a, c₁, rfl, h⟩
    · rintro ⟨a', c₂, h, hf⟩
      cases h
      exact hf

theorem pure_eq_ok {a b : α} {c c' : Cursor} :
    (Pure.pure a : Reading α) c = (.ok b, c') ↔ a = b ∧ c = c' := by
  show ((Except.ok a : Except Error α), c) = (.ok b, c') ↔ _
  simp

theorem lift_eq_ok {r : Except Error α} {a : α} {c c' : Cursor} :
    lift r c = (.ok a, c') ↔ r = .ok a ∧ c = c' := by
  simp [lift]

theorem fail_ne_ok {e : Error} {a : α} {c c' : Cursor} : fail e c ≠ (.ok a, c') := by
  simp [fail, lift]

/-- A successful `take` gives as many bytes as were asked for. -/
theorem length_of_take_eq_ok {n : Nat} {field : String} {c c' : Cursor} {b : Bytes}
    (h : take n field c = (.ok b, c')) : b.length = n := by
  rcases Nat.lt_or_ge c.data.length (c.position + n) with hlt | hle
  · rw [take_eq_error hlt] at h
    cases h
  · rw [take_eq_ok hle] at h
    cases h
    rw [List.length_take, Cursor.length_remaining]
    omega

end Reading

end PageVault
