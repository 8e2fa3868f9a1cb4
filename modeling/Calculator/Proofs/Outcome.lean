/-!
# Steps that can fail

A computation in two steps has a result exactly if both steps have one, and
fails exactly if one of them is the first to fail. Proofs take the runs of the
model apart with these lemmas, one step at a time.
-/

set_option autoImplicit false

namespace Calculator

variable {ε α β : Type} {first : Except ε α}

theorem bind_eq_ok_iff {next : α → Except ε β} {result : β} :
    (first >>= next) = .ok result ↔ ∃ middle, first = .ok middle ∧ next middle = .ok result := by
  cases first with
  | error failure => exact ⟨nofun, nofun⟩
  | ok middle =>
      constructor
      · exact fun reached => ⟨middle, rfl, reached⟩
      · rintro ⟨_, ⟨⟩, reached⟩
        exact reached

theorem bind_eq_error_iff {next : α → Except ε β} {failure : ε} :
    (first >>= next) = .error failure ↔
      first = .error failure ∨ ∃ middle, first = .ok middle ∧ next middle = .error failure := by
  cases first with
  | error other =>
      constructor
      · rintro ⟨⟩
        exact .inl rfl
      · rintro (⟨⟨⟩⟩ | ⟨_, ⟨⟩, _⟩)
        rfl
  | ok middle =>
      constructor
      · exact fun failed => .inr ⟨middle, rfl, failed⟩
      · rintro (⟨⟨⟩⟩ | ⟨_, ⟨⟩, failed⟩)
        exact failed

/-! ## Without the result -/

/-- A computation fails as it does when its result is dropped. -/
theorem map_unit_eq_error_iff {failure : ε} :
    first.map (fun _ => ()) = .error failure ↔ first = .error failure := by
  cases first with
  | error other => simp [Except.map]
  | ok middle => simp [Except.map]

theorem map_unit_eq_ok_iff :
    first.map (fun _ => ()) = .ok () ↔ ∃ result, first = .ok result := by
  cases first with
  | error other => simp [Except.map]
  | ok middle => simp [Except.map]

end Calculator
