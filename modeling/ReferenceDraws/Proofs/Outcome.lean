import ReferenceDraws.Log

/-!
# Results that may fail

How a result of several steps opens up.  A sequence succeeds exactly when
each of its steps does (`bind_eq_ok_iff`, `andThen_eq_ok_iff`), and it fails
with the fault of the first step that fails.
-/

namespace ReferenceDraws

variable {ε ε' α β : Type}

@[simp] theorem ok_bind (a : α) (f : α → Except ε β) :
    ((Except.ok a : Except ε α) >>= f) = f a := rfl

@[simp] theorem error_bind (e : ε) (f : α → Except ε β) :
    ((Except.error e : Except ε α) >>= f) = .error e := rfl

@[simp] theorem mapError_ok (a : α) (f : ε → ε') :
    (Except.ok a : Except ε α).mapError f = .ok a := rfl

@[simp] theorem mapError_error (e : ε) (f : ε → ε') :
    (Except.error e : Except ε α).mapError f = .error (f e) := rfl

theorem toOption_eq_some_iff {x : Except ε α} {a : α} : x.toOption = some a ↔ x = .ok a := by
  cases x with
  | ok b => simp [Except.toOption]
  | error e => simp [Except.toOption]

/-- Two steps in sequence succeed exactly when both do. -/
theorem bind_eq_ok_iff {x : Except ε α} {f : α → Except ε β} {b : β} :
    (x >>= f) = .ok b ↔ ∃ a, x = .ok a ∧ f a = .ok b := by
  cases x with
  | ok a => simp
  | error e => simp

/-- A map over a result does not change whether it succeeds. -/
theorem map_eq_ok_iff {x : Except ε α} {f : α → β} {b : β} :
    x.map f = .ok b ↔ ∃ a, x = .ok a ∧ f a = b := by
  cases x with
  | ok a => simp [Except.map]
  | error e => simp [Except.map]

/-- Renaming faults does not change what succeeds. -/
theorem mapError_eq_ok_iff {x : Except ε α} {f : ε → ε'} {a : α} :
    x.mapError f = .ok a ↔ x = .ok a := by
  cases x with
  | ok b => simp
  | error e => simp

/-- A map over a result does not change its fault. -/
theorem map_eq_error_iff {x : Except ε α} {f : α → β} {e : ε} :
    x.map f = .error e ↔ x = .error e := by
  cases x with
  | ok a => simp [Except.map]
  | error d => simp [Except.map]

/-- A renamed fault was a fault under its old name. -/
theorem mapError_eq_error_iff {x : Except ε α} {f : ε → ε'} {e' : ε'} :
    x.mapError f = .error e' ↔ ∃ e, x = .error e ∧ f e = e' := by
  cases x with
  | ok a => simp
  | error e => simp

/-- A result under a condition. -/
theorem ite_ok_eq_ok_iff {p : Prop} [Decidable p] {a b : α} {e : ε} :
    (if p then .ok a else .error e : Except ε α) = .ok b ↔ p ∧ a = b := by
  split
  · rename_i hp
    simp [hp]
  · rename_i hp
    simp [hp]

/-- Steps that are all taken, each with what a partial function has there. -/
theorem mapM_eq_filterMap {f : α → Except ε β} {g : α → Option β} {xs : List α}
    (h : ∀ x ∈ xs, ∃ y, f x = .ok y ∧ g x = some y) : xs.mapM f = .ok (xs.filterMap g) := by
  induction xs with
  | nil => rfl
  | cons x xs ih =>
    obtain ⟨y, hy, hg⟩ := h x List.mem_cons_self
    have hrest := ih fun z hz => h z (List.mem_cons_of_mem x hz)
    rw [List.mapM_cons, hy, ok_bind, hrest, ok_bind, List.filterMap_cons_some hg]
    rfl

theorem mapM_eq_map {f : α → Except ε β} {g : α → β} {xs : List α}
    (h : ∀ x ∈ xs, f x = .ok (g x)) : xs.mapM f = .ok (xs.map g) := by
  rw [mapM_eq_filterMap fun x hx => ⟨g x, h x hx, rfl⟩, List.filterMap_eq_map']

/-- After a result the events of what follows come behind its own. -/
theorem andThen_of_ok {first : Logged (Except ε α)} {next : α → Logged (Except ε β)} {a : α}
    (h : first.value = .ok a) :
    first.andThen next = ⟨first.events ++ (next a).events, (next a).value⟩ := by
  simp only [Logged.andThen, h]

/-- After a failure nothing follows. -/
theorem andThen_of_error {first : Logged (Except ε α)} {next : α → Logged (Except ε β)} {e : ε}
    (h : first.value = .error e) : first.andThen next = ⟨first.events, .error e⟩ := by
  simp only [Logged.andThen, h]

/-- Events on the way do not change what succeeds. -/
theorem andThen_eq_ok_iff {first : Logged (Except ε α)} {next : α → Logged (Except ε β)}
    {b : β} : (first.andThen next).value = .ok b ↔
      ∃ a, first.value = .ok a ∧ (next a).value = .ok b := by
  unfold Logged.andThen
  split
  · rename_i a ha
    simp [ha]
  · rename_i e he
    simp [he]

end ReferenceDraws
