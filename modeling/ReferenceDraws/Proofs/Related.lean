import Mathlib.Data.List.Forall2

/-!
# Lists related entry by entry

Lists of which each entry is made from the entry at its place in another list.

* `exists_forall₂_iff`: such a list exists where every entry can be made, and
  `mapM_eq_some_iff` says when it is made step by step;
* `lookup_eq_some_iff_of_forall₂`: entries with the same keys are found at the
  same place.
-/

namespace ReferenceDraws

open List (Forall₂)

variable {α β : Type} {R : α → β → Prop}

/-- What is made of the same entries in two ways is related entry by entry. -/
theorem forall₂_map_map {γ : Type} {f : γ → α} {g : γ → β} {l : List γ}
    (h : ∀ x ∈ l, R (f x) (g x)) : Forall₂ R (l.map f) (l.map g) := by
  rw [List.forall₂_map_left_iff, List.forall₂_map_right_iff, List.forall₂_same]
  exact h

/-- A list is related to another where each of its entries can be. -/
theorem exists_forall₂_iff {as : List α} : (∃ bs, Forall₂ R as bs) ↔ ∀ a ∈ as, ∃ b, R a b := by
  induction as with
  | nil => simp
  | cons a as ih =>
    rw [List.forall_mem_cons, ← ih]
    constructor
    · rintro ⟨-, _ | ⟨hab, hrest⟩⟩
      exact ⟨⟨_, hab⟩, _, hrest⟩
    · rintro ⟨⟨b, hab⟩, bs, hrest⟩
      exact ⟨b :: bs, .cons hab hrest⟩

/-- Every entry is made from an entry. -/
theorem exists_of_mem_forall₂ {as : List α} {bs : List β} (h : Forall₂ R as bs) {b : β}
    (hb : b ∈ bs) : ∃ a ∈ as, R a b := by
  induction h with
  | nil => cases hb
  | cons hab _ ih =>
    rcases List.mem_cons.1 hb with rfl | hb
    · exact ⟨_, List.mem_cons_self, hab⟩
    · obtain ⟨a, ha, hR⟩ := ih hb
      exact ⟨a, List.mem_cons_of_mem _ ha, hR⟩

theorem forall₂_and_right {p : β → Prop} {as : List α} {bs : List β} :
    Forall₂ (fun a b => R a b ∧ p b) as bs ↔ Forall₂ R as bs ∧ ∀ b ∈ bs, p b := by
  induction as generalizing bs with
  | nil => cases bs <;> simp
  | cons a as ih =>
    simp only [List.forall₂_cons_left_iff, ih]
    constructor
    · rintro ⟨b, bs, ⟨hab, hb⟩, ⟨habs, hbs⟩, rfl⟩
      exact ⟨⟨b, bs, hab, habs, rfl⟩, List.forall_mem_cons.2 ⟨hb, hbs⟩⟩
    · rintro ⟨⟨b, bs, hab, habs, rfl⟩, hall⟩
      obtain ⟨hb, hbs⟩ := List.forall_mem_cons.1 hall
      exact ⟨b, bs, ⟨hab, hb⟩, ⟨habs, hbs⟩, rfl⟩

/-- A list is made exactly where each of its entries is. -/
theorem mapM_eq_some_iff {f : α → Option β} {as : List α} {bs : List β} :
    as.mapM f = some bs ↔ Forall₂ (fun a b => f a = some b) as bs := by
  induction as generalizing bs with
  | nil => simp [eq_comm]
  | cons a as ih =>
    simp only [List.mapM_cons, Option.bind_eq_bind, Option.bind_eq_some_iff, Option.pure_def,
      Option.some_inj, ih, List.forall₂_cons_left_iff]
    constructor
    · rintro ⟨b, hb, bs, hbs, rfl⟩
      exact ⟨b, bs, hb, hbs, rfl⟩
    · rintro ⟨b, bs, hb, hbs, rfl⟩
      exact ⟨b, hb, bs, hbs, rfl⟩

/-- Under a key lies what is made of the value that lay there. -/
theorem lookup_eq_some_iff_of_forall₂ {κ : Type} [BEq κ] [LawfulBEq κ] {as : List (κ × α)}
    {bs : List (κ × β)} (h : Forall₂ (fun a b => a.1 = b.1 ∧ R a.2 b.2) as bs)
    (hunique : ∀ a b c, R a b → R a c → b = c) {k : κ} {b : β} :
    bs.lookup k = some b ↔ ∃ a, as.lookup k = some a ∧ R a b := by
  induction h with
  | nil => simp
  | @cons a b' as bs hab hrest ih =>
    obtain ⟨x, a⟩ := a
    obtain ⟨y, b'⟩ := b'
    obtain ⟨rfl, hR⟩ : x = y ∧ R a b' := hab
    rw [List.lookup_cons, List.lookup_cons]
    cases k == x with
    | true =>
      constructor
      · rintro ⟨⟩
        exact ⟨a, rfl, hR⟩
      · rintro ⟨_, ⟨⟩, hb⟩
        rw [hunique a b' b hR hb]
    | false => exact ih

end ReferenceDraws
