import Mathlib.Data.List.Basic

/-!
# Last elements

Where entries of one key come one after another, the last of them counts.
`IsLast` says that an element is the last of a list with a property.  Lookup
from the end finds it (`lookup_reverse_eq_some_iff`), and it is found through a
filter (`isLast_filterMap_iff`).
-/

namespace ReferenceDraws

/-- Whether an element is the last of a list that has a property. -/
def IsLast {α : Type} (P : α → Prop) (l : List α) (a : α) : Prop :=
  ∃ before after, l = before ++ a :: after ∧ P a ∧ ∀ b ∈ after, ¬ P b

namespace IsLast

variable {α : Type} {P Q : α → Prop} {l : List α} {a : α}

theorem congr (h : ∀ a, P a ↔ Q a) : IsLast P l a ↔ IsLast Q l a := by
  rw [show P = Q from funext fun a => propext (h a)]

theorem holds (h : IsLast P l a) : P a := by
  obtain ⟨-, -, -, ha, -⟩ := h
  exact ha

theorem mem (h : IsLast P l a) : a ∈ l := by
  obtain ⟨before, after, rfl, -, -⟩ := h
  simp

end IsLast

/-- Lookup from the end finds the last entry of a key. -/
theorem lookup_reverse_eq_some_iff {κ α : Type} [DecidableEq κ] {es : List (κ × α)} {k : κ}
    {v : α} : es.reverse.lookup k = some v ↔ IsLast (·.1 = k) es (k, v) := by
  rw [List.lookup_eq_some_iff]
  constructor
  · rintro ⟨after, before, hes, hafter⟩
    refine ⟨before.reverse, after.reverse, ?_, rfl, ?_⟩
    · rw [← List.reverse_reverse es, hes]
      simp
    · intro e he hk
      exact absurd hk.symm (by simpa using hafter e (List.mem_reverse.1 he))
  · rintro ⟨before, after, rfl, -, hafter⟩
    refine ⟨after.reverse, before.reverse, by simp, ?_⟩
    intro e he
    simpa using Ne.symm (hafter e (List.mem_reverse.1 he))

/-- What is last among the images comes from the last element with such an
image. -/
theorem isLast_filterMap_iff {α β : Type} {f : α → Option β} {P : β → Prop} {l : List α} {b : β} :
    IsLast P (l.filterMap f) b ↔
      ∃ a, IsLast (fun a => ∃ b, f a = some b ∧ P b) l a ∧ f a = some b := by
  constructor
  · rintro ⟨before, after, hl, hb, hafter⟩
    obtain ⟨l₁, l₂, rfl, rfl, hl₂⟩ := List.filterMap_eq_append_iff.1 hl
    obtain ⟨skipped, a, l₃, rfl, hskipped, ha, rfl⟩ := List.filterMap_eq_cons_iff.1 hl₂
    refine ⟨a, ⟨l₁ ++ skipped, l₃, by simp, ⟨b, ha, hb⟩, ?_⟩, ha⟩
    rintro c hc ⟨d, hd, hP⟩
    exact hafter d (List.mem_filterMap.2 ⟨c, hc, hd⟩) hP
  · rintro ⟨a, ⟨before, after, rfl, ⟨b', hb', hP⟩, hafter⟩, ha⟩
    obtain rfl : b' = b := Option.some.inj (hb'.symm.trans ha)
    refine ⟨before.filterMap f, after.filterMap f, by simp [ha], hP, ?_⟩
    intro d hd hPd
    obtain ⟨c, hc, hcd⟩ := List.mem_filterMap.1 hd
    exact hafter c hc ⟨d, hcd, hPd⟩

end ReferenceDraws
