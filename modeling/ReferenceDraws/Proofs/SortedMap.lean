import Mathlib.Data.List.Induction
import ReferenceDraws.SortedMap

/-!
# Sorted maps built from lists

What a map holds that was filled entry by entry.

* `get?_ofList`: under a key lies the value of its last occurrence;
* `get?_eq_some_iff`: the entries are what lies under the keys;
* `ext_get?`: a map is what lies under its keys;
* `entries_ofList`: a list in the order of its keys is the entries of the map
  that it fills.
-/

namespace ReferenceDraws.SortedMap

variable {α : Type}

/-- The last entry of a list is inserted last. -/
theorem ofList_concat (es : List (String × α)) (e : String × α) :
    ofList (es ++ [e]) = (ofList es).insert e.1 e.2 := by
  simp [ofList, List.foldl_append]

/-- Under a key lies the value that came in last. -/
theorem get?_ofList (es : List (String × α)) (k : String) :
    (ofList es).get? k = es.reverse.lookup k := by
  induction es using List.reverseRecOn with
  | nil => rfl
  | append_singleton es e ih =>
    obtain ⟨x, v⟩ := e
    rw [ofList_concat, List.reverse_append, List.reverse_singleton, List.singleton_append,
      List.lookup_cons]
    by_cases hk : k = x
    · subst hk
      simp
    · rw [get?_insert_of_ne _ _ hk, ih, beq_eq_false_iff_ne.2 hk]

/-- The entries of a map are what lies under its keys. -/
theorem get?_eq_some_iff {m : SortedMap α} {k : String} {v : α} :
    m.get? k = some v ↔ (k, v) ∈ m.entries := by
  rw [get?, List.lookup_eq_some_iff]
  constructor
  · rintro ⟨before, after, hentries, -⟩
    rw [hentries]
    simp
  · intro hmem
    obtain ⟨before, after, hentries⟩ := List.append_of_mem hmem
    refine ⟨before, after, hentries, fun e he => ?_⟩
    have hsorted := m.sorted
    rw [hentries, List.pairwise_append] at hsorted
    have hlt : e.1 < k := hsorted.2.2 e he (k, v) List.mem_cons_self
    simpa using (String.ne_of_lt hlt).symm

/-- The entries are distinct, as their keys are. -/
theorem nodup_entries (m : SortedMap α) : m.entries.Nodup := by
  refine m.sorted.imp ?_
  rintro a b hlt rfl
  exact String.lt_irrefl _ hlt

/-- Maps with the same values under the same keys are the same. -/
theorem ext_get? {m n : SortedMap α} (h : ∀ k, m.get? k = n.get? k) : m = n := by
  have hmem : ∀ e, e ∈ m.entries ↔ e ∈ n.entries := by
    intro e
    rw [← get?_eq_some_iff, ← get?_eq_some_iff, h]
  have hperm : m.entries.Perm n.entries :=
    (List.perm_ext_iff_of_nodup m.nodup_entries n.nodup_entries).2 hmem
  refine ext (List.Perm.eq_of_pairwise ?_ m.sorted n.sorted hperm)
  intro a b _ _ hab hba
  exact absurd hba (String.lt_asymm hab)

/-- An entry behind all keys comes in after all entries. -/
theorem place_eq_append {k : String} {v : α} {es : List (String × α)}
    (h : ∀ e ∈ es, e.1 < k) : place k v es = es ++ [(k, v)] := by
  induction es with
  | nil => rfl
  | cons e rest ih =>
    have hlt : e.1 < k := h e List.mem_cons_self
    have hrest := ih fun d hd => h d (List.mem_cons_of_mem _ hd)
    rw [place, if_neg (String.lt_asymm hlt), if_neg (String.ne_of_lt hlt), hrest,
      List.cons_append]

/-- A list in the order of its keys is the entries of the map that it fills. -/
theorem entries_ofList {es : List (String × α)} (h : es.Pairwise fun a b => a.1 < b.1) :
    (ofList es).entries = es := by
  induction es using List.reverseRecOn with
  | nil => rfl
  | append_singleton es e ih =>
    rw [List.pairwise_append] at h
    rw [ofList_concat]
    show place e.1 e.2 (ofList es).entries = _
    rw [ih h.1]
    exact place_eq_append fun d hd => h.2.2 d hd e List.mem_cons_self

/-- The map with every value replaced in place. -/
def map {β : Type} (f : α → β) (m : SortedMap α) : SortedMap β where
  entries := m.entries.map fun e => (e.1, f e.2)
  sorted := by
    rw [List.pairwise_map]
    exact m.sorted

end ReferenceDraws.SortedMap
