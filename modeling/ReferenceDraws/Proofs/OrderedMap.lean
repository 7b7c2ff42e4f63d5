import Mathlib.Data.List.Induction
import ReferenceDraws.OrderedMap

/-!
# Ordered maps built from lists

What a map holds that was filled entry by entry.

* `keys_ofList`: every key stands at its first occurrence;
* `get?_ofList`: under a key lies the value of its last occurrence;
* `ofList_entries`: filling a map with the entries of a map gives that map;
* `insert_insert`, `erase_insert`: what a later change makes of an insertion.
-/

namespace ReferenceDraws.OrderedMap

variable {κ α : Type} [DecidableEq κ]

@[simp] theorem ofList_nil : (ofList [] : OrderedMap κ α) = empty := rfl

/-- The last entry of a list is inserted last. -/
theorem ofList_concat (es : List (κ × α)) (e : κ × α) :
    ofList (es ++ [e]) = (ofList es).insert e.1 e.2 := by
  simp [ofList, List.foldl_append]

/-- A map filled from a list has its keys in the order of first occurrence. -/
theorem keys_ofList (es : List (κ × α)) :
    (ofList es).keys = (es.map Prod.fst).eraseDups := by
  induction es using List.reverseRecOn with
  | nil => rfl
  | append_singleton es e ih =>
    rw [ofList_concat, List.map_append, List.eraseDups_append, ← ih]
    by_cases hmem : e.1 ∈ es.map Prod.fst
    · have hkey : e.1 ∈ (ofList es).keys := by
        rw [ih]
        exact List.mem_eraseDups.2 hmem
      rw [keys_insert_of_mem hkey]
      simp [List.removeAll, hmem]
    · have hkey : e.1 ∉ (ofList es).keys := by
        rw [ih]
        exact fun h => hmem (List.mem_eraseDups.1 h)
      rw [keys_insert_of_not_mem hkey]
      simp [List.removeAll, hmem, List.eraseDups_cons]

/-- Under a key lies the value that came in last. -/
theorem get?_ofList (es : List (κ × α)) (k : κ) :
    (ofList es).get? k = es.reverse.lookup k := by
  induction es using List.reverseRecOn with
  | nil => rfl
  | append_singleton es e ih =>
    obtain ⟨x, v⟩ := e
    rw [ofList_concat, List.reverse_append, List.reverse_singleton, List.singleton_append,
      List.lookup_cons]
    by_cases hk : k = x
    · subst hk
      simp
    · rw [get?_insert_of_ne _ _ hk, ih, beq_eq_false_iff_ne.2 hk]

/-- Under a key that came in lies one of the values that came in with it. -/
theorem exists_get?_ofList {es : List (κ × α)} {k : κ} (h : k ∈ es.map Prod.fst) :
    ∃ v, (k, v) ∈ es ∧ (ofList es).get? k = some v := by
  induction es using List.reverseRecOn with
  | nil => simp at h
  | append_singleton es e ih =>
    obtain ⟨x, v⟩ := e
    rw [ofList_concat]
    by_cases hk : k = x
    · subst hk
      exact ⟨v, by simp, get?_insert_self _ _ _⟩
    · have hes : k ∈ es.map Prod.fst := by simpa [hk] using h
      obtain ⟨w, hw, hget⟩ := ih hes
      exact ⟨w, List.mem_append_left _ hw, (get?_insert_of_ne _ _ hk).trans hget⟩

/-- An entry of a map with one more entry is that entry or was there before. -/
theorem mem_entries_insert {m : OrderedMap κ α} {k : κ} {v : α} {e : κ × α}
    (h : e ∈ (m.insert k v).entries) : e = (k, v) ∨ e ∈ m.entries := by
  have hupsert : ∀ es : List (κ × α), e ∈ upsert k v es → e = (k, v) ∨ e ∈ es := by
    intro es
    induction es with
    | nil => simp [upsert]
    | cons f rest ih =>
      unfold upsert
      split
      · rw [List.mem_cons, List.mem_cons]
        exact fun h => h.imp id .inr
      · rw [List.mem_cons, List.mem_cons, or_left_comm]
        exact fun h => h.imp id ih
  exact hupsert m.entries h

/-- The entries of a map that was filled from a list are entries of the list. -/
theorem mem_of_mem_entries_ofList {es : List (κ × α)} {e : κ × α}
    (h : e ∈ (ofList es).entries) : e ∈ es := by
  induction es using List.reverseRecOn with
  | nil => exact h
  | append_singleton es f ih =>
    rw [ofList_concat] at h
    rcases mem_entries_insert h with rfl | h
    · simp
    · exact List.mem_append_left _ (ih h)

/-- A new key comes in after all entries. -/
theorem entries_insert_of_not_mem {m : OrderedMap κ α} {k : κ} {v : α} (h : k ∉ m.keys) :
    (m.insert k v).entries = m.entries ++ [(k, v)] := by
  have hupsert : ∀ es : List (κ × α), k ∉ es.map Prod.fst → upsert k v es = es ++ [(k, v)] := by
    intro es
    induction es with
    | nil => intro _; rfl
    | cons e rest ih =>
      intro hmem
      simp only [List.map_cons, List.mem_cons, not_or] at hmem
      rw [upsert, if_neg (Ne.symm hmem.1), ih hmem.2, List.cons_append]
  exact hupsert m.entries h

/-- A list without repeated keys is the entries of the map it fills. -/
theorem entries_ofList {es : List (κ × α)} (h : (es.map Prod.fst).Nodup) :
    (ofList es).entries = es := by
  induction es using List.reverseRecOn with
  | nil => rfl
  | append_singleton es e ih =>
    rw [List.map_append, List.nodup_append] at h
    have hes := ih h.1
    have hkey : e.1 ∉ (ofList es).keys := by
      intro hmem
      rw [keys, hes] at hmem
      exact h.2.2 _ hmem e.1 (by simp) rfl
    rw [ofList_concat, entries_insert_of_not_mem hkey, hes]

/-- Filling a map with the entries of a map gives that map. -/
@[simp] theorem ofList_entries (m : OrderedMap κ α) : ofList m.entries = m :=
  ext (entries_ofList m.nodup)

/-! ## Values and keys -/

theorem get?_eq_none {m : OrderedMap κ α} {k : κ} (h : k ∉ m.keys) : m.get? k = none := by
  rw [get?, List.lookup_eq_none_iff]
  intro e he
  have hne : e.1 ≠ k := fun hk => h (List.mem_map.2 ⟨e, he, hk⟩)
  simpa using Ne.symm hne

theorem mem_entries_of_get? {m : OrderedMap κ α} {k : κ} {v : α} (h : m.get? k = some v) :
    (k, v) ∈ m.entries := by
  obtain ⟨before, after, hentries, -⟩ := List.lookup_eq_some_iff.1 h
  rw [hentries]
  exact List.mem_append_right _ List.mem_cons_self

/-- A key has a value. -/
theorem exists_get?_of_mem_keys {m : OrderedMap κ α} {k : κ} (h : k ∈ m.keys) :
    ∃ v, m.get? k = some v := by
  rw [← ofList_entries m]
  obtain ⟨v, -, hget⟩ := exists_get?_ofList h
  exact ⟨v, hget⟩

/-! ## One key after another -/

/-- A value that is replaced leaves no trace. -/
@[simp] theorem insert_insert (m : OrderedMap κ α) (k : κ) (v w : α) :
    (m.insert k v).insert k w = m.insert k w := by
  have hupsert : ∀ es : List (κ × α), upsert k w (upsert k v es) = upsert k w es := by
    intro es
    induction es with
    | nil => simp [upsert]
    | cons e rest ih =>
      by_cases hk : e.1 = k
      · simp [upsert, hk]
      · simp [upsert, hk, ih]
  exact ext (hupsert m.entries)

/-- A new key that is removed leaves no trace. -/
theorem erase_insert {m : OrderedMap κ α} {k : κ} (h : k ∉ m.keys) (v : α) :
    (m.insert k v).erase k = m := by
  apply ext
  show (m.insert k v).entries.filter (fun e => e.1 ≠ k) = m.entries
  rw [entries_insert_of_not_mem h, List.filter_append,
    List.filter_cons_of_neg (by simp), List.filter_nil, List.append_nil, List.filter_eq_self]
  intro e he
  rw [decide_eq_true_eq]
  rintro rfl
  exact h (List.mem_map_of_mem he)

end ReferenceDraws.OrderedMap
