/-!
# Maps in key order

A finite map from strings whose entries stand in increasing order of their keys,
code point by code point, whatever the order of insertion.

* `get?_insert_self`, `get?_insert_of_ne`: what an insertion does to the values.
-/

namespace ReferenceDraws

/-- Entries with strictly increasing keys. -/
structure SortedMap (α : Type) where
  /-- The entries, least key first. -/
  entries : List (String × α)
  /-- Keys increase. -/
  sorted : entries.Pairwise (fun a b => a.1 < b.1)

namespace SortedMap

variable {α : Type}

@[ext] theorem ext {m n : SortedMap α} (h : m.entries = n.entries) : m = n := by
  cases m; cases n; simp_all

/-- The map without entries. -/
def empty : SortedMap α := ⟨[], .nil⟩

instance : Inhabited (SortedMap α) := ⟨empty⟩

instance [DecidableEq α] : DecidableEq (SortedMap α) := fun m n =>
  decidable_of_iff (m.entries = n.entries) ⟨ext, fun h => h ▸ rfl⟩

/-- The keys in increasing order. -/
def keys (m : SortedMap α) : List String := m.entries.map Prod.fst

/-- The number of entries. -/
def size (m : SortedMap α) : Nat := m.entries.length

/-- Whether there are no entries. -/
def isEmpty (m : SortedMap α) : Bool := m.entries.isEmpty

/-- The value under a key. -/
def get? (m : SortedMap α) (k : String) : Option α := m.entries.lookup k

/-- Whether a key is present. -/
def contains (m : SortedMap α) (k : String) : Bool := (m.get? k).isSome

/-- Puts an entry at its place in the order, replacing one of the same key. -/
def place (k : String) (v : α) : List (String × α) → List (String × α)
  | [] => [(k, v)]
  | e :: rest =>
    if k < e.1 then (k, v) :: e :: rest
    else if e.1 = k then (k, v) :: rest
    else e :: place k v rest

theorem eq_or_lt_of_mem_place {k : String} {v : α} {es : List (String × α)} {e : String × α}
    (h : e ∈ place k v es) : e.1 = k ∨ e ∈ es := by
  induction es with
  | nil => simp [place] at h; simp [h]
  | cons d rest ih =>
    unfold place at h
    split at h
    · rcases List.mem_cons.1 h with rfl | h
      · exact .inl rfl
      · exact .inr h
    · split at h
      · rcases List.mem_cons.1 h with rfl | h
        · exact .inl rfl
        · exact .inr (List.mem_cons_of_mem _ h)
      · rcases List.mem_cons.1 h with rfl | h
        · exact .inr List.mem_cons_self
        · exact (ih h).imp id (List.mem_cons_of_mem _)

theorem sorted_place {k : String} {v : α} {es : List (String × α)}
    (h : es.Pairwise (fun a b => a.1 < b.1)) :
    (place k v es).Pairwise (fun a b => a.1 < b.1) := by
  induction es with
  | nil => simp [place]
  | cons e rest ih =>
    rw [List.pairwise_cons] at h
    unfold place
    split
    · next hlt =>
      refine List.pairwise_cons.2 ⟨fun d hd => ?_, List.pairwise_cons.2 h⟩
      rcases List.mem_cons.1 hd with rfl | hd
      · exact hlt
      · exact String.lt_trans hlt (h.1 d hd)
    · next hnlt =>
      split
      · next hk =>
        exact List.pairwise_cons.2 ⟨fun d hd => hk ▸ h.1 d hd, h.2⟩
      · next hk =>
        refine List.pairwise_cons.2 ⟨fun d hd => ?_, ih h.2⟩
        rcases eq_or_lt_of_mem_place hd with hd | hd
        · rw [hd]
          exact Decidable.byContradiction fun hn =>
            hk (String.le_antisymm (String.not_lt.1 hnlt) (String.not_lt.1 hn))
        · exact h.1 d hd

/-- Adds an entry, or replaces the value of a key already present. -/
def insert (m : SortedMap α) (k : String) (v : α) : SortedMap α :=
  ⟨place k v m.entries, sorted_place m.sorted⟩

/-- Inserts entries one after another, so that the last value of a key counts. -/
def ofList (es : List (String × α)) : SortedMap α :=
  es.foldl (fun m e => m.insert e.1 e.2) empty

theorem lookup_place_self {k : String} {v : α} {es : List (String × α)} :
    (place k v es).lookup k = some v := by
  induction es with
  | nil => simp [place]
  | cons e rest ih =>
    obtain ⟨x, w⟩ := e
    unfold place
    split
    · simp
    · split
      · simp
      · next hk =>
        rw [List.lookup_cons, beq_eq_false_iff_ne.2 (Ne.symm hk)]
        exact ih

theorem lookup_place_of_ne {k x : String} {v : α} {es : List (String × α)} (hx : x ≠ k) :
    (place k v es).lookup x = es.lookup x := by
  induction es with
  | nil => simp [place, List.lookup_cons, beq_eq_false_iff_ne.2 hx]
  | cons e rest ih =>
    obtain ⟨y, w⟩ := e
    unfold place
    split
    · rw [List.lookup_cons, beq_eq_false_iff_ne.2 hx]
    · split
      · next hk =>
        dsimp only at hk
        subst hk
        rw [List.lookup_cons, List.lookup_cons, beq_eq_false_iff_ne.2 hx]
      · rw [List.lookup_cons, List.lookup_cons, ih]

@[simp] theorem get?_insert_self (m : SortedMap α) (k : String) (v : α) :
    (m.insert k v).get? k = some v := lookup_place_self

theorem get?_insert_of_ne (m : SortedMap α) {k x : String} (v : α) (h : x ≠ k) :
    (m.insert k v).get? x = m.get? x := lookup_place_of_ne h

end SortedMap

end ReferenceDraws
