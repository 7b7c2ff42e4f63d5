/-!
# Maps in insertion order

A finite map that remembers the order in which its keys first came in.
Inserting a key again replaces the value and leaves the key at its first place.

* `keys_insert_of_mem`, `keys_insert_of_not_mem`: what an insertion does to the keys;
* `get?_insert_self`, `get?_insert_of_ne`: what it does to the values.
-/

namespace ReferenceDraws

/-- Entries in order of first insertion; no key stands twice. -/
structure OrderedMap (κ : Type) (α : Type) where
  /-- The entries, first inserted first. -/
  entries : List (κ × α)
  /-- Keys are distinct. -/
  nodup : (entries.map Prod.fst).Nodup

namespace OrderedMap

variable {κ α : Type}

@[ext] theorem ext {m n : OrderedMap κ α} (h : m.entries = n.entries) : m = n := by
  cases m; cases n; simp_all

/-- The map without entries. -/
def empty : OrderedMap κ α := ⟨[], by simp⟩

instance : Inhabited (OrderedMap κ α) := ⟨empty⟩

instance [DecidableEq κ] [DecidableEq α] : DecidableEq (OrderedMap κ α) := fun m n =>
  decidable_of_iff (m.entries = n.entries) ⟨ext, fun h => h ▸ rfl⟩

/-- The keys, first inserted first. -/
def keys (m : OrderedMap κ α) : List κ := m.entries.map Prod.fst

/-- The values, in the order of their keys. -/
def values (m : OrderedMap κ α) : List α := m.entries.map Prod.snd

/-- The number of entries. -/
def size (m : OrderedMap κ α) : Nat := m.entries.length

/-- Whether there are no entries. -/
def isEmpty (m : OrderedMap κ α) : Bool := m.entries.isEmpty

theorem keys_nodup (m : OrderedMap κ α) : m.keys.Nodup := m.nodup

section Lookup

variable [DecidableEq κ]

/-- The value under a key. -/
def get? (m : OrderedMap κ α) (k : κ) : Option α := m.entries.lookup k

/-- Whether a key is present. -/
def contains (m : OrderedMap κ α) (k : κ) : Bool := (m.get? k).isSome

/-- Replaces the value of `k` where it stands, else appends the entry. -/
def upsert (k : κ) (v : α) : List (κ × α) → List (κ × α)
  | [] => [(k, v)]
  | e :: rest => if e.1 = k then (k, v) :: rest else e :: upsert k v rest

theorem mem_keys_upsert {k x : κ} {v : α} {es : List (κ × α)} :
    x ∈ (upsert k v es).map Prod.fst ↔ x = k ∨ x ∈ es.map Prod.fst := by
  induction es with
  | nil => simp [upsert]
  | cons e rest ih =>
    by_cases h : e.1 = k
    · simp [upsert, h]
    · simp only [upsert, h, if_false, List.map_cons, List.mem_cons, ih]
      exact or_left_comm

theorem nodup_upsert {k : κ} {v : α} {es : List (κ × α)} (h : (es.map Prod.fst).Nodup) :
    ((upsert k v es).map Prod.fst).Nodup := by
  induction es with
  | nil => simp [upsert]
  | cons e rest ih =>
    rw [List.map_cons, List.nodup_cons] at h
    by_cases hk : e.1 = k
    · simp only [upsert, hk, if_true, List.map_cons, List.nodup_cons]
      exact ⟨hk ▸ h.1, h.2⟩
    · simp only [upsert, hk, if_false, List.map_cons, List.nodup_cons]
      refine ⟨fun hm => ?_, ih h.2⟩
      rcases mem_keys_upsert.1 hm with rfl | hm
      · exact hk rfl
      · exact h.1 hm

/-- Adds an entry, or replaces the value of a key already present. -/
def insert (m : OrderedMap κ α) (k : κ) (v : α) : OrderedMap κ α :=
  ⟨upsert k v m.entries, nodup_upsert m.nodup⟩

/-- Inserts entries one after another, so that the last value of a key counts. -/
def ofList (es : List (κ × α)) : OrderedMap κ α :=
  es.foldl (fun m e => m.insert e.1 e.2) empty

/-- Removes a key. -/
def erase (m : OrderedMap κ α) (k : κ) : OrderedMap κ α :=
  ⟨m.entries.filter (fun e => e.1 ≠ k),
    List.Pairwise.sublist (List.filter_sublist.map Prod.fst) m.nodup⟩

theorem keys_upsert_of_mem {k : κ} {v : α} {es : List (κ × α)} (h : k ∈ es.map Prod.fst) :
    (upsert k v es).map Prod.fst = es.map Prod.fst := by
  induction es with
  | nil => simp at h
  | cons e rest ih =>
    by_cases hk : e.1 = k
    · simp [upsert, hk]
    · simp only [upsert, hk, if_false, List.map_cons]
      rcases List.mem_cons.1 h with h | h
      · exact absurd h.symm hk
      · rw [ih h]

theorem keys_upsert_of_not_mem {k : κ} {v : α} {es : List (κ × α)} (h : k ∉ es.map Prod.fst) :
    (upsert k v es).map Prod.fst = es.map Prod.fst ++ [k] := by
  induction es with
  | nil => simp [upsert]
  | cons e rest ih =>
    simp only [List.map_cons, List.mem_cons, not_or] at h
    simp [upsert, Ne.symm h.1, ih h.2]

theorem lookup_upsert_self {k : κ} {v : α} {es : List (κ × α)} :
    (upsert k v es).lookup k = some v := by
  induction es with
  | nil => simp [upsert]
  | cons e rest ih =>
    obtain ⟨x, w⟩ := e
    by_cases hk : x = k
    · simp [upsert, hk]
    · simp [upsert, hk, List.lookup_cons, beq_eq_false_iff_ne.2 (Ne.symm hk), ih]

theorem lookup_upsert_of_ne {k x : κ} {v : α} {es : List (κ × α)} (hx : x ≠ k) :
    (upsert k v es).lookup x = es.lookup x := by
  induction es with
  | nil => simp [upsert, List.lookup_cons, beq_eq_false_iff_ne.2 hx]
  | cons e rest ih =>
    obtain ⟨y, w⟩ := e
    by_cases hk : y = k
    · simp [upsert, hk, List.lookup_cons, beq_eq_false_iff_ne.2 hx]
    · simp [upsert, hk, List.lookup_cons, ih]

/-- A key already present keeps its place. -/
theorem keys_insert_of_mem {m : OrderedMap κ α} {k : κ} {v : α} (h : k ∈ m.keys) :
    (m.insert k v).keys = m.keys := keys_upsert_of_mem h

/-- A new key comes last. -/
theorem keys_insert_of_not_mem {m : OrderedMap κ α} {k : κ} {v : α} (h : k ∉ m.keys) :
    (m.insert k v).keys = m.keys ++ [k] := keys_upsert_of_not_mem h

@[simp] theorem get?_insert_self (m : OrderedMap κ α) (k : κ) (v : α) :
    (m.insert k v).get? k = some v := lookup_upsert_self

theorem get?_insert_of_ne (m : OrderedMap κ α) {k x : κ} (v : α) (h : x ≠ k) :
    (m.insert k v).get? x = m.get? x := lookup_upsert_of_ne h

end Lookup

end OrderedMap

end ReferenceDraws
