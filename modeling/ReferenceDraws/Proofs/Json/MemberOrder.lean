import ReferenceDraws.Proofs.Json.Decoders

/-!
# Objects in any order

The members of an object may come in any order.  A record reads the same from
each of them, because its fields are read into separate parts of one state.

* Fields.  `Passes` says that one field can be read before or after another.
  It holds between the fields of the two halves of a record (`Passes.left`,
  `passes_left_right`), so the fields of a record put together field by field
  are `Independent`.
* Members.  Two neighbouring members can change places (`readMembers_swap`),
  and with them any members (`readMembers_perm`).  `Yields.perm` is the record
  read from them.
-/

namespace ReferenceDraws.Json.RecordDecoder

variable {α β σ τ : Type}

/-! ## Fields -/

/-- One field may be read after another instead of before it.  Reading it
leaves the other as it was, and the two lead to the same state in both orders. -/
structure Passes (a b : Slot σ) : Prop where
  filled : ∀ {r st next}, a.fill r st = .ok next → b.filled next = b.filled st
  fill : ∀ {r s st mid last}, a.fill r st = .ok mid → b.fill s mid = .ok last →
    ∃ other, b.fill s st = .ok other ∧ a.fill r other = .ok last

theorem Passes.left {a b : Slot σ} (h : Passes a b) :
    Passes (leftSlot (τ := τ) a) (leftSlot b) where
  filled := by
    intro r st next hnext
    obtain ⟨s, hs, rfl⟩ := map_eq_ok_iff.1 hnext
    exact h.filled hs
  fill := by
    intro r r' st mid last hmid hlast
    obtain ⟨s, hs, rfl⟩ := map_eq_ok_iff.1 hmid
    obtain ⟨s', hs', rfl⟩ := map_eq_ok_iff.1 hlast
    obtain ⟨other, hother, hagain⟩ := h.fill hs hs'
    exact ⟨(other, st.2), map_eq_ok_iff.2 ⟨other, hother, rfl⟩, map_eq_ok_iff.2 ⟨s', hagain, rfl⟩⟩

theorem Passes.right {a b : Slot τ} (h : Passes a b) :
    Passes (rightSlot (σ := σ) a) (rightSlot b) where
  filled := by
    intro r st next hnext
    obtain ⟨t, ht, rfl⟩ := map_eq_ok_iff.1 hnext
    exact h.filled ht
  fill := by
    intro r r' st mid last hmid hlast
    obtain ⟨t, ht, rfl⟩ := map_eq_ok_iff.1 hmid
    obtain ⟨t', ht', rfl⟩ := map_eq_ok_iff.1 hlast
    obtain ⟨other, hother, hagain⟩ := h.fill ht ht'
    exact ⟨(st.1, other), map_eq_ok_iff.2 ⟨other, hother, rfl⟩, map_eq_ok_iff.2 ⟨t', hagain, rfl⟩⟩

theorem passes_left_right (a : Slot σ) (b : Slot τ) : Passes (leftSlot a) (rightSlot b) where
  filled := by
    intro r st next hnext
    obtain ⟨s, -, rfl⟩ := map_eq_ok_iff.1 hnext
    rfl
  fill := by
    intro r r' st mid last hmid hlast
    obtain ⟨s, hs, rfl⟩ := map_eq_ok_iff.1 hmid
    obtain ⟨t, ht, rfl⟩ := map_eq_ok_iff.1 hlast
    exact ⟨(st.1, t), map_eq_ok_iff.2 ⟨t, ht, rfl⟩, map_eq_ok_iff.2 ⟨s, hs, rfl⟩⟩

theorem passes_right_left (a : Slot σ) (b : Slot τ) : Passes (rightSlot b) (leftSlot a) where
  filled := by
    intro r st next hnext
    obtain ⟨t, -, rfl⟩ := map_eq_ok_iff.1 hnext
    rfl
  fill := by
    intro r r' st mid last hmid hlast
    obtain ⟨t, ht, rfl⟩ := map_eq_ok_iff.1 hmid
    obtain ⟨s, hs, rfl⟩ := map_eq_ok_iff.1 hlast
    exact ⟨(s, st.2), map_eq_ok_iff.2 ⟨s, hs, rfl⟩, map_eq_ok_iff.2 ⟨t, ht, rfl⟩⟩

/-- Fields of different names may be read in either order. -/
def Independent (r : RecordDecoder α) : Prop :=
  ∀ a ∈ r.slots, ∀ b ∈ r.slots, a.name ≠ b.name → Passes a b

/-- One field has no other beside it. -/
theorem independent_of_slot {r : RecordDecoder α} {slot : Slot r.State} (h : r.slots = [slot]) :
    Independent r := by
  intro a ha b hb hne
  rw [h, List.mem_singleton] at ha hb
  exact absurd (congrArg Slot.name (ha.trans hb.symm)) hne

theorem Independent.map {r : RecordDecoder α} (h : Independent r) (f : α → β) :
    Independent (.map f r) := h

theorem Independent.and {f : RecordDecoder (α → β)} {a : RecordDecoder α} (hf : Independent f)
    (ha : Independent a) : Independent (f.and a) := by
  intro x hx y hy hne
  have hx : x ∈ f.slots.map leftSlot ++ a.slots.map rightSlot := hx
  have hy : y ∈ f.slots.map leftSlot ++ a.slots.map rightSlot := hy
  rcases List.mem_append.1 hx with hx | hx
  · obtain ⟨u, hu, rfl⟩ := List.mem_map.1 hx
    rcases List.mem_append.1 hy with hy | hy
    · obtain ⟨v, hv, rfl⟩ := List.mem_map.1 hy
      exact (hf u hu v hv hne).left
    · obtain ⟨v, hv, rfl⟩ := List.mem_map.1 hy
      exact passes_left_right u v
  · obtain ⟨u, hu, rfl⟩ := List.mem_map.1 hx
    rcases List.mem_append.1 hy with hy | hy
    · obtain ⟨v, hv, rfl⟩ := List.mem_map.1 hy
      exact passes_right_left v u
    · obtain ⟨v, hv, rfl⟩ := List.mem_map.1 hy
      exact (ha u hu v hv hne).right

/-! ## Members -/

variable {slots : List (Slot σ)} {ms ns : List (String × Json)} {state last : σ}

/-- The member of a field is read before the others. -/
theorem readMembers_cons {slot : Slot σ} {m : String × Json}
    (hslot : slots.find? (·.name = m.1) = some slot) :
    readMembers slots true state (Reading.ofMembers (m :: ms)) = .ok last ↔
      slot.filled state = false ∧ ∃ next, slot.fill (.ofJson m.2) state = .ok next ∧
        readMembers slots true next (Reading.ofMembers ms) = .ok last := by
  simp only [Reading.ofMembers, readMembers, Decoder.key, ok_bind, hslot]
  cases slot.filled state with
  | true => simp [throw, throwThe, MonadExceptOf.throw]
  | false => simp [bind_eq_ok_iff]

/-- Two neighbouring members can change places. -/
theorem readMembers_swap
    (hslots : ∀ a ∈ slots, ∀ b ∈ slots, a.name ≠ b.name → Passes a b) {m n : String × Json}
    (hm : m.1 ∈ slots.map Slot.name) (hn : n.1 ∈ slots.map Slot.name) (hne : m.1 ≠ n.1)
    (h : readMembers slots true state (Reading.ofMembers (m :: n :: ms)) = .ok last) :
    readMembers slots true state (Reading.ofMembers (n :: m :: ms)) = .ok last := by
  obtain ⟨a, ha⟩ := exists_find? hm
  obtain ⟨b, hb⟩ := exists_find? hn
  have haname : a.name = m.1 := by simpa using List.find?_some ha
  have hbname : b.name = n.1 := by simpa using List.find?_some hb
  have hab : a.name ≠ b.name := by rwa [haname, hbname]
  have hpasses := hslots a (List.mem_of_find?_eq_some ha) b (List.mem_of_find?_eq_some hb) hab
  have hback := hslots b (List.mem_of_find?_eq_some hb) a (List.mem_of_find?_eq_some ha) hab.symm
  rw [readMembers_cons ha] at h
  obtain ⟨hafree, mid, hmid, h⟩ := h
  rw [readMembers_cons hb] at h
  obtain ⟨hbfree, next, hnext, h⟩ := h
  obtain ⟨other, hother, hagain⟩ := hpasses.fill hmid hnext
  rw [readMembers_cons hb]
  refine ⟨(hpasses.filled hmid).symm.trans hbfree, other, hother, ?_⟩
  rw [readMembers_cons ha]
  exact ⟨(hback.filled hother).trans hafree, next, hagain, h⟩

/-- Members of different names can come in any order. -/
theorem readMembers_perm (hslots : ∀ a ∈ slots, ∀ b ∈ slots, a.name ≠ b.name → Passes a b)
    (hperm : ms.Perm ns) (hnames : ∀ m ∈ ms, m.1 ∈ slots.map Slot.name)
    (hnodup : (ms.map Prod.fst).Nodup)
    (h : readMembers slots true state (Reading.ofMembers ms) = .ok last) :
    readMembers slots true state (Reading.ofMembers ns) = .ok last := by
  induction hperm generalizing state with
  | nil => exact h
  | @cons m ms ns _ ih =>
    obtain ⟨slot, hslot⟩ := exists_find? (hnames m List.mem_cons_self)
    rw [readMembers_cons hslot] at h ⊢
    obtain ⟨hfree, next, hnext, h⟩ := h
    rw [List.map_cons, List.nodup_cons] at hnodup
    exact ⟨hfree, next, hnext,
      ih (fun x hx => hnames x (List.mem_cons_of_mem m hx)) hnodup.2 h⟩
  | swap m n ms =>
    have hne : n.1 ≠ m.1 := by
      rw [List.map_cons, List.nodup_cons] at hnodup
      intro heq
      exact hnodup.1 (by simp [heq])
    exact readMembers_swap hslots (hnames n (by simp)) (hnames m (by simp)) hne h
  | trans hfirst _ ihfirst ihsecond =>
    refine ihsecond (fun m hm => hnames m (hfirst.mem_iff.2 hm)) ?_ (ihfirst hnames hnodup h)
    exact (hfirst.map Prod.fst).nodup_iff.1 hnodup

/-- A record is read from its members in any order. -/
theorem Yields.perm {r : RecordDecoder α} {x : α} (h : Yields r ms (.ok x)) (hr : Independent r)
    (hnodup : (ms.map Prod.fst).Nodup) (hperm : ns.Perm ms) : Yields r ns (.ok x) where
  names m hm := h.names m (hperm.mem_iff.1 hm)
  fills y hy := by
    obtain ⟨state, hread, hfinish⟩ := h.fills y hy
    exact ⟨state, readMembers_perm hr hperm.symm h.names hnodup hread, hfinish⟩
  fails e he := by cases he

end ReferenceDraws.Json.RecordDecoder
