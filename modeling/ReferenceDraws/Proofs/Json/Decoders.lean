import ReferenceDraws.Json.Decode
import ReferenceDraws.Proofs.OrderedMap
import ReferenceDraws.Proofs.Outcome

/-!
# Decoders on complete values

What decoders make of a value that was written whole.

* Lists and maps.  A list is read when its items are (`list_array`).  Maps
  keep the order of their keys (`orderedMap_object`).
* Whole values.  `Fits` bounds the brackets of a value, and `whole_ofJson`
  takes every value that fits.
* Records.  `Yields` says what a record's fields make of the members of an
  object.  It is put together field by field (`yields_required`,
  `Yields.and`), and `Yields.read` is the record read.
-/

namespace ReferenceDraws.Json

namespace Reading

theorem ofItems_eq_map (xs : List Json) : ofItems xs = xs.map ofJson := by
  induction xs with
  | nil => rw [ofItems, List.map_nil]
  | cons x xs ih => rw [ofItems, ih, List.map_cons]

theorem ofMembers_eq_map (ms : List (String × Json)) :
    ofMembers ms = ms.map fun m => (some m.1, ofJson m.2) := by
  induction ms with
  | nil => rw [ofMembers, List.map_nil]
  | cons m ms ih => rw [ofMembers, ih, List.map_cons]

end Reading

namespace Decoder

variable {α β : Type}

/-! ## Lists and maps -/

/-- A list of values that are read is read. -/
theorem list_array {decode : Decoder β} {encode : α → Json} {read : α → β} {as : List α}
    (h : ∀ a ∈ as, decode (.ofJson (encode a)) = .ok (read a)) :
    list decode (.ofJson (.array (as.map encode))) = .ok (as.map read) := by
  rw [Reading.ofJson, list]
  induction as with
  | nil => rfl
  | cons a as ih =>
    have ha := h a (by simp)
    have has := ih fun x hx => h x (List.mem_cons_of_mem a hx)
    rw [List.map_cons, Reading.ofItems, items, ha, has]
    rfl

/-- Entries of values that are read are read in their order. -/
theorem entries_object {decode : Decoder β} {encode : α → Json} {read : α → β}
    {es : List (String × α)} (h : ∀ e ∈ es, decode (.ofJson (encode e.2)) = .ok (read e.2)) :
    entries decode (.ofJson (.object (es.map fun e => (e.1, encode e.2)))) =
      .ok (es.map fun e => (e.1, read e.2)) := by
  rw [Reading.ofJson, entries]
  induction es with
  | nil => rfl
  | cons e es ih =>
    have he := h e (by simp)
    have hes := ih fun x hx => h x (List.mem_cons_of_mem e hx)
    rw [List.map_cons, Reading.ofMembers, members, key, ok_bind, he, ok_bind, hes]
    rfl

/-- A map of values that are read is read with its keys in their order. -/
theorem orderedMap_object {decode : Decoder β} {encode : α → Json} {read : α → β}
    {m : OrderedMap String α} (h : ∀ e ∈ m.entries, decode (.ofJson (encode e.2)) = .ok (read e.2)) :
    orderedMap decode (.ofJson (ofOrderedMap encode m)) =
      .ok (.ofList (m.entries.map fun e => (e.1, read e.2))) := by
  rw [orderedMap, ofOrderedMap, entries_object h]
  rfl

theorem sortedMap_object {decode : Decoder β} {encode : α → Json} {read : α → β}
    {m : SortedMap α} (h : ∀ e ∈ m.entries, decode (.ofJson (encode e.2)) = .ok (read e.2)) :
    sortedMap decode (.ofJson (ofSortedMap encode m)) =
      .ok (.ofList (m.entries.map fun e => (e.1, read e.2))) := by
  rw [sortedMap, ofSortedMap, entries_object h]
  rfl

/-! ## Whole values -/

/-- A value has at most so many levels of brackets. -/
inductive Fits : Nat → Json → Prop
  | null (room : Nat) : Fits room .null
  | bool (room : Nat) (b : Bool) : Fits room (.bool b)
  | number (room : Nat) (n : Number) : Fits room (.number n)
  | string (room : Nat) (s : String) : Fits room (.string s)
  | array {room : Nat} {items : List Json} (h : ∀ x ∈ items, Fits room x) :
    Fits (room + 1) (.array items)
  | object {room : Nat} {members : List (String × Json)} (h : ∀ m ∈ members, Fits room m.2) :
    Fits (room + 1) (.object members)

/-- A value is taken whole where its brackets fit. -/
theorem whole_ofJson {room : Nat} {v : Json} (h : Fits room v) : whole room (.ofJson v) = .ok v := by
  induction h with
  | null room => rw [Reading.ofJson, whole]
  | bool room b => rw [Reading.ofJson, whole]
  | number room n => rw [Reading.ofJson, whole]
  | string room s => rw [Reading.ofJson, whole]
  | @array room xs h ih =>
    have hitems : wholeItems room (Reading.ofItems xs) = .ok xs := by
      clear h
      induction xs with
      | nil => rw [Reading.ofItems, wholeItems]
      | cons x xs ihxs =>
        have hx := ih x (by simp)
        have hxs := ihxs fun y hy => ih y (List.mem_cons_of_mem x hy)
        rw [Reading.ofItems, wholeItems, hx, ok_bind, hxs]
        rfl
    rw [Reading.ofJson, whole, if_neg (Nat.succ_ne_zero room), Nat.add_sub_cancel, hitems]
    rfl
  | @object room ms h ih =>
    have hmembers : wholeMembers room (Reading.ofMembers ms) = .ok ms := by
      clear h
      induction ms with
      | nil => rw [Reading.ofMembers, wholeMembers]
      | cons m ms ihms =>
        have hm := ih m (by simp)
        have hms := ihms fun y hy => ih y (List.mem_cons_of_mem m hy)
        rw [Reading.ofMembers, wholeMembers, key, ok_bind, hm, ok_bind, hms]
        rfl
    rw [Reading.ofJson, whole, if_neg (Nat.succ_ne_zero room), Nat.add_sub_cancel, hmembers]
    rfl

end Decoder

/-! ## Records -/

namespace RecordDecoder

variable {α β σ : Type}

/-- The names of the fields. -/
def names (r : RecordDecoder α) : List String := r.slots.map Slot.name

/-- What the fields of a record make of members that are these fields. -/
structure Yields (r : RecordDecoder α) (ms : List (String × Json)) (result : Except Fault α) :
    Prop where
  names : ∀ m ∈ ms, m.1 ∈ r.names
  fills : ∀ x, result = .ok x → ∃ state,
    readMembers r.slots true r.start (Reading.ofMembers ms) = .ok state ∧ r.finish state = .ok x
  fails : ∀ e, result = .error e →
    readMembers r.slots true r.start (Reading.ofMembers ms) = .error e

/-- A record that is an object has what its fields make of the members. -/
theorem Yields.readWith {r : RecordDecoder α} {ms : List (String × Json)}
    {result : Except Fault α} (h : Yields r ms result) (surplus : Nat → Nat → Fault)
    (name : String) : r.readWith surplus name (.ofJson (.object ms)) = result := by
  rw [Reading.ofJson, RecordDecoder.readWith]
  cases hresult : result with
  | ok x =>
    obtain ⟨state, hread, hfinish⟩ := h.fills x hresult
    rw [hread, ok_bind, hfinish]
  | error e => rw [h.fails e hresult, error_bind]

theorem Yields.read {r : RecordDecoder α} {ms : List (String × Json)} {result : Except Fault α}
    (h : Yields r ms result) (name : String) : r.read name (.ofJson (.object ms)) = result :=
  h.readWith _ name

theorem Yields.readWhole {r : RecordDecoder α} {ms : List (String × Json)}
    {result : Except Fault α} (h : Yields r ms result) (name : String) :
    r.readWhole name (.object ms) = result :=
  h.readWith _ name

theorem Yields.map {r : RecordDecoder α} {ms : List (String × Json)} {result : Except Fault α}
    (h : Yields r ms result) (f : α → β) : Yields (.map f r) ms (result.map f) where
  names := h.names
  fills y hy := by
    obtain ⟨x, hx, rfl⟩ := map_eq_ok_iff.1 hy
    obtain ⟨state, hread, hfinish⟩ := h.fills x hx
    refine ⟨state, hread, ?_⟩
    show (r.finish state).map f = _
    rw [hfinish]
    rfl
  fails e he := by
    cases result with
    | ok x => cases he
    | error e' =>
      cases he
      exact h.fails e rfl

/-- A field that is read into a state of its own. -/
def field (name : String) (droppable : Bool) (decode : Decoder α) : Slot (Option α) :=
  ⟨name, droppable, Option.isSome, fun r _ => (decode r).map some⟩

/-- The field that a record of one field has. -/
theorem yields_field (name : String) (droppable : Bool) (decode : Decoder α)
    (finish : Option α → Except Fault α) (hfinish : ∀ x, finish (some x) = .ok x) (v : Json) :
    Yields ⟨Option α, none, [field name droppable decode], finish⟩ [(name, v)]
      (decode (.ofJson v)) := by
  have hread : readMembers [field name droppable decode] true none
      (Reading.ofMembers [(name, v)]) = (decode (.ofJson v)).map some := by
    simp only [field, Reading.ofMembers, readMembers, Decoder.key, ok_bind]
    simp only [List.find?_cons, decide_true]
    cases decode (.ofJson v) <;> rfl
  refine ⟨by simp [RecordDecoder.names, field], fun x hx => ?_, fun e he => ?_⟩
  · refine ⟨some x, ?_, hfinish x⟩
    rw [hread, hx]
    rfl
  · rw [hread, he]
    rfl

theorem yields_required (name : String) (decode : Decoder α) (v : Json) :
    Yields (required name decode) [(name, v)] (decode (.ofJson v)) :=
  yields_field name false decode _ (fun _ => rfl) v

theorem yields_defaulted (name : String) (fallback : α) (decode : Decoder α) (v : Json) :
    Yields (defaulted name fallback decode) [(name, v)] (decode (.ofJson v)) :=
  yields_field name true decode _ (fun _ => rfl) v

/-- An optional field that is there. -/
theorem yields_optional (name : String) (decode : Decoder α) (v : Json) :
    Yields (optional name decode) [(name, v)] (Decoder.nullable decode (.ofJson v)) :=
  yields_field name false (Decoder.nullable decode) _ (fun _ => rfl) v

/-- An optional field that is left out. -/
theorem yields_optional_nil (name : String) (decode : Decoder α) :
    Yields (optional name decode) [] (.ok none) where
  names m hm := absurd hm List.not_mem_nil
  fills x hx := by
    cases hx
    exact ⟨none, rfl, rfl⟩
  fails e he := by cases he

/-- Members are read one after another. -/
theorem readMembers_append (slots : List (Slot σ)) (closed : Bool) (ms : List (String × Json))
    (rest : List (Option String × Reading)) (state : σ) :
    readMembers slots closed state (Reading.ofMembers ms ++ rest) =
      (readMembers slots true state (Reading.ofMembers ms)) >>= fun state =>
        readMembers slots closed state rest := by
  induction ms generalizing state with
  | nil => rfl
  | cons m ms ih =>
    obtain ⟨k, v⟩ := m
    simp only [Reading.ofMembers, List.cons_append, readMembers, Decoder.key, ok_bind]
    split
    · rename_i slot hslot
      split
      · rfl
      · cases slot.fill (.ofJson v) state with
        | error e => rfl
        | ok state => exact ih state
    · cases Decoder.skip (.ofJson v) with
      | error e => rfl
      | ok u => exact ih state

theorem ofMembers_append (ms ns : List (String × Json)) :
    Reading.ofMembers (ms ++ ns) = Reading.ofMembers ms ++ Reading.ofMembers ns := by
  simp only [Reading.ofMembers_eq_map, List.map_append]

/-- A field of a first part is read into the state of that part. -/
def leftSlot {τ : Type} (slot : Slot σ) : Slot (σ × τ) :=
  ⟨slot.name, slot.droppable, fun st => slot.filled st.1,
    fun r st => (slot.fill r st.1).map (·, st.2)⟩

/-- A field of a second part is read into the state of that part. -/
def rightSlot {τ : Type} (slot : Slot τ) : Slot (σ × τ) :=
  ⟨slot.name, slot.droppable, fun st => slot.filled st.2,
    fun r st => (slot.fill r st.2).map (st.1, ·)⟩

/-- The fields of two parts. -/
def joined {τ : Type} (fs : List (Slot σ)) (gs : List (Slot τ)) : List (Slot (σ × τ)) :=
  fs.map leftSlot ++ gs.map rightSlot

theorem find?_joined {τ : Type} (fs : List (Slot σ)) (gs : List (Slot τ)) (k : String) :
    (joined fs gs).find? (·.name = k) =
      ((fs.find? (·.name = k)).map leftSlot).or ((gs.find? (·.name = k)).map rightSlot) := by
  rw [joined, List.find?_append, List.find?_map, List.find?_map]
  rfl

/-- A name of a field finds a field. -/
theorem exists_find? {slots : List (Slot σ)} {k : String} (h : k ∈ slots.map Slot.name) :
    ∃ slot, slots.find? (·.name = k) = some slot := by
  obtain ⟨slot, hmem, hname⟩ := List.mem_map.1 h
  exact Option.isSome_iff_exists.1 (List.find?_isSome.2 ⟨slot, hmem, by simp [hname]⟩)

/-- A name of no field finds none. -/
theorem find?_eq_none {slots : List (Slot σ)} {k : String} (h : k ∉ slots.map Slot.name) :
    slots.find? (·.name = k) = none := by
  rw [List.find?_eq_none]
  intro slot hmem hname
  exact h (List.mem_map.2 ⟨slot, hmem, of_decide_eq_true hname⟩)

variable {τ : Type} {fs : List (Slot σ)} {gs : List (Slot τ)} {ms : List (String × Json)}

/-- Members of the first part leave the second as it is. -/
theorem readMembers_left (h : ∀ m ∈ ms, m.1 ∈ fs.map Slot.name) (s : σ) (t : τ) :
    readMembers (joined fs gs) true (s, t) (Reading.ofMembers ms) =
      (readMembers fs true s (Reading.ofMembers ms)).map (·, t) := by
  induction ms generalizing s with
  | nil => rfl
  | cons m ms ih =>
    obtain ⟨k, v⟩ := m
    obtain ⟨slot, hslot⟩ := exists_find? (h (k, v) (by simp))
    have hrest := ih fun m hm => h m (List.mem_cons_of_mem _ hm)
    simp only [Reading.ofMembers, readMembers, Decoder.key, ok_bind, find?_joined, hslot,
      Option.map_some, Option.some_or, leftSlot]
    cases slot.filled s with
    | true => rfl
    | false =>
      cases hfill : slot.fill (.ofJson v) s with
      | error e => rfl
      | ok state => exact hrest state

/-- Members of the second part leave the first as it is. -/
theorem readMembers_right (h : ∀ m ∈ ms, m.1 ∈ gs.map Slot.name)
    (hother : ∀ m ∈ ms, m.1 ∉ fs.map Slot.name) (s : σ) (t : τ) :
    readMembers (joined fs gs) true (s, t) (Reading.ofMembers ms) =
      (readMembers gs true t (Reading.ofMembers ms)).map (s, ·) := by
  induction ms generalizing t with
  | nil => rfl
  | cons m ms ih =>
    obtain ⟨k, v⟩ := m
    obtain ⟨slot, hslot⟩ := exists_find? (h (k, v) (by simp))
    have hnone := find?_eq_none (hother (k, v) (by simp))
    have hrest := ih (fun m hm => h m (List.mem_cons_of_mem _ hm))
      (fun m hm => hother m (List.mem_cons_of_mem _ hm))
    simp only [Reading.ofMembers, readMembers, Decoder.key, ok_bind, find?_joined, hslot, hnone,
      Option.map_none, Option.map_some, Option.none_or, rightSlot]
    cases slot.filled t with
    | true => rfl
    | false =>
      cases hfill : slot.fill (.ofJson v) t with
      | error e => rfl
      | ok state => exact hrest state

/-- Members of the first part and then of the second are read part by part. -/
theorem readMembers_joined {ns : List (String × Json)} (hms : ∀ m ∈ ms, m.1 ∈ fs.map Slot.name)
    (hns : ∀ n ∈ ns, n.1 ∈ gs.map Slot.name) (hother : ∀ n ∈ ns, n.1 ∉ fs.map Slot.name)
    (s : σ) (t : τ) :
    readMembers (joined fs gs) true (s, t) (Reading.ofMembers (ms ++ ns)) =
      (readMembers fs true s (Reading.ofMembers ms)) >>= fun s =>
        (readMembers gs true t (Reading.ofMembers ns)).map (s, ·) := by
  rw [ofMembers_append, readMembers_append, readMembers_left hms]
  cases readMembers fs true s (Reading.ofMembers ms) with
  | error e => rfl
  | ok s => exact readMembers_right hns hother s t

theorem names_and (f : RecordDecoder (α → β)) (a : RecordDecoder α) :
    (f.and a).names = f.names ++ a.names := by
  show (joined f.slots a.slots).map Slot.name = _
  rw [joined, List.map_append, List.map_map, List.map_map]
  rfl

/-- One more field after others: its member comes after theirs. -/
theorem Yields.and {f : RecordDecoder (α → β)} {a : RecordDecoder α} {ms ns : List (String × Json)}
    {g : Except Fault (α → β)} {x : Except Fault α} (hf : Yields f ms g) (ha : Yields a ns x)
    (hother : ∀ n ∈ ns, n.1 ∉ f.names) :
    Yields (f.and a) (ms ++ ns) (g >>= fun g => x.map g) := by
  have hread : readMembers (f.and a).slots true (f.and a).start (Reading.ofMembers (ms ++ ns)) =
      (readMembers f.slots true f.start (Reading.ofMembers ms)) >>= fun s =>
        (readMembers a.slots true a.start (Reading.ofMembers ns)).map (s, ·) :=
    readMembers_joined hf.names ha.names hother f.start a.start
  refine ⟨?_, fun y hy => ?_, fun e he => ?_⟩
  · intro m hm
    rw [names_and, List.mem_append]
    exact (List.mem_append.1 hm).imp (hf.names m) (ha.names m)
  · obtain ⟨g', hg, hy⟩ := bind_eq_ok_iff.1 hy
    obtain ⟨x', hx, rfl⟩ := map_eq_ok_iff.1 hy
    obtain ⟨s, hs, hsfinish⟩ := hf.fills g' hg
    obtain ⟨t, ht, htfinish⟩ := ha.fills x' hx
    refine ⟨(s, t), ?_, ?_⟩
    · rw [hread, hs, ht]
      rfl
    · show (f.finish s >>= fun g => a.finish t >>= fun x => pure (g x)) = _
      rw [hsfinish, htfinish]
      rfl
  · rw [hread]
    cases hg : g with
    | error e' =>
      rw [hg] at he
      cases he
      rw [hf.fails _ hg]
      rfl
    | ok g' =>
      obtain ⟨s, hs, -⟩ := hf.fills g' hg
      rw [hg, ok_bind] at he
      rw [hs, ok_bind, ha.fails e (map_eq_error_iff.1 he)]
      rfl

/-- One more member for a record under construction. -/
theorem Yields.and_member {f : RecordDecoder (α → β)} {a : RecordDecoder α}
    {ms : List (String × Json)} {g : Except Fault (α → β)} {x : Except Fault α} {name : String}
    {v : Json} (hf : Yields f ms g) (ha : Yields a [(name, v)] x) (hname : name ∉ f.names) :
    Yields (f.and a) (ms ++ [(name, v)]) (g >>= fun g => x.map g) := by
  refine hf.and ha fun n hn => ?_
  rw [List.mem_singleton.1 hn]
  exact hname

theorem Yields.and_required {f : RecordDecoder (α → β)} {ms : List (String × Json)}
    {g : Except Fault (α → β)} (hf : Yields f ms g) (name : String) (decode : Decoder α) (v : Json)
    (hname : name ∉ f.names) :
    Yields (f.and (required name decode)) (ms ++ [(name, v)])
      (g >>= fun g => (decode (.ofJson v)).map g) :=
  hf.and_member (yields_required name decode v) hname

end RecordDecoder

end ReferenceDraws.Json
