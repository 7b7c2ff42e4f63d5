import Mathlib.Data.List.Forall2
import ReferenceDraws.Proofs.Json.Decoders
import ReferenceDraws.Proofs.Json.Text

/-!
# Documents and the values they hold

From what was read of a document back to the value that it held.

* Complete values.  A value is known from how it would be read
  (`ofJson_injective`), and `whole_eq_ok_iff` says which readings are taken
  whole.
* Decoders.  `Reads` says that a decoder reads complete values alone, and of
  which values it reads what.  Objects are read as their members are.
* Numbers.  All numbers that a text can hold can be written again
  (`isWritable_parseValue`).
* Documents.  `IsText` says of bytes that they are a text of a value.  A
  document that is read is a text of a value that its decoder reads
  (`Reads.decodeBytes`).
-/

namespace ReferenceDraws.Json

open Text (Stream)

/-! ## Complete values -/

namespace Reading

mutual

/-- A complete value is known from how it would be read. -/
theorem ofJson_injective {v w : Json} (h : ofJson v = ofJson w) : v = w := by
  match v, w with
  | .null, w => cases w <;> simp_all [ofJson]
  | .bool b, w => cases w <;> simp_all [ofJson]
  | .number n, w => cases w <;> simp_all [ofJson]
  | .string s, w => cases w <;> simp_all [ofJson]
  | .array xs, .array ys =>
    rw [ofJson, ofJson] at h
    rw [ofItems_injective (Reading.array.inj h).1]
  | .object ms, .object ns =>
    rw [ofJson, ofJson] at h
    rw [ofMembers_injective (Reading.object.inj h).1]
  -- Values of two kinds are read as two kinds.
  | .array xs, .null | .array xs, .bool _ | .array xs, .number _ | .array xs, .string _
  | .array xs, .object _ | .object ms, .null | .object ms, .bool _ | .object ms, .number _
  | .object ms, .string _ | .object ms, .array _ => simp [ofJson] at h

theorem ofItems_injective {xs ys : List Json} (h : ofItems xs = ofItems ys) : xs = ys := by
  match xs, ys with
  | [], [] => rfl
  | [], _ :: _ | _ :: _, [] => simp [ofItems] at h
  | x :: xs, y :: ys =>
    rw [ofItems, ofItems, List.cons.injEq] at h
    rw [ofJson_injective h.1, ofItems_injective h.2]

theorem ofMembers_injective {ms ns : List (String × Json)} (h : ofMembers ms = ofMembers ns) :
    ms = ns := by
  match ms, ns with
  | [], [] => rfl
  | [], _ :: _ | _ :: _, [] => simp [ofMembers] at h
  | (k, v) :: ms, (l, w) :: ns =>
    simp only [ofMembers, List.cons.injEq, Prod.mk.injEq, Option.some_inj] at h
    rw [h.1.1, ofJson_injective h.1.2, ofMembers_injective h.2]

end

end Reading

namespace Decoder

theorem key_eq_ok_iff {k : Option String} {s : String} : key k = .ok s ↔ k = some s := by
  cases k <;> simp [key]

mutual

/-- What is taken whole was complete and fits. -/
theorem fits_of_whole {room : Nat} {r : Reading} {v : Json} (h : whole room r = .ok v) :
    r = .ofJson v ∧ Fits room v := by
  match r with
  | .null =>
    rw [whole] at h
    cases h
    exact ⟨by rw [Reading.ofJson], .null room⟩
  | .bool b =>
    rw [whole] at h
    cases h
    exact ⟨by rw [Reading.ofJson], .bool room b⟩
  | .number (some n) =>
    rw [whole] at h
    cases h
    exact ⟨by rw [Reading.ofJson], .number room n⟩
  | .string (some s) =>
    rw [whole] at h
    cases h
    exact ⟨by rw [Reading.ofJson], .string room s⟩
  | .number none | .string none | .broken => simp [whole] at h
  | .array rs closed =>
    rw [whole] at h
    split at h
    · cases h
    · rename_i hroom
      obtain ⟨room, rfl⟩ : ∃ k, room = k + 1 := ⟨room - 1, by omega⟩
      obtain ⟨xs, hxs, hclosed⟩ := bind_eq_ok_iff.1 h
      obtain ⟨rfl, hfits⟩ := fits_of_wholeItems hxs
      cases closed <;> cases hclosed
      exact ⟨by rw [Reading.ofJson], .array hfits⟩
  | .object ms closed =>
    rw [whole] at h
    split at h
    · cases h
    · rename_i hroom
      obtain ⟨room, rfl⟩ : ∃ k, room = k + 1 := ⟨room - 1, by omega⟩
      obtain ⟨xs, hxs, hclosed⟩ := bind_eq_ok_iff.1 h
      obtain ⟨rfl, hfits⟩ := fits_of_wholeMembers hxs
      cases closed <;> cases hclosed
      exact ⟨by rw [Reading.ofJson], .object hfits⟩

/-- Items that are taken whole were complete and fit. -/
theorem fits_of_wholeItems {room : Nat} {rs : List Reading} {xs : List Json}
    (h : wholeItems room rs = .ok xs) : rs = Reading.ofItems xs ∧ ∀ x ∈ xs, Fits room x := by
  match rs with
  | [] =>
    rw [wholeItems] at h
    cases h
    exact ⟨by rw [Reading.ofItems], fun x hx => absurd hx List.not_mem_nil⟩
  | r :: rs =>
    rw [wholeItems] at h
    obtain ⟨x, hx, h⟩ := bind_eq_ok_iff.1 h
    obtain ⟨xs, hxs, h⟩ := bind_eq_ok_iff.1 h
    cases h
    obtain ⟨rfl, hfirst⟩ := fits_of_whole hx
    obtain ⟨rfl, hrest⟩ := fits_of_wholeItems hxs
    exact ⟨by rw [Reading.ofItems], List.forall_mem_cons.2 ⟨hfirst, hrest⟩⟩

/-- Members that are taken whole were complete and fit. -/
theorem fits_of_wholeMembers {room : Nat} {rs : List (Option String × Reading)}
    {ms : List (String × Json)} (h : wholeMembers room rs = .ok ms) :
    rs = Reading.ofMembers ms ∧ ∀ m ∈ ms, Fits room m.2 := by
  match rs with
  | [] =>
    rw [wholeMembers] at h
    cases h
    exact ⟨by rw [Reading.ofMembers], fun m hm => absurd hm List.not_mem_nil⟩
  | (k, r) :: rs =>
    rw [wholeMembers] at h
    obtain ⟨s, hs, h⟩ := bind_eq_ok_iff.1 h
    obtain ⟨x, hx, h⟩ := bind_eq_ok_iff.1 h
    obtain ⟨ms, hms, h⟩ := bind_eq_ok_iff.1 h
    cases h
    obtain rfl := key_eq_ok_iff.1 hs
    obtain ⟨rfl, hfirst⟩ := fits_of_whole hx
    obtain ⟨rfl, hrest⟩ := fits_of_wholeMembers hms
    exact ⟨by rw [Reading.ofMembers], List.forall_mem_cons.2 ⟨hfirst, hrest⟩⟩

end

/-- A value is taken whole exactly where it is complete and its brackets fit. -/
theorem whole_eq_ok_iff {room : Nat} {r : Reading} {v : Json} :
    whole room r = .ok v ↔ r = .ofJson v ∧ Fits room v := by
  refine ⟨fits_of_whole, ?_⟩
  rintro ⟨rfl, hfits⟩
  exact whole_ofJson hfits

/-! ## Decoders -/

variable {α β : Type} {decode : Decoder α} {P : Json → α → Prop}

/-- A decoder reads complete values alone: those that stand in a relation to
what is read of them. -/
def Reads (decode : Decoder α) (P : Json → α → Prop) : Prop :=
  ∀ r x, decode r = .ok x ↔ ∃ v, r = .ofJson v ∧ P v x

/-- What a decoder makes of a complete value. -/
theorem Reads.ofJson (h : Reads decode P) {v : Json} {x : α} :
    decode (.ofJson v) = .ok x ↔ P v x := by
  rw [h]
  constructor
  · rintro ⟨w, hw, hx⟩
    rwa [Reading.ofJson_injective hw]
  · exact fun hx => ⟨v, rfl, hx⟩

theorem Reads.congr {Q : Json → α → Prop} (h : Reads decode P) (hPQ : ∀ v x, P v x ↔ Q v x) :
    Reads decode Q := by
  intro r x
  simp only [h r x, hPQ]

theorem reads_whole (room : Nat) : Reads (whole room) fun v w => w = v ∧ Fits room v := by
  intro r w
  rw [whole_eq_ok_iff]
  constructor
  · rintro ⟨rfl, hfits⟩
    exact ⟨w, rfl, rfl, hfits⟩
  · rintro ⟨v, rfl, rfl, hfits⟩
    exact ⟨rfl, hfits⟩

/-- A step that follows a decoder. -/
theorem Reads.bind (h : Reads decode P) (f : α → Except Fault β) :
    Reads (fun r => decode r >>= f) fun v y => ∃ x, P v x ∧ f x = .ok y := by
  intro r y
  rw [bind_eq_ok_iff]
  constructor
  · rintro ⟨x, hx, hy⟩
    obtain ⟨v, rfl, hv⟩ := (h r x).1 hx
    exact ⟨v, rfl, x, hv, hy⟩
  · rintro ⟨v, rfl, x, hv, hy⟩
    exact ⟨x, h.ofJson.2 hv, hy⟩

/-- Members are read one after another, up to the closing bracket. -/
theorem Reads.members (h : Reads decode P) {closed : Bool} {rs : List (Option String × Reading)}
    {es : List (String × α)} :
    members decode closed rs = .ok es ↔ closed = true ∧ ∃ ms, rs = Reading.ofMembers ms ∧
      List.Forall₂ (fun m e => m.1 = e.1 ∧ P m.2 e.2) ms es := by
  induction rs generalizing es with
  | nil =>
    rw [Decoder.members]
    constructor
    · intro hread
      split at hread
      · cases hread
        exact ⟨‹_›, [], by rw [Reading.ofMembers], .nil⟩
      · cases hread
    · rintro ⟨hclosed, ms, hrs, hms⟩
      cases hms with
      | nil => rw [if_pos hclosed]
      | cons _ _ => simp [Reading.ofMembers] at hrs
  | cons r rs ih =>
    obtain ⟨k, r⟩ := r
    simp only [Decoder.members, bind_eq_ok_iff, key_eq_ok_iff, ih]
    constructor
    · rintro ⟨k, rfl, x, hx, xs, ⟨hclosed, ms, rfl, hms⟩, hes⟩
      obtain ⟨v, rfl, hv⟩ := (h r x).1 hx
      cases hes
      exact ⟨hclosed, (k, v) :: ms, by rw [Reading.ofMembers], .cons ⟨rfl, hv⟩ hms⟩
    · rintro ⟨hclosed, ms, hrs, hms⟩
      cases hms with
      | nil => simp [Reading.ofMembers] at hrs
      | @cons m e ms es hm hms =>
        rw [Reading.ofMembers] at hrs
        cases hrs
        exact ⟨m.1, rfl, e.2, h.ofJson.2 hm.2, es, ⟨hclosed, ms, rfl, hms⟩, by rw [hm.1]; rfl⟩

/-- An object is read as its members are. -/
theorem Reads.entries (h : Reads decode P) :
    Reads (entries decode) fun v es => ∃ ms, v = .object ms ∧
      List.Forall₂ (fun m e => m.1 = e.1 ∧ P m.2 e.2) ms es := by
  intro r es
  constructor
  · intro hread
    unfold Decoder.entries at hread
    split at hread
    · obtain ⟨rfl, ms, rfl, hms⟩ := h.members.1 hread
      exact ⟨.object ms, by rw [Reading.ofJson], ms, rfl, hms⟩
    · cases hread
  · rintro ⟨-, rfl, ms, rfl, hms⟩
    rw [Reading.ofJson]
    exact h.members.2 ⟨rfl, ms, rfl, hms⟩

/-- In a sorted map the last value of a key counts. -/
theorem Reads.sortedMap (h : Reads decode P) :
    Reads (sortedMap decode) fun v m => ∃ ms es, v = .object ms ∧
      List.Forall₂ (fun m e => m.1 = e.1 ∧ P m.2 e.2) ms es ∧ SortedMap.ofList es = m := by
  intro r m
  rw [Decoder.sortedMap, map_eq_ok_iff]
  constructor
  · rintro ⟨es, hes, hm⟩
    obtain ⟨v, rfl, ms, hv, hms⟩ := (h.entries r es).1 hes
    exact ⟨v, rfl, ms, es, hv, hms, hm⟩
  · rintro ⟨v, rfl, ms, es, hv, hms, hm⟩
    exact ⟨es, h.entries.ofJson.2 ⟨ms, hv, hms⟩, hm⟩

end Decoder

/-! ## Numbers -/

namespace Reading

/-- Where a reading is a complete value, that value can be written. -/
def IsWritable (r : Reading) : Prop := ∀ v, r = .ofJson v → v.IsWritable

theorem isWritable_broken : broken.IsWritable := by
  intro v hv
  cases v <;> simp [ofJson] at hv

theorem isWritable_null : null.IsWritable := by
  intro v hv
  cases v <;> simp [ofJson] at hv
  exact .null

theorem isWritable_bool (b : Bool) : (bool b).IsWritable := by
  intro v hv
  cases v <;> simp [ofJson] at hv
  exact .bool _

theorem isWritable_string (s : Option String) : (string s).IsWritable := by
  intro v hv
  cases v <;> simp [ofJson] at hv
  exact .string _

theorem isWritable_number {n : Option Number} (h : ∀ x, n = some x → x.IsWritable) :
    (number n).IsWritable := by
  intro v hv
  cases v <;> simp [ofJson] at hv
  exact .number (h _ hv)

theorem isWritable_array {rs : List Reading} (h : ∀ r ∈ rs, r.IsWritable) (closed : Bool) :
    (array rs closed).IsWritable := by
  intro v hv
  cases v <;> simp [ofJson] at hv
  refine .array fun x hx => h (.ofJson x) ?_ x rfl
  rw [hv.1, ofItems_eq_map]
  exact List.mem_map_of_mem hx

theorem isWritable_object {rs : List (Option String × Reading)} (h : ∀ r ∈ rs, r.2.IsWritable)
    (closed : Bool) : (object rs closed).IsWritable := by
  intro v hv
  cases v <;> simp [ofJson] at hv
  refine .object fun m hm => h (some m.1, .ofJson m.2) ?_ m.2 rfl
  rw [hv.1, ofMembers_eq_map]
  exact List.mem_map_of_mem hm

theorem isWritable_of_finiteDouble? {d : Decimal} {n : Number} (h : finiteDouble? d = some n) :
    n.IsWritable := by
  unfold finiteDouble? at h
  obtain ⟨hfinite, hn⟩ := Option.ite_none_right_eq_some.1 h
  cases hn
  exact hfinite

/-- Numbers are classified as what they can be written as. -/
theorem isWritable_of_classify {negative : Bool} {whole : List Char} {fraction : Option (List Char)}
    {exponent : Option Int} {n : Number} (h : classify negative whole fraction exponent = some n) :
    n.IsWritable := by
  unfold classify at h
  split at h
  · dsimp only at h
    split at h
    · cases h
      trivial
    · split at h
      · rename_i hrange
        cases h
        obtain ⟨⟨-, hpos⟩, hle⟩ : (negative = true ∧ 0 < digitsToNat whole) ∧
            digitsToNat whole ≤ Nat.pow 2 63 := by simpa using hrange
        have hword : (UInt64.ofNat (digitsToNat whole)).toNat = digitsToNat whole :=
          UInt64.toNat_ofNat_of_lt' (Nat.lt_of_le_of_lt hle (by decide))
        exact ⟨by rw [hword]; exact hpos, by rw [hword]; exact hle⟩
      · exact isWritable_of_finiteDouble? h
  · exact isWritable_of_finiteDouble? h

theorem isWritable_unsignedNumber (negative : Bool) (text : Stream) :
    (unsignedNumber negative text).1.IsWritable := by
  unfold unsignedNumber
  dsimp only
  split
  · rename_i value rest hparts
    refine isWritable_number fun n hn => ?_
    obtain ⟨whole, -, hparts⟩ := Option.bind_eq_some_iff.1 hparts
    obtain ⟨fraction, -, hparts⟩ := Option.bind_eq_some_iff.1 hparts
    obtain ⟨exponent, -, hparts⟩ := Option.bind_eq_some_iff.1 hparts
    cases hparts
    exact isWritable_of_classify hn
  · exact isWritable_broken

theorem isWritable_word {value : Reading} (h : value.IsWritable) (letters : List Char)
    (text : Stream) : (parseValue.word letters value text).1.IsWritable := by
  unfold parseValue.word
  split
  · exact h
  · exact isWritable_broken

-- Every call between the three readers spends fuel, which is what the induction is on.
mutual

/-- A value that was read can be written. -/
theorem isWritable_parseValue (fuel : Nat) (text : Stream) :
    (parseValue fuel text).1.IsWritable := by
  match fuel with
  | 0 => exact isWritable_broken
  | fuel + 1 =>
    rw [parseValue]
    split
    · exact isWritable_word isWritable_null _ _
    · exact isWritable_word (isWritable_bool true) _ _
    · exact isWritable_word (isWritable_bool false) _ _
    · split
      · exact isWritable_string _
      · exact isWritable_broken
    · split
      · exact isWritable_array (by simp) true
      · exact isWritable_array (isWritable_parseItems fuel _) _
    · split
      · exact isWritable_object (by simp) true
      · exact isWritable_object (isWritable_parseMembers fuel _) _
    · exact isWritable_unsignedNumber true _
    · split
      · exact isWritable_unsignedNumber false _
      · exact isWritable_broken
    · exact isWritable_broken

theorem isWritable_parseItems (fuel : Nat) (text : Stream) :
    ∀ r ∈ (parseItems fuel text).1, r.IsWritable := by
  match fuel with
  | 0 => simp [parseItems]
  | fuel + 1 =>
    have hfirst := isWritable_parseValue fuel text
    simp only [parseItems]
    split
    · exact List.forall_mem_cons.2 ⟨hfirst, isWritable_parseItems fuel _⟩
    · exact List.forall_mem_singleton.2 hfirst
    · exact List.forall_mem_singleton.2 hfirst

theorem isWritable_parseMembers (fuel : Nat) (text : Stream) :
    ∀ r ∈ (parseMembers fuel text).1, r.2.IsWritable := by
  match fuel with
  | 0 => simp [parseMembers]
  | fuel + 1 =>
    simp only [parseMembers]
    split
    · split
      · split
        · rename_i rest _
          have hfirst := isWritable_parseValue fuel rest
          split
          · exact List.forall_mem_cons.2 ⟨hfirst, isWritable_parseMembers fuel _⟩
          · exact List.forall_mem_singleton.2 hfirst
          · exact List.forall_mem_singleton.2 hfirst
        · exact List.forall_mem_singleton.2 isWritable_broken
      · simp
    · simp

end

end Reading

/-! ## Documents -/

/-- Bytes are a text of a value, with blanks around it at most. -/
def IsText (bytes : List UInt8) (v : Json) : Prop :=
  ∃ rest, Reading.parse (Text.decode bytes) = (.ofJson v, rest) ∧ Reading.skipBlanks rest = []

variable {bytes : List UInt8} {v w : Json}

/-- A text is the text of one value. -/
theorem IsText.unique (hv : IsText bytes v) (hw : IsText bytes w) : v = w := by
  obtain ⟨restv, hreadv, -⟩ := hv
  obtain ⟨restw, hreadw, -⟩ := hw
  exact Reading.ofJson_injective (congrArg Prod.fst (hreadv.symm.trans hreadw))

/-- A value that has a text can be written. -/
theorem IsText.isWritable (h : IsText bytes v) : v.IsWritable := by
  obtain ⟨rest, hread, -⟩ := h
  exact Reading.isWritable_parseValue _ _ v (congrArg Prod.fst hread)

/-- A value that can be written has a text. -/
theorem isText_compact (h : v.IsWritable) : IsText (Text.encode v.compact) v := by
  refine ⟨[], ?_, rfl⟩
  rw [Text.decode_encode, Text.stream, compact, String.toList_ofList]
  exact Reading.parse_renderAt isSpaced_compact h 0

/-- A document is read exactly where it is a text of a value that is read. -/
theorem Decoder.Reads.decodeBytes {α : Type} {decode : Decoder α} {P : Json → α → Prop}
    (h : Reads decode P) {x : α} :
    decodeBytes decode bytes = .ok x ↔ ∃ v, IsText bytes v ∧ P v x := by
  rw [Json.decodeBytes, decodeStream]
  rcases hread : Reading.parse (Text.decode bytes) with ⟨value, rest⟩
  rw [bind_eq_ok_iff]
  constructor
  · rintro ⟨y, hy, hend⟩
    split at hend
    · rename_i hempty
      cases hend
      obtain ⟨v, rfl, hv⟩ := (h _ _).1 hy
      exact ⟨v, ⟨rest, hread, List.isEmpty_iff.1 hempty⟩, hv⟩
    · cases hend
  · rintro ⟨v, ⟨tail, htext, hblank⟩, hv⟩
    obtain ⟨rfl, rfl⟩ := Prod.mk.inj (hread.symm.trans htext)
    exact ⟨x, h.ofJson.2 hv, by rw [hblank]; rfl⟩

end ReferenceDraws.Json
