import ReferenceDraws.Proofs.Draws.DrawArray
import ReferenceDraws.Proofs.Draws.Series
import ReferenceDraws.Proofs.Json.Documents
import ReferenceDraws.Proofs.Last
import ReferenceDraws.Proofs.Related
import ReferenceDraws.Proofs.SortedMap

/-!
# Matrices of draws as JSON documents

Which documents are read as a matrix of draws, what is read of them, and what
is left of a matrix that was written and read again.

* Shapes.  `IsNumbers` and `IsTable` are the two shapes of a variable's draws
  as a value.
* Variables.  `Describes` says which array a value stands for, and
  `reads_decode` that this array is what is read.
* Written arrays.  `DrawArray.readBack` is what is read of an array that was
  written.
* Arrays that were read.  All their draws are finite or the one NaN that null
  is read as, so that `readBack` leaves them as they are.
* Matrices.  `ofBytes_eq_ok_iff` opens the reader of documents up, and
  `rectangular_documents_read_back` puts the parts together.
-/

namespace ReferenceDraws

open List (Forall₂)

/-! ## Shapes -/

namespace Json

/-- A number or null. -/
inductive IsCell : Json → Prop
  | number (n : Number) : IsCell (.number n)
  | null : IsCell .null

/-- An array of numbers and nulls. -/
def IsNumbers (v : Json) : Prop := ∃ items, v = .array items ∧ ∀ x ∈ items, x.IsCell

/-- An array of arrays of numbers and nulls, all of one length. -/
def IsTable (width : Nat) (v : Json) : Prop :=
  ∃ rows, v = .array rows ∧
    ∀ row ∈ rows, ∃ items, row = .array items ∧ items.length = width ∧ ∀ x ∈ items, x.IsCell

end Json

/-! ## Draws -/

namespace Series

/-- A value stands for a draw: a number for the double nearest to it, and null
for a NaN. -/
inductive IsDraw : Json → Double → Prop
  | number (n : Json.Number) : IsDraw (.number n) n.toDouble
  | null : IsDraw .null .nan

theorem draw?_eq_some_iff {v : Json} {d : Double} : draw? v = some d ↔ IsDraw v d := by
  constructor
  · intro h
    unfold draw? at h
    split at h <;> cases h
    · exact .null
    · exact .number _
  · rintro (_ | _) <;> rfl

theorem exists_isDraw_iff {v : Json} : (∃ d, IsDraw v d) ↔ v.IsCell := by
  constructor
  · rintro ⟨d, _ | _⟩
    · exact .number _
    · exact .null
  · rintro (n | _)
    · exact ⟨_, .number n⟩
    · exact ⟨_, .null⟩

/-- A value is an array that stands for draws, item by item. -/
def HoldsDraws (v : Json) (draws : List Double) : Prop :=
  ∃ items, v = .array items ∧ Forall₂ IsDraw items draws

theorem arrayOf?_eq_some_iff {α : Type} {read : Json → Option α} {v : Json} {as : List α} :
    arrayOf? read v = some as ↔
      ∃ items, v = .array items ∧ Forall₂ (fun x a => read x = some a) items as := by
  unfold arrayOf?
  split
  · simp [mapM_eq_some_iff]
  · rename_i hother
    exact iff_of_false (by simp) fun ⟨items, hv, _⟩ => hother items hv

theorem numbers_eq_some_iff {v : Json} {draws : List Double} :
    arrayOf? draw? v = some draws ↔ HoldsDraws v draws := by
  simp only [arrayOf?_eq_some_iff, draw?_eq_some_iff, HoldsDraws]

theorem rows_eq_some_iff {v : Json} {rs : List (List Double)} :
    arrayOf? (arrayOf? draw?) v = some rs ↔
      ∃ items, v = .array items ∧ Forall₂ HoldsDraws items rs := by
  rw [arrayOf?_eq_some_iff]
  simp only [numbers_eq_some_iff]

/-- Draws are read of a value whose brackets fit and that has a shape. -/
theorem reads_decodeAs (type : String) (depth : Nat) :
    Json.Decoder.Reads (decodeAs type depth) fun v s =>
      Json.Decoder.Fits (Json.Decoder.maxDepth - depth) v ∧ ofJson? v = some s := by
  refine ((Json.Decoder.reads_whole _).bind _).congr fun v s => ?_
  constructor
  · rintro ⟨w, ⟨rfl, hfits⟩, hs⟩
    refine ⟨hfits, ?_⟩
    split at hs
    · cases hs
      assumption
    · cases hs
  · rintro ⟨hfits, hs⟩
    exact ⟨v, ⟨rfl, hfits⟩, by rw [hs]; rfl⟩

/-- Only an array without items is both numbers and rows. -/
theorem HoldsDraws.eq_nil {items : List Json} {draws : List Double} {rs : List (List Double)}
    (hnumbers : HoldsDraws (.array items) draws) (hrows : Forall₂ HoldsDraws items rs) :
    items = [] := by
  obtain ⟨cells, hcells, hdraws⟩ := hnumbers
  cases hcells
  cases hrows with
  | nil => rfl
  | cons hrow _ =>
    obtain ⟨inner, rfl, -⟩ := hrow
    cases hdraws with
    | cons hdraw _ => cases hdraw

/-- Numbers are tried before rows. -/
theorem ofJson?_eq_some_iff {v : Json} {s : Series} : ofJson? v = some s ↔
    (∃ draws, HoldsDraws v draws ∧ s = .scalar draws) ∨
    ∃ items rs, v = .array items ∧ items ≠ [] ∧ Forall₂ HoldsDraws items rs ∧ s = .rows rs := by
  unfold ofJson?
  split
  · rename_i draws hdraws
    rw [numbers_eq_some_iff] at hdraws
    constructor
    · intro h
      cases h
      exact .inl ⟨draws, hdraws, rfl⟩
    · rintro (⟨draws', hdraws', rfl⟩ | ⟨items, rs, rfl, hne, hrs, -⟩)
      · rw [← numbers_eq_some_iff] at hdraws hdraws'
        rw [Option.some.inj (hdraws.symm.trans hdraws')]
      · exact absurd (hdraws.eq_nil hrs) hne
  · rename_i hnone
    rw [Option.map_eq_some_iff]
    constructor
    · rintro ⟨rs, hrs, rfl⟩
      obtain ⟨items, rfl, hitems⟩ := rows_eq_some_iff.1 hrs
      refine .inr ⟨items, rs, rfl, ?_, hitems, rfl⟩
      rintro rfl
      cases hnone
    · rintro (⟨draws, hdraws, -⟩ | ⟨items, rs, rfl, -, hrs, rfl⟩)
      · rw [numbers_eq_some_iff.2 hdraws] at hnone
        cases hnone
      · exact ⟨rs, rows_eq_some_iff.2 ⟨items, rfl, hrs⟩, rfl⟩

/-- The shape of an array of draws. -/
theorem exists_holdsDraws_iff {v : Json} : (∃ draws, HoldsDraws v draws) ↔ v.IsNumbers := by
  simp only [HoldsDraws, Json.IsNumbers, ← exists_isDraw_iff, ← exists_forall₂_iff]
  constructor
  · rintro ⟨draws, items, rfl, h⟩
    exact ⟨items, rfl, draws, h⟩
  · rintro ⟨items, rfl, draws, h⟩
    exact ⟨draws, items, rfl, h⟩

theorem exists_holdsDraws_length_iff {v : Json} {width : Nat} :
    (∃ draws, HoldsDraws v draws ∧ draws.length = width) ↔
      ∃ items, v = .array items ∧ items.length = width ∧ ∀ x ∈ items, x.IsCell := by
  constructor
  · rintro ⟨draws, hrow, hlength⟩
    obtain ⟨items, rfl, hitems⟩ := hrow
    refine ⟨items, rfl, hitems.length_eq.trans hlength, fun x hx => ?_⟩
    exact exists_isDraw_iff.1 (exists_forall₂_iff.1 ⟨draws, hitems⟩ x hx)
  · rintro ⟨items, rfl, hlength, hcells⟩
    obtain ⟨draws, hitems⟩ := exists_forall₂_iff.2 fun x hx => exists_isDraw_iff.2 (hcells x hx)
    exact ⟨draws, ⟨items, rfl, hitems⟩, hitems.length_eq.symm.trans hlength⟩

/-- The shape of rows of one width. -/
theorem exists_rows_iff {v : Json} {width : Nat} :
    (∃ items rs, v = .array items ∧ Forall₂ HoldsDraws items rs ∧ ∀ row ∈ rs, row.length = width) ↔
      v.IsTable width := by
  simp only [Json.IsTable, ← exists_holdsDraws_length_iff, ← exists_forall₂_iff, forall₂_and_right,
    exists_and_left]

theorem HoldsDraws.fits {v : Json} {draws : List Double} (h : HoldsDraws v draws) (room : Nat) :
    Json.Decoder.Fits (room + 1) v := by
  obtain ⟨items, rfl, hitems⟩ := h
  refine .array fun x hx => ?_
  obtain ⟨d, _ | _⟩ := exists_forall₂_iff.1 ⟨draws, hitems⟩ x hx
  · exact .number room _
  · exact .null room

end Series

/-! ## Variables -/

namespace DrawArray

open Series (HoldsDraws)

/-- A value stands for an array: numbers for an array of numbers, and rows of
one width for an array of these rows. -/
inductive Describes : Json → DrawArray → Prop
  | numbers {v : Json} {draws : List Double} (h : HoldsDraws v draws) : Describes v (.scalar draws)
  | rows {items : List Json} {rs : List (List Double)} {dim : Nat} {a : DrawArray}
    (hitems : Forall₂ HoldsDraws items rs) (hne : items ≠ []) (ha : a.IsOfRows rs dim) :
    Describes (.array items) a

/-- The shapes that stand for an array. -/
theorem exists_describes_iff {v : Json} :
    (∃ a, Describes v a) ↔ v.IsNumbers ∨ ∃ width, v.IsTable width := by
  constructor
  · rintro ⟨a, hnumbers | @⟨items, rs, dim, _, hitems, -, ha⟩⟩
    · exact .inl (Series.exists_holdsDraws_iff.1 ⟨_, hnumbers⟩)
    · exact .inr ⟨dim, Series.exists_rows_iff.1 ⟨items, rs, rfl, hitems, ha.length_eq⟩⟩
  · rintro (hnumbers | ⟨width, htable⟩)
    · obtain ⟨draws, h⟩ := Series.exists_holdsDraws_iff.2 hnumbers
      exact ⟨_, .numbers h⟩
    · obtain ⟨items, rs, rfl, hitems, hwidth⟩ := Series.exists_rows_iff.2 htable
      by_cases hne : items = []
      · subst hne
        exact ⟨.scalar [], .numbers ⟨[], rfl, .nil⟩⟩
      · obtain ⟨a, ha⟩ := exists_isOfRows hwidth
        exact ⟨a, .rows hitems hne ha⟩

theorem Describes.fits {v : Json} {a : DrawArray} (h : Describes v a) (room : Nat) :
    Json.Decoder.Fits (room + 2) v := by
  cases h with
  | numbers h => exact h.fits (room + 1)
  | rows hitems _ _ =>
    refine .array fun x hx => ?_
    obtain ⟨draws, hdraws⟩ := exists_forall₂_iff.1 ⟨_, hitems⟩ x hx
    exact hdraws.fits room

/-- Draws of a series make the array that their value stands for. -/
theorem describes_iff {v : Json} {a : DrawArray} :
    Describes v a ↔ ∃ s, Series.ofJson? v = some s ∧ ofSeries s = .ok a := by
  simp only [Series.ofJson?_eq_some_iff]
  constructor
  · rintro (hnumbers | @⟨items, rs, dim, _, hitems, hne, ha⟩)
    · exact ⟨_, .inl ⟨_, hnumbers, rfl⟩, rfl⟩
    · refine ⟨_, .inr ⟨_, _, rfl, hne, hitems, rfl⟩, ?_⟩
      have hrs : rs ≠ [] := by
        rintro rfl
        exact hne (List.forall₂_nil_right_iff.1 hitems)
      rwa [ofSeries, ofRows_eq_ok_iff, ha.widthOf_eq hrs]
  · rintro ⟨s, ⟨draws, hdraws, rfl⟩ | ⟨items, rs, rfl, hne, hitems, rfl⟩, hs⟩
    · cases hs
      exact .numbers hdraws
    · exact .rows hitems hne (ofRows_eq_ok_iff.1 hs)

theorem Describes.unique {v : Json} {a b : DrawArray} (ha : Describes v a) (hb : Describes v b) :
    a = b := by
  obtain ⟨s, hs, ha⟩ := describes_iff.1 ha
  obtain ⟨t, ht, hb⟩ := describes_iff.1 hb
  obtain rfl : s = t := Option.some.inj (hs.symm.trans ht)
  exact Except.ok.inj (ha.symm.trans hb)

/-- What is read is the array that the value stands for. -/
theorem reads_decode {depth : Nat} (hdepth : depth + 2 ≤ Json.Decoder.maxDepth) :
    Json.Decoder.Reads (decode depth) Describes := by
  obtain ⟨room, hroom⟩ : ∃ room, Json.Decoder.maxDepth - depth = room + 2 :=
    ⟨Json.Decoder.maxDepth - depth - 2, by omega⟩
  refine ((Series.reads_decodeAs "ArrayRepr" depth).bind _).congr fun v a => ?_
  rw [hroom, describes_iff]
  constructor
  · rintro ⟨s, ⟨-, hs⟩, ha⟩
    split at ha
    · rename_i b hb
      cases ha
      exact ⟨s, hs, hb⟩
    · cases ha
  · intro h
    have hfits := (describes_iff.2 h).fits room
    obtain ⟨s, hs, ha⟩ := h
    exact ⟨s, ⟨hfits, hs⟩, by rw [ha]; rfl⟩

/-! ## Written arrays -/

/-- What is read of an array that was written: the array with NaNs for all
draws that are not finite.  An array of rows without rows is written as one of
numbers without numbers is. -/
def readBack (a : DrawArray) : DrawArray :=
  if a.dim.isSome ∧ a.totalDraws = 0 then .scalar []
  else { a with values := a.values.map Double.readBack, size_eq := by simp [a.size_eq] }

theorem forall₂_ofDouble (ds : List Double) :
    Forall₂ Series.IsDraw (ds.map Json.ofDouble) (ds.map Double.readBack) :=
  forall₂_map_map fun d _ => Series.draw?_eq_some_iff.1 (Series.draw?_ofDouble d)

theorem holdsDraws_ofDoubles (ds : List Double) :
    HoldsDraws (.ofDoubles ds) (ds.map Double.readBack) :=
  ⟨_, rfl, forall₂_ofDouble ds⟩

theorem isOfRows_readBack {a : DrawArray} {dim : Nat} (hdim : a.dim = some dim)
    (hdraws : a.totalDraws ≠ 0) :
    a.readBack.IsOfRows (a.rows.map (·.map Double.readBack)) dim := by
  rw [readBack, if_neg fun h => hdraws h.2]
  refine ⟨hdim, by simp, ?_, ?_⟩
  · rw [Array.toList_map, ← a.flatten_rows, List.map_flatten]
  · intro row hrow
    obtain ⟨row, hmem, rfl⟩ := List.mem_map.1 hrow
    rw [List.length_map, (isOfRows_rows hdim).length_eq row hmem]

/-- A written array stands for what is read back. -/
theorem describes_toJson (a : DrawArray) : Describes a.toJson a.readBack := by
  cases hdim : a.dim with
  | none =>
    have hback : a.readBack = .scalar (a.values.toList.map Double.readBack) := by
      rw [readBack, if_neg (by simp [hdim])]
      refine ext (by simp [scalar]) ?_ hdim
      have hsize := a.size_eq
      simpa [hdim, scalar] using hsize.symm
    have hjson : a.toJson = .ofDoubles a.values.toList := by
      rw [toJson, series, hdim]
      rfl
    rw [hback, hjson]
    exact .numbers (holdsDraws_ofDoubles _)
  | some dim =>
    have hjson : a.toJson = .array (a.rows.map .ofDoubles) := by
      rw [toJson, series, hdim]
      rfl
    rw [hjson]
    by_cases hnone : a.totalDraws = 0
    · have hrows : a.rows = [] := List.eq_nil_of_length_eq_zero (a.length_rows.trans hnone)
      -- Without rows there is nothing to tell that they were rows.
      rw [readBack, if_pos ⟨by simp [hdim], hnone⟩, hrows]
      exact .numbers ⟨[], rfl, .nil⟩
    · have hitems : Forall₂ HoldsDraws (a.rows.map .ofDoubles)
          (a.rows.map (·.map Double.readBack)) :=
        forall₂_map_map fun row _ => holdsDraws_ofDoubles row
      have hne : a.rows.map Json.ofDoubles ≠ [] := by
        intro hnil
        rw [List.map_eq_nil_iff] at hnil
        exact hnone (by rw [← a.length_rows, hnil, List.length_nil])
      refine .rows hitems hne (isOfRows_readBack hdim hnone)

end DrawArray

/-! ## Arrays that were read -/

theorem Json.Number.isFinite_toDouble {n : Json.Number} (h : n.IsWritable) :
    n.toDouble.isFinite = true := by
  have hword : ∀ (k : UInt64) (e : Nat), 64 ≤ e → k.toNat < 1 * 2 ^ e := fun k e he =>
    calc k.toNat < 2 ^ 64 := k.toNat_lt
      _ ≤ 2 ^ e := Nat.pow_le_pow_right (by decide) he
      _ = 1 * 2 ^ e := (Nat.one_mul _).symm
  cases n with
  | nat k => exact Double.isFinite_ofRatio false Nat.one_pos (hword k 1023 (by decide))
  | negative k => exact Double.isFinite_ofRatio true Nat.one_pos (hword k 1023 (by decide))
  | double d => exact h

theorem Double.readBack_nan : Double.readBack .nan = .nan := by decide

theorem Series.IsDraw.readBack_eq {v : Json} {d : Double} (h : Series.IsDraw v d)
    (hv : v.IsWritable) : d.readBack = d := by
  cases h with
  | number n =>
    cases hv with
    | number hn => exact Double.readBack_of_isFinite (Json.Number.isFinite_toDouble hn)
  | null => exact Double.readBack_nan

/-- Draws that were read are finite or the NaN that null is read as. -/
theorem Series.HoldsDraws.readBack_eq {v : Json} {draws : List Double}
    (h : Series.HoldsDraws v draws) (hv : v.IsWritable) : ∀ d ∈ draws, d.readBack = d := by
  obtain ⟨items, rfl, hitems⟩ := h
  cases hv with
  | array hall =>
    intro d hd
    obtain ⟨x, hx, hdraw⟩ := exists_of_mem_forall₂ hitems hd
    exact hdraw.readBack_eq (hall x hx)

namespace DrawArray

theorem readBack_eq {a : DrawArray} (hshape : a.dim.isSome → a.totalDraws ≠ 0)
    (hdraws : ∀ d ∈ a.values.toList, d.readBack = d) : a.readBack = a := by
  rw [readBack, if_neg fun h => hshape h.1 h.2]
  refine ext ?_ rfl rfl
  rw [Array.toList_map]
  exact (List.map_congr_left hdraws).trans (List.map_id' _)

/-- An array that was read of a document is written as that array again. -/
theorem Describes.readBack_eq {v : Json} {a : DrawArray} (h : Describes v a)
    (hv : v.IsWritable) : a.readBack = a := by
  cases h with
  | numbers hrow =>
    refine DrawArray.readBack_eq (by simp [scalar]) ?_
    exact hrow.readBack_eq hv
  | @rows items rs dim _ hitems hne ha =>
    cases hv with
    | array hall =>
      refine DrawArray.readBack_eq (fun _ hnone => ?_) fun d hd => ?_
      · rw [ha.totalDraws_eq, ← hitems.length_eq] at hnone
        exact hne (List.eq_nil_of_length_eq_zero hnone)
      · rw [ha.values_eq] at hd
        obtain ⟨row, hrow, hd⟩ := List.mem_flatten.1 hd
        obtain ⟨x, hx, hxrow⟩ := exists_of_mem_forall₂ hitems hrow
        exact hxrow.readBack_eq (hall x hx) d hd

end DrawArray

/-! ## Matrices -/

namespace DrawMatrix

open DrawArray (Describes)

/-- A document is read as a matrix exactly where it is a text of an object
whose members all stand for arrays. -/
theorem ofBytes_eq_ok_iff {bytes : List UInt8} {m : DrawMatrix} :
    ofBytes bytes = .ok m ↔ ∃ members es, Json.IsText bytes (.object members) ∧
      Forall₂ (fun v e => v.1 = e.1 ∧ Describes v.2 e.2) members es ∧ SortedMap.ofList es = m := by
  have harrays : Json.Decoder.Reads (DrawArray.decode 1) Describes :=
    DrawArray.reads_decode (by decide)
  have hmatrices : Json.Decoder.Reads decode _ := harrays.sortedMap
  rw [ofBytes, mapError_eq_ok_iff, hmatrices.decodeBytes]
  constructor
  · rintro ⟨v, htext, members, es, rfl, hes, hm⟩
    exact ⟨members, es, htext, hes, hm⟩
  · rintro ⟨members, es, htext, hes, hm⟩
    exact ⟨_, htext, members, es, rfl, hes, hm⟩

variable {bytes : List UInt8} {members : List (String × Json)} {m : DrawMatrix}

/-- The texts that are read, by the shapes of their members. -/
theorem exists_ofBytes_iff (htext : Json.IsText bytes (.object members)) :
    (∃ m, ofBytes bytes = .ok m) ↔ ∀ e ∈ members, e.2.IsNumbers ∨ ∃ width, e.2.IsTable width := by
  simp only [← DrawArray.exists_describes_iff]
  constructor
  · rintro ⟨m, hm⟩ e he
    obtain ⟨others, es, hothers, hes, -⟩ := ofBytes_eq_ok_iff.1 hm
    obtain rfl : others = members := Json.object.inj (hothers.unique htext)
    obtain ⟨entry, -, ha⟩ := exists_forall₂_iff.1 ⟨es, hes⟩ e he
    exact ⟨entry.2, ha⟩
  · intro h
    have hentries : ∀ e ∈ members, ∃ entry : String × DrawArray,
        e.1 = entry.1 ∧ Describes e.2 entry.2 := by
      intro e he
      obtain ⟨a, ha⟩ := h e he
      exact ⟨(e.1, a), rfl, ha⟩
    obtain ⟨es, hes⟩ := exists_forall₂_iff.2 hentries
    exact ⟨_, ofBytes_eq_ok_iff.2 ⟨members, es, htext, hes, rfl⟩⟩

/-- A variable has the draws of the last member of its name. -/
theorem get?_ofBytes (htext : Json.IsText bytes (.object members)) (hm : ofBytes bytes = .ok m)
    (name : String) (a : DrawArray) : m.get? name = some a ↔
      ∃ value, IsLast (·.1 = name) members (name, value) ∧ Describes value a := by
  obtain ⟨others, es, hothers, hes, rfl⟩ := ofBytes_eq_ok_iff.1 hm
  obtain rfl : others = members := Json.object.inj (hothers.unique htext)
  rw [SortedMap.get?_ofList, lookup_eq_some_iff_of_forall₂ (List.forall₂_reverse_iff.2 hes)
    fun _ _ _ => Describes.unique]
  simp only [lookup_reverse_eq_some_iff]

theorem isWritable_toJson (m : DrawMatrix) : m.toJson.IsWritable := by
  refine .object fun e he => ?_
  obtain ⟨e, -, rfl⟩ := List.mem_map.1 he
  exact e.2.series.isWritable_toJson

/-- A written matrix is read array by array. -/
theorem ofBytes_toJson (m : DrawMatrix) :
    ofBytes (Text.encode m.toJson.compact) = .ok (m.map DrawArray.readBack) := by
  refine ofBytes_eq_ok_iff.2 ⟨_, m.entries.map fun e => (e.1, e.2.readBack),
    Json.isText_compact m.isWritable_toJson, ?_, ?_⟩
  · exact forall₂_map_map fun e _ => ⟨rfl, e.2.describes_toJson⟩
  · exact SortedMap.ext (SortedMap.entries_ofList (m.map DrawArray.readBack).sorted)

/-- A matrix that was read of a document is written as that matrix again. -/
theorem map_readBack_of_ofBytes (hm : ofBytes bytes = .ok m) : m.map DrawArray.readBack = m := by
  obtain ⟨members, es, htext, hes, rfl⟩ := ofBytes_eq_ok_iff.1 hm
  refine SortedMap.ext ((List.map_congr_left fun e he => ?_).trans (List.map_id' _))
  have hget : (SortedMap.ofList es).get? e.1 = some e.2 := SortedMap.get?_eq_some_iff.2 he
  obtain ⟨value, hlast, ha⟩ := (get?_ofBytes htext hm e.1 e.2).1 hget
  have hvalue : value.IsWritable := by
    cases htext.isWritable with
    | object hall => exact hall _ hlast.mem
  rw [ha.readBack_eq hvalue]

/-- Objects of numbers and rectangles, and no other documents, are read as
matrices, and the last member of a name counts.  What was read of a document is
written and read again as it is; of other matrices the draws that are not
finite and the arrays of no rows are lost. -/
theorem rectangular_documents_read_back :
    (∀ bytes m, ofBytes bytes = .ok m → ∃ members, Json.IsText bytes (.object members)) ∧
    (∀ bytes members, Json.IsText bytes (.object members) →
      ((∃ m, ofBytes bytes = .ok m) ↔
        ∀ e ∈ members, e.2.IsNumbers ∨ ∃ width, e.2.IsTable width) ∧
      ∀ m, ofBytes bytes = .ok m → ∀ name a, m.get? name = some a ↔
        ∃ value, IsLast (·.1 = name) members (name, value) ∧ Describes value a) ∧
    (∀ m : DrawMatrix,
      ofBytes (Text.encode m.toJson.compact) = .ok (m.map DrawArray.readBack)) ∧
    ∀ bytes m, ofBytes bytes = .ok m → ofBytes (Text.encode m.toJson.compact) = .ok m := by
  refine ⟨fun bytes m hm => ?_, fun bytes members htext => ⟨exists_ofBytes_iff htext, ?_⟩,
    ofBytes_toJson, fun bytes m hm => ?_⟩
  · obtain ⟨members, -, htext, -, -⟩ := ofBytes_eq_ok_iff.1 hm
    exact ⟨members, htext⟩
  · exact fun m hm => get?_ofBytes htext hm
  · rw [ofBytes_toJson, map_readBack_of_ofBytes hm]

/-- Two rows with null draws. -/
def gappedRows : DrawArray where
  values := #[.one, .nan, .nan, .zero]
  totalDraws := 2
  dim := some 2
  size_eq := rfl

/-- A variable that comes first as numbers and then as rows, and one without
draws. -/
def repeatedMembers : List (String × Json) :=
  [("beta", .scalar [.one, .nan]), ("mu", .scalar []), ("beta", gappedRows)].map
    fun e => (e.1, DrawArray.toJson e.2)

/-- The text of their object. -/
def repeatedBytes : List UInt8 := Text.encode (Json.object repeatedMembers).compact

/-- The last rows of a repeated name are read, and are still there when the
matrix has been written and read again. -/
theorem rectangular_documents_read_back_repeated :
    Json.IsText repeatedBytes (.object repeatedMembers) ∧
      ∃ m, ofBytes repeatedBytes = .ok m ∧ m.get? "beta" = some gappedRows ∧
        ofBytes (Text.encode m.toJson.compact) = .ok m := by
  have htext : Json.IsText repeatedBytes (.object repeatedMembers) := by
    refine Json.isText_compact (.object fun e he => ?_)
    obtain ⟨d, -, rfl⟩ := List.mem_map.1 he
    exact d.2.series.isWritable_toJson
  obtain ⟨-, hread, -, hagain⟩ := rectangular_documents_read_back
  obtain ⟨hexists, hget⟩ := hread repeatedBytes repeatedMembers htext
  obtain ⟨m, hm⟩ := hexists.2 fun e he => by
    obtain ⟨d, -, rfl⟩ := List.mem_map.1 he
    exact DrawArray.exists_describes_iff.1 ⟨_, d.2.describes_toJson⟩
  have hlast : IsLast (·.1 = "beta") repeatedMembers ("beta", gappedRows.toJson) :=
    ⟨repeatedMembers.take 2, [], rfl, rfl, by simp⟩
  have hback : gappedRows.readBack = gappedRows :=
    DrawArray.readBack_eq (by decide) (by decide)
  have hrows : Describes gappedRows.toJson gappedRows := by
    have h := gappedRows.describes_toJson
    rwa [hback] at h
  exact ⟨htext, m, hm, (hget m hm _ _).2 ⟨_, hlast, hrows⟩, hagain _ m hm⟩

end DrawMatrix

end ReferenceDraws
