import ReferenceDraws.Draws.Series
import ReferenceDraws.Proofs.Json.Decoders
import ReferenceDraws.Proofs.Json.Text
import ReferenceDraws.Proofs.Related

/-!
# Series as JSON values

What is read of a series, of a chain and of a list of chains that were
written as values.

* Draws.  `Double.readBack` is what is read of a draw.
* Series.  `Series.readBack` is what is read of a series, and `ofJson?_toJson`
  tells the shapes apart: numbers are tried before rows, so that only a
  series without rows changes its shape.
* Chains.  `decodeList_listToJson` reads a list of chains entry by entry.
-/

namespace ReferenceDraws

/-! ## Draws -/

/-- What is read of a draw: every draw that is not finite is null as a
value, and null is no number. -/
def Double.readBack (d : Double) : Double := if d.isFinite then d else Double.nan

theorem Double.readBack_of_isFinite {d : Double} (h : d.isFinite = true) : d.readBack = d :=
  if_pos h

namespace Series

theorem draw?_ofDouble (d : Double) : draw? (.ofDouble d) = some d.readBack := by
  unfold Json.ofDouble Double.readBack
  split <;> rfl

/-- Items that are all read make a list that is read. -/
theorem mapM_map {α β : Type} {read : Json → Option β} {encode : α → Json} {g : α → β}
    (h : ∀ a, read (encode a) = some (g a)) (as : List α) :
    (as.map encode).mapM read = some (as.map g) :=
  mapM_eq_some_iff.2 (forall₂_map_map fun a _ => h a)

theorem arrayOf?_ofDoubles (ds : List Double) :
    arrayOf? draw? (.ofDoubles ds) = some (ds.map Double.readBack) :=
  mapM_map draw?_ofDouble ds

/-! ## Series -/

/-- A series whose draws are replaced in place. -/
def map (f : Double → Double) : Series → Series
  | .scalar values => .scalar (values.map f)
  | .rows rs => .rows (rs.map (·.map f))

/-- What is read of a series.  A series without rows is written as one
without numbers is. -/
def readBack : Series → Series
  | .rows [] => .scalar []
  | s => s.map Double.readBack

/-- A series that has draws, or had no rows to begin with, keeps its shape. -/
theorem readBack_eq_map {s : Series} (h : s ≠ .rows []) : s.readBack = s.map Double.readBack := by
  unfold readBack
  split
  · exact absurd rfl h
  · rfl

/-- The shape of a series is read off its value. -/
theorem ofJson?_toJson (s : Series) : ofJson? s.toJson = some s.readBack := by
  cases s with
  | scalar values =>
    rw [toJson, ofJson?, arrayOf?_ofDoubles]
    rfl
  | rows rs =>
    cases rs with
    | nil => rfl
    | cons row rs =>
      have hnumbers : arrayOf? draw? (.array ((row :: rs).map .ofDoubles)) = none := by
        simp [arrayOf?, Json.ofDoubles, draw?]
      have hrows : arrayOf? (arrayOf? draw?) (.array ((row :: rs).map .ofDoubles)) =
          some ((row :: rs).map (·.map Double.readBack)) := mapM_map arrayOf?_ofDoubles (row :: rs)
      rw [toJson, ofJson?, hnumbers, hrows]
      rfl

theorem fits_ofDouble (room : Nat) (d : Double) : Json.Decoder.Fits room (.ofDouble d) := by
  unfold Json.ofDouble
  split
  · exact .number room _
  · exact .null room

theorem fits_ofDoubles (room : Nat) (ds : List Double) :
    Json.Decoder.Fits (room + 1) (.ofDoubles ds) := by
  refine .array fun x hx => ?_
  obtain ⟨d, -, rfl⟩ := List.mem_map.1 hx
  exact fits_ofDouble room d

/-- A series has two levels of brackets at most. -/
theorem fits_toJson (room : Nat) (s : Series) : Json.Decoder.Fits (room + 2) s.toJson := by
  cases s with
  | scalar values => exact fits_ofDoubles (room + 1) values
  | rows rs =>
    refine .array fun x hx => ?_
    obtain ⟨row, -, rfl⟩ := List.mem_map.1 hx
    exact fits_ofDoubles room row

/-- A series is read where two more brackets may be open. -/
theorem decode_toJson {depth : Nat} (hdepth : depth + 2 ≤ Json.Decoder.maxDepth) (s : Series) :
    decode depth (.ofJson s.toJson) = .ok s.readBack := by
  obtain ⟨room, hroom⟩ : ∃ room, Json.Decoder.maxDepth - depth = room + 2 :=
    ⟨Json.Decoder.maxDepth - depth - 2, by omega⟩
  have hwhole := Json.Decoder.whole_ofJson (fits_toJson room s)
  simp only [decode, decodeAs, hroom, hwhole, ok_bind, ofJson?_toJson]
  rfl

theorem isWritable_ofDouble (d : Double) : (Json.ofDouble d).IsWritable := by
  unfold Json.ofDouble
  split
  · rename_i h
    exact .number h
  · exact .null

theorem isWritable_ofDoubles (ds : List Double) : (Json.ofDoubles ds).IsWritable := by
  refine .array fun x hx => ?_
  obtain ⟨d, -, rfl⟩ := List.mem_map.1 hx
  exact isWritable_ofDouble d

theorem isWritable_toJson (s : Series) : s.toJson.IsWritable := by
  cases s with
  | scalar values => exact isWritable_ofDoubles values
  | rows rs =>
    refine .array fun x hx => ?_
    obtain ⟨row, -, rfl⟩ := List.mem_map.1 hx
    exact isWritable_ofDoubles row

end Series

/-! ## Chains -/

namespace ChainDraws

/-- The draws of a parameter in all chains together. -/
def drawsOf (chains : List ChainDraws) (p : String) : Nat :=
  (chains.map fun chain => ((chain.get? p).map Series.size).getD 0).sum

/-- What is read of a chain. -/
def readBack (chain : ChainDraws) : ChainDraws :=
  .ofList (chain.entries.map fun e => (e.1, e.2.readBack))

/-- A chain keeps its names and their order. -/
theorem entries_readBack (chain : ChainDraws) :
    chain.readBack.entries = chain.entries.map fun e => (e.1, e.2.readBack) := by
  refine OrderedMap.entries_ofList ?_
  rw [List.map_map]
  exact chain.nodup

theorem decode_toJson {depth : Nat} (hdepth : depth + 3 ≤ Json.Decoder.maxDepth)
    (chain : ChainDraws) : decode depth (.ofJson chain.toJson) = .ok chain.readBack :=
  Json.Decoder.orderedMap_object fun e _ => Series.decode_toJson hdepth e.2

/-- A list of chains is read chain by chain. -/
theorem decodeList_listToJson (chains : List ChainDraws) :
    decodeList (.ofJson (listToJson chains)) = .ok (chains.map readBack) :=
  Json.Decoder.list_array fun chain _ => decode_toJson (by decide) chain

theorem isWritable_listToJson (chains : List ChainDraws) : (listToJson chains).IsWritable := by
  refine .array fun x hx => ?_
  obtain ⟨chain, -, rfl⟩ := List.mem_map.1 hx
  refine .object fun m hm => ?_
  obtain ⟨e, -, rfl⟩ := List.mem_map.1 hm
  exact Series.isWritable_toJson e.2

end ChainDraws

end ReferenceDraws
