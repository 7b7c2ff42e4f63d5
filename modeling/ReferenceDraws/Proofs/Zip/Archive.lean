import ReferenceDraws.Proofs.Outcome
import ReferenceDraws.Proofs.Zip.Deflate
import ReferenceDraws.Zip.Archive

/-!
# Archives read back

An archive of one entry is read as the data it was written with
(`Archive.readFirst_write`), as long as its sizes have room in four bytes and
nothing in it is taken for the record of a large archive.

* Numbers.  `at?_part` reads a number from the place where it was written.
* Fields.  A record is a list of numbers of known widths, and `at?_field`
  reads each of them.
* Parts.  An archive is an entry, its directory record and the end record.
* Reading.  The end record leads to the directory (`directory?_write`), this
  to the entry (`record?_write`), and this to the data.
-/

namespace ReferenceDraws.Archive

/-! ## Numbers -/

@[simp] theorem length_littleEndian (width n : Nat) : (littleEndian width n).length = width := by
  induction width generalizing n with
  | zero => rfl
  | succ width ih => rw [littleEndian, List.length_cons, ih]

/-- A number is read from its bytes as far as they hold it. -/
theorem numberOf_littleEndian (width n : Nat) :
    numberOf (littleEndian width n) = n % 256 ^ width := by
  induction width generalizing n with
  | zero => rw [littleEndian, numberOf, Nat.pow_zero, Nat.mod_one]
  | succ width ih =>
    rw [littleEndian, numberOf, ih, Nat.pow_succ', Nat.mod_mul, UInt8.toNat_ofNat']

/-- Bytes are those of the number that they stand for. -/
theorem littleEndian_numberOf (bytes : List UInt8) :
    littleEndian bytes.length (numberOf bytes) = bytes := by
  induction bytes with
  | nil => rfl
  | cons b rest ih =>
    have hb : b.toNat < 256 := b.toNat_lt
    have hlow : UInt8.ofNat (b.toNat + 256 * numberOf rest) = b := by
      refine UInt8.toNat_inj.1 ?_
      rw [UInt8.toNat_ofNat']
      omega
    have hhigh : (b.toNat + 256 * numberOf rest) / 256 = numberOf rest := by omega
    rw [numberOf, List.length_cons, littleEndian, hlow, hhigh, ih]

/-- The bytes of a file from a position on. -/
theorem toList_extract (file : List UInt8) (pos width : Nat) :
    (file.toArray.extract pos (pos + width)).toList = (file.drop pos).take width := by
  simp

/-- A number is read from the place where it was written. -/
theorem at?_part {before after : List UInt8} {width k n : Nat} (hwidth : 0 < width)
    (hn : n < 256 ^ width) (hpart : (after.drop k).take width = littleEndian width n) :
    at? (before ++ after).toArray width (before.length + k) = some n := by
  have hlength := congrArg List.length hpart
  rw [List.length_take, List.length_drop, length_littleEndian] at hlength
  have hdrop : (before ++ after).drop (before.length + k) = after.drop k := by
    rw [← List.drop_drop, List.drop_left]
  rw [at?, if_pos (by simp; omega), toList_extract, hdrop, hpart, numberOf_littleEndian,
    Nat.mod_eq_of_lt hn]

/-! ## Fields -/

/-- Numbers one after the other, each with its width. -/
def fieldBytes (fields : List (Nat × Nat)) : List UInt8 :=
  fields.flatMap fun f => littleEndian f.1 f.2

theorem fieldBytes_cons (f : Nat × Nat) (fields : List (Nat × Nat)) :
    fieldBytes (f :: fields) = littleEndian f.1 f.2 ++ fieldBytes fields :=
  List.flatMap_cons

/-- A field stands after the fields before it. -/
theorem take_drop_fieldBytes {fields : List (Nat × Nat)} {i width n : Nat}
    (hfield : fields[i]? = some (width, n)) (rest : List UInt8) :
    ((fieldBytes fields ++ rest).drop (fieldBytes (fields.take i)).length).take width =
      littleEndian width n := by
  induction fields generalizing i with
  | nil => cases hfield
  | cons f fields ih =>
    rw [fieldBytes_cons, List.append_assoc]
    cases i with
    | zero =>
      cases hfield
      rw [List.take_zero]
      exact List.take_left' (length_littleEndian width n)
    | succ i =>
      rw [List.take_succ_cons, fieldBytes_cons, List.length_append, ← List.drop_drop,
        List.drop_left]
      exact ih hfield

/-- A field is read from the place where it was written. -/
theorem at?_field {before rest : List UInt8} {fields : List (Nat × Nat)} (i k : Nat)
    {width n : Nat} (hfield : fields[i]? = some (width, n)) (hwidth : 0 < width)
    (hn : n < 256 ^ width) (hplace : (fieldBytes (fields.take i)).length = k) :
    at? (before ++ (fieldBytes fields ++ rest)).toArray width (before.length + k) = some n := by
  rw [← hplace]
  exact at?_part hwidth hn (take_drop_fieldBytes hfield rest)

/-! ## Parts -/

variable (name : String) (data : List UInt8)

/-- What an entry and its directory record have in common. -/
def commonPart : List (Nat × Nat) :=
  [(2, 20), (2, nameFlags name), (2, deflated), (2, 0), (2, 0x21),
    (4, (Crc32.checksum data).toNat), (4, (Deflate.store data).length), (4, data.length),
    (2, (Text.encode name).length), (2, 0)]

/-- The fields of an entry. -/
def entryFields : List (Nat × Nat) := (4, entryMark) :: commonPart name data

/-- The entry of an archive. -/
def entryPart : List UInt8 :=
  fieldBytes (entryFields name data) ++ (Text.encode name ++ Deflate.store data)

/-- The fields of a directory record. -/
def directoryFields : List (Nat × Nat) :=
  (4, directoryMark) :: (2, 0x314) :: commonPart name data ++
    [(2, 0), (2, 0), (2, 0), (4, 0o100644 * Nat.pow 2 16), (4, 0)]

/-- The directory record of an archive. -/
def directoryPart : List UInt8 := fieldBytes (directoryFields name data) ++ Text.encode name

/-- The fields of the end record. -/
def endFields : List (Nat × Nat) :=
  [(4, endMark), (2, 0), (2, 0), (2, 1), (2, 1), (4, (directoryPart name data).length),
    (4, (entryPart name data).length), (2, 0)]

theorem write_eq : write name data =
    entryPart name data ++ (directoryPart name data ++ fieldBytes (endFields name data)) := by
  simp [write, commonFields, entryPart, entryFields, directoryPart, directoryFields, endFields,
    commonPart, fieldBytes]

theorem length_entryFields : (fieldBytes (entryFields name data)).length = 30 := rfl

theorem length_directoryFields : (fieldBytes (directoryFields name data)).length = 46 := rfl

theorem length_endFields : (fieldBytes (endFields name data)).length = 22 := rfl

theorem length_entryPart : (entryPart name data).length =
    30 + (Text.encode name).length + (Deflate.store data).length := by
  rw [entryPart, List.length_append, List.length_append, length_entryFields, Nat.add_assoc]

theorem length_directoryPart :
    (directoryPart name data).length = 46 + (Text.encode name).length := by
  rw [directoryPart, List.length_append, length_directoryFields]

/-! ## Reading -/

/-- A field of the entry. -/
theorem at?_entry (i k : Nat) {width n : Nat}
    (hfield : (entryFields name data)[i]? = some (width, n)) (hwidth : 0 < width)
    (hn : n < 256 ^ width) (hplace : (fieldBytes ((entryFields name data).take i)).length = k) :
    at? (write name data).toArray width k = some n := by
  have hread := @at?_field []
    (Text.encode name ++ Deflate.store data ++
      (directoryPart name data ++ fieldBytes (endFields name data))) _ i k _ _
    hfield hwidth hn hplace
  rwa [List.nil_append, List.length_nil, Nat.zero_add, ← List.append_assoc, ← entryPart,
    ← write_eq] at hread

/-- A field of the directory record. -/
theorem at?_directory (i k : Nat) {width n : Nat}
    (hfield : (directoryFields name data)[i]? = some (width, n)) (hwidth : 0 < width)
    (hn : n < 256 ^ width)
    (hplace : (fieldBytes ((directoryFields name data).take i)).length = k) :
    at? (write name data).toArray width ((entryPart name data).length + k) = some n := by
  rw [write_eq, directoryPart, List.append_assoc]
  exact at?_field i k hfield hwidth hn hplace

/-- A field of the end record. -/
theorem at?_end (i k : Nat) {width n : Nat}
    (hfield : (endFields name data)[i]? = some (width, n)) (hwidth : 0 < width)
    (hn : n < 256 ^ width) (hplace : (fieldBytes ((endFields name data).take i)).length = k) :
    at? (write name data).toArray width
      ((entryPart name data).length + (directoryPart name data).length + k) = some n := by
  rw [write_eq, ← List.append_assoc, ← List.length_append,
    ← List.append_nil (fieldBytes (endFields name data))]
  exact at?_field i k hfield hwidth hn hplace

/-- The sizes of an archive have room in its records, and what stands before
the end record is not taken for the record that large archives have there. -/
structure Fits : Prop where
  name_lt : (Text.encode name).length < 2 ^ 16
  length_lt : (write name data).length < 2 ^ 32
  not_locator : at? (write name data).toArray 4 ((write name data).length - 42) ≠ some locatorMark

variable {name data}

theorem length_write : (write name data).length =
    (entryPart name data).length + (directoryPart name data).length + 22 := by
  rw [write_eq, List.length_append, List.length_append, length_endFields, Nat.add_assoc]

/-- The directory is found by the end record. -/
theorem directory?_write (h : Fits name data) :
    directory? (write name data).toArray = some ⟨0, (entryPart name data).length, 1⟩ := by
  have hlength := @length_write name data
  have hroom := h.length_lt
  have hmark := at?_end name data 0 0 rfl (by decide) (by decide) rfl
  rw [Nat.add_zero] at hmark
  have hdisk := at?_end name data 1 4 rfl (by decide) (by decide) rfl
  have hdirectoryDisk := at?_end name data 2 6 rfl (by decide) (by decide) rfl
  have hcount := at?_end name data 3 8 rfl (by decide) (by decide) rfl
  have htotal := at?_end name data 4 10 rfl (by decide) (by decide) rfl
  have hsize := at?_end name data 5 12 rfl (by decide) (by omega) rfl
  have hstart := at?_end name data 6 16 rfl (by decide) (by omega) rfl
  have hcomment := at?_end name data 7 20 rfl (by decide) (by decide) rfl
  have hend : (write name data).toArray.size - endLength =
      (entryPart name data).length + (directoryPart name data).length := by
    rw [List.size_toArray, hlength, endLength]
    omega
  have hfind : findEnd? (write name data).toArray
      ((write name data).toArray.size - endLength) 65536 =
        some ((entryPart name data).length + (directoryPart name data).length) := by
    rw [hend, findEnd?, if_pos hmark]
  have hlocator := h.not_locator
  rw [directory?, if_neg (by rw [List.size_toArray, hlength, endLength]; omega), hfind]
  simp only [Option.bind_eq_bind, Option.bind_some, hdisk, hdirectoryDisk, hcount, htotal, hsize,
    hstart, hcomment]
  have hplace : 20 + endLength + 0 = 42 := rfl
  have hshift : (entryPart name data).length + (directoryPart name data).length -
      (directoryPart name data).length - (entryPart name data).length = 0 := by
    omega
  rw [if_neg (by rw [List.size_toArray, hlength, endLength]; omega), if_neg (by simp), if_neg,
    if_neg (by omega), hshift]
  · rfl
  · rintro ⟨-, hmark⟩
    rw [List.size_toArray, hplace] at hmark
    exact hlocator hmark

/-- What the directory record says of the entry. -/
def entryOf (name : String) (data : List UInt8) : Entry :=
  ⟨Text.encode name, false, deflated, (Crc32.checksum data).toNat, (Deflate.store data).length,
    data.length, 0⟩

theorem nameFlags_even (name : String) : nameFlags name % 2 = 0 ∧ nameFlags name < 256 ^ 2 := by
  unfold nameFlags
  split
  · decide
  · decide

theorem length_le_length_store (data : List UInt8) : data.length ≤ (Deflate.store data).length :=
  Deflate.length_le_length_storeIn (data.length / Deflate.maxStored) data

/-- The directory record is read. -/
theorem record?_write (h : Fits name data) :
    record? (write name data).toArray 0 (entryPart name data).length =
      some (entryOf name data,
        (entryPart name data).length + (directoryPart name data).length) := by
  have hlength := @length_write name data
  have hentry := length_entryPart name data
  have hrecord := length_directoryPart name data
  have hdata := length_le_length_store data
  have hroom := h.length_lt
  have hname := h.name_lt
  have hmark := at?_directory name data 0 0 rfl (by decide) (by decide) rfl
  rw [Nat.add_zero] at hmark
  have hflags := at?_directory name data 3 8 rfl (by decide) (nameFlags_even name).2 rfl
  have hmethod := at?_directory name data 4 10 rfl (by decide) (by decide) rfl
  have hchecksum := at?_directory name data 7 16 rfl (by decide) (Crc32.checksum data).toNat_lt rfl
  have hpacked := at?_directory name data 8 20 rfl (by decide) (by omega) rfl
  have hsize := at?_directory name data 9 24 rfl (by decide) (by omega) rfl
  have hnamed := at?_directory name data 10 28 rfl (by decide) (by omega) rfl
  have hextra := at?_directory name data 11 30 rfl (by decide) (by decide) rfl
  have hcomment := at?_directory name data 12 32 rfl (by decide) (by decide) rfl
  have hstart := at?_directory name data 16 42 rfl (by decide) (by decide) rfl
  rw [record?, hmark]
  simp only [Option.bind_eq_bind, Option.bind_some, hflags, hmethod, hchecksum, hpacked, hsize,
    hnamed, hextra, hcomment, hstart]
  have hbytes : ((write name data).drop ((entryPart name data).length + 46)).take
      (Text.encode name).length = Text.encode name := by
    rw [write_eq, ← List.drop_drop, List.drop_left, directoryPart, List.append_assoc,
      ← length_directoryFields name data, List.drop_left, List.take_left]
  rw [if_neg (by simp), if_neg (by rw [List.size_toArray, hlength]; omega)]
  simp only [Nat.zero_div, Particulars.extended?, Option.bind_some, toList_extract, hbytes]
  rw [if_neg (by simp [deflated, aesMethod, positionLimit])]
  have hplain : decide (nameFlags name % 2 = 1) = false := by
    rw [(nameFlags_even name).1]
    rfl
  have hnext : (entryPart name data).length + 46 + (Text.encode name).length + 0 + 0 =
      (entryPart name data).length + (directoryPart name data).length := by
    omega
  rw [hplain, hnext]
  rfl

/-- The entry is found where its record says. -/
theorem entries_write (h : Fits name data) :
    entries (write name data).toArray = .ok [entryOf name data] := by
  have hroom := h.length_lt
  have hlength := @length_write name data
  rw [entries, directory?_write h]
  simp only [Option.bind_eq_bind, Option.bind_some]
  have hlimit : positionLimit = 2 ^ 64 := rfl
  rw [if_neg (by omega), records?, record?_write h]
  rfl

/-- The packed bytes of the entry are what was stored. -/
theorem packed?_write (h : Fits name data) :
    packed? (write name data).toArray (entryOf name data) = some (Deflate.store data) := by
  have hname := h.name_lt
  have hmark := at?_entry name data 0 0 rfl (by decide) (by decide) rfl
  have hnamed := at?_entry name data 9 26 rfl (by decide) (by omega) rfl
  have hextra := at?_entry name data 10 28 rfl (by decide) (by decide) rfl
  have hrest : (write name data).drop 30 = Text.encode name ++
      (Deflate.store data ++ (directoryPart name data ++ fieldBytes (endFields name data))) := by
    rw [write_eq, entryPart, List.append_assoc, List.append_assoc,
      ← length_entryFields name data, List.drop_left]
  have hbytes : ((write name data).drop (30 + (Text.encode name).length)).take
      (Deflate.store data).length = Deflate.store data := by
    rw [← List.drop_drop, hrest, List.drop_left, List.take_left]
  rw [packed?, entryOf, hmark]
  simp only [Option.bind_eq_bind, Option.bind_some, Nat.zero_add, Nat.add_zero, hnamed, hextra,
    toList_extract, hbytes]
  rw [if_neg (by simp)]
  rfl

/-- What an archive was written with is read. -/
theorem readFirst_write (h : Fits name data) : readFirst (write name data) = .ok data := by
  rw [readFirst, entries_write h, ok_bind]
  have hplain : ¬ (entryOf name data).encrypted = true := Bool.false_ne_true
  have hdeflated : (entryOf name data).method = deflated := rfl
  have hstored : ¬ (entryOf name data).method = 0 := by
    rw [hdeflated]
    decide
  simp only [read, packed?_write h, if_neg hplain, if_neg hstored, if_pos hdeflated, Option.elim,
    ok_bind, Deflate.inflate?_store]
  exact if_pos rfl

/-! ## The place of a locator -/

/-- Whether a name ends in bytes that may be taken for a locator, if they
stand before the end record. -/
def EndsLikeLocator (name : String) : Prop :=
  20 ≤ (Text.encode name).length ∧
    littleEndian 4 locatorMark <+:
      (Text.encode name).drop ((Text.encode name).length - 20)

/-- The fields of a directory record before the name, but for the first. -/
def lastFields : List UInt8 :=
  (littleEndian 2 0).drop 1 ++ (littleEndian 2 0 ++ (littleEndian 2 0 ++ (littleEndian 2 0 ++
    (littleEndian 4 (0o100644 * Nat.pow 2 16) ++ littleEndian 4 0))))

/-- None of them begins a locator. -/
theorem ne_of_mem_lastFields : ∀ b ∈ lastFields, b.toNat ≠ locatorMark % 256 := by
  decide +kernel

theorem numberOf_lastFields_ne {k : Nat} (hk : k < lastFields.length) (rest : List UInt8) :
    numberOf (((lastFields ++ rest).drop k).take 4) ≠ locatorMark := by
  intro hmark
  rw [List.drop_append_of_le_length (Nat.le_of_lt hk), List.drop_eq_getElem_cons hk,
    List.cons_append, List.take_succ_cons, numberOf] at hmark
  refine ne_of_mem_lastFields _ (List.getElem_mem hk) ?_
  have hb := (lastFields[k]).toNat_lt
  rw [← hmark]
  omega

/-- A mark twenty bytes before the end of a name begins the last twenty bytes
of it. -/
theorem endsLikeLocator_of_numberOf {rest : List UInt8} (hlong : 20 ≤ (Text.encode name).length)
    (h : numberOf (((Text.encode name ++ rest).drop ((Text.encode name).length - 20)).take 4) =
      locatorMark) : EndsLikeLocator name := by
  rw [List.drop_append_of_le_length (Nat.sub_le _ _),
    List.take_append_of_le_length (by rw [List.length_drop]; omega)] at h
  have hfour : (((Text.encode name).drop ((Text.encode name).length - 20)).take 4).length = 4 := by
    rw [List.length_take, List.length_drop]
    omega
  have hsame := littleEndian_numberOf
    (((Text.encode name).drop ((Text.encode name).length - 20)).take 4)
  rw [hfour, h] at hsame
  refine ⟨hlong, ?_⟩
  rw [hsame]
  exact List.take_prefix 4 _

/-- At the place of a locator stand the last fields of the directory record and
the name after them. -/
theorem drop_write (hlong : 5 ≤ (Text.encode name).length) :
    (write name data).drop ((write name data).length - 42) =
      (lastFields ++ (Text.encode name ++ fieldBytes (endFields name data))).drop
        ((Text.encode name).length - 5) := by
  have hentry := length_entryPart name data
  have hrecord := length_directoryPart name data
  have hplace : (write name data).length - 42 =
      (entryPart name data).length + (31 + ((Text.encode name).length - 5)) := by
    rw [length_write]
    omega
  have hlast : (directoryPart name data ++ fieldBytes (endFields name data)).drop 31 =
      lastFields ++ (Text.encode name ++ fieldBytes (endFields name data)) := by
    rw [directoryPart, List.append_assoc]
    rfl
  rw [hplace, write_eq, ← List.drop_drop, List.drop_left, ← List.drop_drop, hlast]

/-- A name that is not too short and does not end in a locator hides none. -/
theorem not_locator (hlong : 5 ≤ (Text.encode name).length) (hname : ¬ EndsLikeLocator name) :
    at? (write name data).toArray 4 ((write name data).length - 42) ≠ some locatorMark := by
  intro hmark
  rw [at?, if_pos (by rw [List.size_toArray, length_write]; omega), toList_extract,
    drop_write hlong, Option.some.injEq] at hmark
  have hfields : lastFields.length = 15 := rfl
  by_cases hshort : (Text.encode name).length < 20
  · -- the mark would begin within the fields
    exact numberOf_lastFields_ne (by omega) _ hmark
  · -- the mark would lie within the name
    have hk : (Text.encode name).length - 5 =
        lastFields.length + ((Text.encode name).length - 20) := by omega
    rw [hk, ← List.drop_drop, List.drop_left] at hmark
    exact hname (endsLikeLocator_of_numberOf (by omega) hmark)

end ReferenceDraws.Archive
