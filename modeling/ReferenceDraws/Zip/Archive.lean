import ReferenceDraws.Zip.Checksum
import ReferenceDraws.Zip.Deflate
import ReferenceDraws.Text.Utf8

/-!
# Zip archives

An archive is a sequence of entries, a directory of them, and an end record that says where the
directory lies. Archives are written with one entry, whose data is in stored blocks of the
compressed format, and read from whatever wrote them, as long as the entry is stored or deflated
and not encrypted. Bytes before the archive shift all positions and do not matter otherwise.

* `Archive.write`: an archive of one entry;
* `Archive.readFirst`: the data of the first entry.
-/

namespace ReferenceDraws.Archive

/-! ## Numbers -/

/-- A number of so many bytes, the low byte first. -/
def littleEndian : Nat → Nat → List UInt8
  | 0, _ => []
  | width + 1, n => UInt8.ofNat n :: littleEndian width (n / 256)

/-- The number that bytes stand for, the low byte first. -/
def numberOf : List UInt8 → Nat
  | [] => 0
  | b :: rest => b.toNat + 256 * numberOf rest

/-- The number of so many bytes at a position. -/
def at? (file : Array UInt8) (width pos : Nat) : Option Nat :=
  if pos + width ≤ file.size then some (numberOf (file.extract pos (pos + width)).toList)
  else none

/-- The mark of an entry. -/
def entryMark : Nat := 0x04034b50

/-- The mark of a directory record. -/
def directoryMark : Nat := 0x02014b50

/-- The mark of the end record. -/
def endMark : Nat := 0x06054b50

/-- The mark of an end record for large archives. -/
def largeEndMark : Nat := 0x06064b50

/-- The mark of the record that says where the one for large archives lies. -/
def locatorMark : Nat := 0x07064b50

/-! ## Writing -/

/-- The number of the deflate method. -/
def deflated : Nat := 8

/-- The flag of a name in Unicode, which a name beyond ASCII needs. -/
def nameFlags (name : String) : Nat := if name.toList.all (·.toNat < 128) then 0 else 0x800

/-- What an entry and its directory record have in common: version, flags, method, time, date,
checksum, sizes and the length of the name. -/
def commonFields (name : String) (data packed : List UInt8) : List UInt8 :=
  littleEndian 2 20 ++ littleEndian 2 (nameFlags name) ++ littleEndian 2 deflated ++
    littleEndian 2 0 ++ littleEndian 2 0x21 ++
    littleEndian 4 (Crc32.checksum data).toNat ++ littleEndian 4 packed.length ++
    littleEndian 4 data.length ++ littleEndian 2 (Text.encode name).length ++ littleEndian 2 0

/-- An archive of one entry. -/
def write (name : String) (data : List UInt8) : List UInt8 :=
  let packed := Deflate.store data
  let entry :=
    littleEndian 4 entryMark ++ commonFields name data packed ++ Text.encode name ++ packed
  let directory :=
    littleEndian 4 directoryMark ++ littleEndian 2 0x314 ++ commonFields name data packed ++
      littleEndian 2 0 ++ littleEndian 2 0 ++ littleEndian 2 0 ++
      littleEndian 4 (0o100644 * Nat.pow 2 16) ++ littleEndian 4 0 ++ Text.encode name
  entry ++ directory ++
    littleEndian 4 endMark ++ littleEndian 2 0 ++ littleEndian 2 0 ++ littleEndian 2 1 ++
    littleEndian 2 1 ++ littleEndian 4 directory.length ++ littleEndian 4 entry.length ++
    littleEndian 2 0

/-! ## Reading the directory -/

/-- Why an archive cannot be read. -/
inductive Fault where
  /-- There is no archive, or its directory is damaged. -/
  | directory
  /-- The archive has no entries. -/
  | empty
  /-- The first entry cannot be found, is encrypted or packed by an unknown method. -/
  | entry
  /-- The data of the first entry is damaged. -/
  | data
deriving DecidableEq

/-- A directory record. -/
structure Entry where
  /-- The name, as bytes. -/
  name : List UInt8
  encrypted : Bool
  method : Nat
  checksum : Nat
  packedSize : Nat
  size : Nat
  /-- Where the entry lies in the file. -/
  start : Nat

/-- Where the directory lies and how many records it has; `shift` is the number of bytes before
the archive. -/
structure Directory where
  shift : Nat
  start : Nat
  count : Nat

/-- The length of the end record. -/
def endLength : Nat := 22

/-- The last position of an end mark among so many before and including `pos`. -/
def findEnd? (file : Array UInt8) (pos : Nat) : Nat → Option Nat
  | 0 => none
  | tries + 1 =>
    if at? file 4 pos = some endMark then some pos
    else if pos = 0 then none
    else findEnd? file (pos - 1) tries

/-- The first position of a mark among so many from `pos` on. -/
def findMark? (file : Array UInt8) (mark pos : Nat) : Nat → Option Nat
  | 0 => none
  | tries + 1 =>
    if at? file 4 pos = some mark then some pos else findMark? file mark (pos + 1) tries

/-- The directory of a large archive, which a locator before the end record announces. -/
def largeDirectory? (file : Array UInt8) (locator endPos : Nat) (small : Bool) (disk : Nat) :
    Option Directory := do
  let directoryDisk ← at? file 4 (locator + 4)
  let nominal ← at? file 8 (locator + 8)
  let _ ← at? file 4 (locator + 16)
  if small && disk ≠ directoryDisk then none
  else if endPos < 60 ∨ endPos - 60 < nominal then none
  else
    let pos ← findMark? file largeEndMark nominal (endPos - 60 - nominal + 1)
    let disk ← at? file 4 (pos + 16)
    let directoryDisk ← at? file 4 (pos + 20)
    let count ← at? file 8 (pos + 32)
    let start ← at? file 8 (pos + 48)
    if disk ≠ directoryDisk then none
    else pure ⟨pos - nominal, start + (pos - nominal), count⟩

/-- The directory that the end record of a file describes. -/
def directory? (file : Array UInt8) : Option Directory := do
  if file.size < endLength then none
  else
    let endPos ← findEnd? file (file.size - endLength) 65536
    let disk ← at? file 2 (endPos + 4)
    let directoryDisk ← at? file 2 (endPos + 6)
    let count ← at? file 2 (endPos + 8)
    let total ← at? file 2 (endPos + 10)
    let size ← at? file 4 (endPos + 12)
    let start ← at? file 4 (endPos + 16)
    let comment ← at? file 2 (endPos + 20)
    if file.size < endPos + endLength + comment then none
    else
      let small := disk ≠ 0xffff && directoryDisk ≠ 0xffff && count ≠ 0xffff && total ≠ 0xffff &&
        size ≠ 0xffffffff && start ≠ 0xffffffff
      let locator := file.size - (20 + endLength + comment)
      if small && disk ≠ directoryDisk then none
      else if 20 + endLength + comment ≤ file.size ∧ at? file 4 locator = some locatorMark then
        largeDirectory? file locator endPos small disk
      else if endPos < size + start then none
      else
        let shift := endPos - size - start
        pure ⟨shift, start + shift, count⟩

/-- What a directory record says of its entry, as far as extra fields may correct it. -/
structure Particulars where
  size : Nat
  packedSize : Nat
  /-- Where the entry lies in the archive. -/
  start : Nat
  method : Nat
  /-- Whether an extra field says how the entry is encrypted. -/
  aes : Bool := false

/-- The number that stands for one of eight bytes in an extra field. -/
def exceeding : Nat := 0xffffffff

/-- The number of the method that stands for one in an extra field on encryption. -/
def aesMethod : Nat := 99

/-- The next number of eight bytes. -/
def eight? (bytes : List UInt8) : Option (Nat × List UInt8) :=
  if 8 ≤ bytes.length then some (numberOf (bytes.take 8), bytes.drop 8) else none

/-- Replaces the numbers of a list that exceed four bytes by numbers of eight bytes, in order; the
bytes that are left, if there are enough. -/
def widen : List Nat → List UInt8 → List Nat × Option (List UInt8)
  | [], bytes => ([], some bytes)
  | n :: rest, bytes =>
    if n = exceeding then
      match eight? bytes with
      | some (n, bytes) =>
        let (rest, left) := widen rest bytes
        (n :: rest, left)
      | none => (n :: rest, none)
    else
      let (rest, left) := widen rest bytes
      (n :: rest, left)

/-- The particulars after a field for large entries, whose numbers are not held to its length; with
the bytes after it, if there are enough for its numbers. -/
def Particulars.widened (p : Particulars) (length : Nat) (bytes : List UInt8) :
    Particulars × Option (List UInt8) :=
  match widen [p.size, p.packedSize, p.start] bytes with
  | ([size, packed, start], left) =>
    ({ p with size := size, packedSize := packed, start := start },
      left.map fun left => left.drop (length - (bytes.length - left.length)))
  | _ => (p, none)

/-- The particulars after a field on encryption, or none if it is not one that is known. It holds
the version and the name of a vendor, a strength and a method, and as many bytes as it has are
passed over after it. A field that is cut short does not count. -/
def Particulars.encrypted? (p : Particulars) (length : Nat) (bytes : List UInt8) :
    Option (Particulars × Option (List UInt8)) :=
  if length ≠ 7 then none
  else
    match bytes with
    | v0 :: v1 :: i0 :: i1 :: strength :: m0 :: m1 :: rest =>
      if numberOf [i0, i1] = 0x4541 ∧ numberOf [v0, v1] ∈ [1, 2] ∧ strength.toNat ∈ [1, 2, 3] then
        some ({ p with method := numberOf [m0, m1], aes := true }, some (rest.drop length))
      else none
    | _ => some (p, none)

/-- The particulars after extra fields, or none if one on encryption is not known. Fields end where
one is cut short. The fuel bounds their number. -/
def Particulars.extended? : Nat → List UInt8 → Particulars → Option Particulars
  | 0, _, p => some p
  | fuel + 1, extra, p =>
    match extra with
    | k0 :: k1 :: l0 :: l1 :: rest => do
      let length := numberOf [l0, l1]
      let (p, left) ←
        if numberOf [k0, k1] = 1 then some (p.widened length rest)
        else if numberOf [k0, k1] = 0x9901 then p.encrypted? length rest
        else some (p, some (rest.drop length))
      match left with
      | some rest => extended? fuel rest p
      | none => pure p
    | _ => some p

/-- Positions are words of sixty-four bits. -/
def positionLimit : Nat := UInt64.size

/-- The directory record at a position, and the position after it. -/
def record? (file : Array UInt8) (shift pos : Nat) : Option (Entry × Nat) := do
  let mark ← at? file 4 pos
  if mark ≠ directoryMark then none
  else
    let flags ← at? file 2 (pos + 8)
    let method ← at? file 2 (pos + 10)
    let checksum ← at? file 4 (pos + 16)
    let packed ← at? file 4 (pos + 20)
    let size ← at? file 4 (pos + 24)
    let name ← at? file 2 (pos + 28)
    let extra ← at? file 2 (pos + 30)
    let comment ← at? file 2 (pos + 32)
    let start ← at? file 4 (pos + 42)
    let body := pos + 46
    let next := body + name + extra + comment
    if file.size < next then none
    else
      let fields := (file.extract (body + name) (body + name + extra)).toList
      let p ← Particulars.extended? (extra / 4) fields ⟨size, packed, start, method, false⟩
      if (p.method = aesMethod ∧ !p.aes) ∨ positionLimit ≤ p.start + shift then none
      else
        let nameBytes := (file.extract body (body + name)).toList
        pure (⟨nameBytes, flags % 2 = 1 || p.aes, p.method, checksum, p.packedSize, p.size,
          p.start + shift⟩, next)

/-- So many directory records from a position on. -/
def records? (file : Array UInt8) (shift : Nat) : Nat → Nat → Option (List Entry)
  | 0, _ => some []
  | count + 1, pos => do
    let (entry, pos) ← record? file shift pos
    let rest ← records? file shift count pos
    pure (entry :: rest)

/-- The entries of an archive. A directory must start at a position that a file can have, which is
less than half of what a word holds. -/
def entries (file : Array UInt8) : Except Fault (List Entry) :=
  match (do
    let d ← directory? file
    if positionLimit ≤ 2 * d.start then none
    else records? file d.shift d.count d.start) with
  | some es => .ok es
  | none => .error .directory

/-! ## Reading an entry -/

/-- The packed bytes of an entry. -/
def packed? (file : Array UInt8) (e : Entry) : Option (List UInt8) := do
  let mark ← at? file 4 e.start
  if mark ≠ entryMark then none
  else
    let name ← at? file 2 (e.start + 26)
    let extra ← at? file 2 (e.start + 28)
    let body := e.start + 30 + name + extra
    pure (file.extract body (body + e.packedSize)).toList

/-- The data of an entry, which its checksum confirms. -/
def read (file : Array UInt8) (e : Entry) : Except Fault (List UInt8) := do
  if e.encrypted then throw .entry
  let packed ← (packed? file e).elim (.error .entry) .ok
  let data ←
    if e.method = 0 then pure packed
    else if e.method = deflated then (Deflate.inflate? packed).elim (.error .data) .ok
    else throw .entry
  if (Crc32.checksum data).toNat = e.checksum then pure data else throw .data

/-- The data of the first entry of an archive. -/
def readFirst (bytes : List UInt8) : Except Fault (List UInt8) := do
  let file := bytes.toArray
  match ← entries file with
  | [] => throw .empty
  | e :: _ => read file e

end ReferenceDraws.Archive
