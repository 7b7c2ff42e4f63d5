/-!
# Compressed data

The DEFLATE format: blocks of stored bytes, or of symbols in a prefix code that stand for bytes and
for copies of earlier output.

* `Deflate.store`: data as stored blocks;
* `Deflate.inflate?`: the data that blocks stand for.
-/

namespace ReferenceDraws.Deflate

/-! ## Stored blocks -/

/-- A number of sixteen bits, the low byte first. -/
def word16 (n : Nat) : List UInt8 := [UInt8.ofNat n, UInt8.ofNat (n / 256)]

/-- The most bytes that a stored block holds. -/
def maxStored : Nat := 65535

/-- A stored block. -/
def storedBlock (final : Bool) (bytes : List UInt8) : List UInt8 :=
  (if final then 1 else 0) :: word16 bytes.length ++ word16 (maxStored - bytes.length) ++ bytes

/-- Data as stored blocks, as full as they can be, in at most so many blocks before the last. -/
def storeIn : Nat → List UInt8 → List UInt8
  | 0, bytes => storedBlock true bytes
  | blocks + 1, bytes =>
    if bytes.length ≤ maxStored then storedBlock true bytes
    else storedBlock false (bytes.take maxStored) ++ storeIn blocks (bytes.drop maxStored)

/-- Data as stored blocks. -/
def store (bytes : List UInt8) : List UInt8 := storeIn (bytes.length / maxStored) bytes

/-! ## Bits -/

/-- Bytes of which the first `used` bits are read; bits count from the low end of a byte. -/
structure Bits where
  /-- The bytes, the current one first. -/
  bytes : List UInt8
  /-- The bits of the current byte that are read, at most seven. -/
  used : Nat := 0

namespace Bits

/-- The next bit. -/
def next? (s : Bits) : Option (Nat × Bits) :=
  match s.bytes with
  | [] => none
  | b :: rest =>
    let bit := b.toNat / Nat.pow 2 s.used % 2
    some (bit, if s.used = 7 then ⟨rest, 0⟩ else ⟨b :: rest, s.used + 1⟩)

/-- The next `n` bits as a number, the first bit lowest. -/
def take? : Nat → Bits → Option (Nat × Bits)
  | 0, s => some (0, s)
  | n + 1, s => do
    let (bit, s) ← s.next?
    let (high, s) ← take? n s
    pure (bit + 2 * high, s)

/-- The bits from the next whole byte on. -/
def align (s : Bits) : Bits := if s.used = 0 then s else ⟨s.bytes.drop 1, 0⟩

end Bits

/-! ## Prefix codes -/

/-- A canonical prefix code: for each length from one on, the symbols of that length. -/
abbrev Code := List (List Nat)

/-- The canonical code that gives each symbol its length, zero for no code. -/
def codeOf (lengths : List Nat) : Code :=
  (List.range 15).map fun n =>
    (lengths.zipIdx.filter fun e => e.1 = n + 1).map Prod.snd

/-- The share of all bit strings of fifteen bits that start with a code of one of the lengths. -/
def coverage (lengths : List Nat) : Nat :=
  (lengths.filter (· ≠ 0)).foldl (fun total n => total + Nat.pow 2 (15 - n)) 0

/-- Whether every bit string starts with exactly one code. -/
def isComplete (lengths : List Nat) : Bool := coverage lengths = Nat.pow 2 15

/-- Whether there is no code, or one of a single bit. -/
def isLone (lengths : List Nat) : Bool := lengths.filter (· ≠ 0) ∈ [[], [1]]

/-- The next symbol: bits are read until they are one of the codes of their length. -/
def symbol? : Code → Nat → Nat → Bits → Option (Nat × Bits)
  | [], _, _, _ => none
  | symbols :: longer, value, first, s => do
    let (bit, s) ← s.next?
    let value := 2 * value + bit
    let first := 2 * first
    match symbols[value - first]? with
    | some symbol => pure (symbol, s)
    | none => symbol? longer value (first + symbols.length) s

/-- The next symbol of a code. -/
def Code.next? (code : Code) (s : Bits) : Option (Nat × Bits) := symbol? code 0 0 s

/-- The code for literals and lengths of fixed blocks. -/
def fixedLiterals : Code :=
  codeOf (List.replicate 144 8 ++ List.replicate 112 9 ++ List.replicate 24 7 ++
    List.replicate 8 8)

/-- The code for distances of fixed blocks. -/
def fixedDistances : Code := codeOf (List.replicate 30 5)

/-! ## Lengths and distances -/

/-- The least length of each length symbol and its number of extra bits. -/
def lengthTable : List (Nat × Nat) :=
  [(3, 0), (4, 0), (5, 0), (6, 0), (7, 0), (8, 0), (9, 0), (10, 0), (11, 1), (13, 1), (15, 1),
   (17, 1), (19, 2), (23, 2), (27, 2), (31, 2), (35, 3), (43, 3), (51, 3), (59, 3), (67, 4),
   (83, 4),
   (99, 4), (115, 4), (131, 5), (163, 5), (195, 5), (227, 5), (258, 0)]

/-- The least distance of each distance symbol and its number of extra bits. -/
def distanceTable : List (Nat × Nat) :=
  [(1, 0), (2, 0), (3, 0), (4, 0), (5, 1), (7, 1), (9, 2), (13, 2), (17, 3), (25, 3), (33, 4),
   (49, 4), (65, 5), (97, 5), (129, 6), (193, 6), (257, 7), (385, 7), (513, 8), (769, 8), (1025, 9),
   (1537, 9), (2049, 10), (3073, 10), (4097, 11), (6145, 11), (8193, 12), (12289, 12), (16385, 13),
   (24577, 13)]

/-- A value of a table with its extra bits. -/
def extended? (table : List (Nat × Nat)) (symbol : Nat) (s : Bits) : Option (Nat × Bits) := do
  let (least, extra) ← table[symbol]?
  let (more, s) ← s.take? extra
  pure (least + more, s)

/-- Appends bytes from a distance back in the output, one after another, so that a copy may
reach into itself. Before the output there are zeros. -/
def copyBack (distance : Nat) : Nat → Array UInt8 → Array UInt8
  | 0, out => out
  | n + 1, out =>
    copyBack distance n
      (out.push (if distance ≤ out.size then (out[out.size - distance]?).getD 0 else 0))

/-! ## Blocks -/

/-- The symbols of a block up to its end mark. The fuel bounds their number. -/
def symbols? (literals distances : Code) :
    Nat → Bits → Array UInt8 → Option (Bits × Array UInt8)
  | 0, _, _ => none
  | fuel + 1, s, out => do
    let (symbol, s) ← literals.next? s
    if symbol < 256 then symbols? literals distances fuel s (out.push (UInt8.ofNat symbol))
    else if symbol = 256 then pure (s, out)
    else
      let (length, s) ← extended? lengthTable (symbol - 257) s
      let (code, s) ← distances.next? s
      let (distance, s) ← extended? distanceTable code s
      symbols? literals distances fuel s (copyBack distance length out)

/-- A stored block. -/
def stored? (s : Bits) (out : Array UInt8) : Option (Bits × Array UInt8) := do
  let (length, s) ← s.align.take? 16
  let (check, s) ← s.take? 16
  if check ≠ maxStored - length ∨ s.bytes.length < length then none
  else pure (⟨s.bytes.drop length, 0⟩, out ++ (s.bytes.take length).toArray)

/-- The order in which the lengths of the code for lengths stand. -/
def lengthOrder : List Nat := [16, 17, 18, 0, 8, 7, 9, 6, 10, 5, 11, 4, 12, 3, 13, 2, 14, 1, 15]

/-- Numbers of three bits. -/
def threeBits? : Nat → Bits → Option (List Nat × Bits)
  | 0, s => some ([], s)
  | n + 1, s => do
    let (x, s) ← s.take? 3
    let (xs, s) ← threeBits? n s
    pure (x :: xs, s)

/-- The lengths of the symbols of a block's codes, last first, up to a total number. The fuel
bounds the number of instructions. -/
def lengths? (code : Code) (total : Nat) : Nat → Bits → List Nat → Option (List Nat × Bits)
  | 0, _, _ => none
  | fuel + 1, s, done =>
    if total < done.length then none
    else if done.length = total then some (done, s)
    else do
      let (symbol, s) ← code.next? s
      if symbol < 16 then lengths? code total fuel s (symbol :: done)
      else
        let (value, s, least, extra) ←
          if symbol = 16 then done.head?.map (·, s, 3, 2)
          else if symbol = 17 then some (0, s, 3, 3)
          else some (0, s, 11, 7)
        let (more, s) ← s.take? extra
        lengths? code total fuel s (List.replicate (least + more) value ++ done)

/-- The most symbols of a code for literals and lengths. -/
def maxLiterals : Nat := 286

/-- The most symbols of a code for distances. -/
def maxDistances : Nat := 30

/-- The code of some lengths, which is complete or may be lone. -/
def usable? (lengths : List Nat) : Option Code :=
  if isComplete lengths || isLone lengths then some (codeOf lengths) else none

/-- The codes that stand at the start of a block. The lengths of their symbols stand in a code of
their own, which is complete. -/
def codes? (s : Bits) : Option (Code × Code × Bits) := do
  let (literals, s) ← s.take? 5
  let (distances, s) ← s.take? 5
  let (count, s) ← s.take? 4
  let literals := literals + 257
  let distances := distances + 1
  if maxLiterals < literals ∨ maxDistances < distances then none
  else
    let (found, s) ← threeBits? (count + 4) s
    let places := lengthOrder.zip found
    let sizes := (List.range 19).map fun i => (places.lookup i).getD 0
    if !isComplete sizes then none
    else
      let total := literals + distances
      let (lengths, s) ← lengths? (codeOf sizes) total (total + 1) s []
      let lengths := lengths.reverse
      pure (← usable? (lengths.take literals), ← usable? (lengths.drop literals), s)

/-- Blocks up to the last. The fuel bounds the number of blocks, and of symbols in a block. -/
def blocks? (limit : Nat) : Nat → Bits → Array UInt8 → Option (Array UInt8)
  | 0, _, _ => none
  | fuel + 1, s, out => do
    let (final, s) ← s.next?
    let (kind, s) ← s.take? 2
    let (s, out) ←
      match kind with
      | 0 => stored? s out
      | 1 => symbols? fixedLiterals fixedDistances limit s out
      | 2 => do
        let (literals, distances, s) ← codes? s
        symbols? literals distances limit s out
      | _ => none
    if final = 1 then pure out else blocks? limit fuel s out

/-- The data that compressed bytes stand for; what follows the last block does not matter. -/
def inflate? (bytes : List UInt8) : Option (List UInt8) :=
  let limit := 8 * bytes.length + 1
  (blocks? limit limit ⟨bytes, 0⟩ #[]).map Array.toList

end ReferenceDraws.Deflate
