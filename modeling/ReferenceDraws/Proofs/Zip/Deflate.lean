import Mathlib.Algebra.Group.Nat.Defs
import ReferenceDraws.Zip.Deflate

/-!
# Stored blocks read back

Data that is written as stored blocks is what the blocks stand for
(`Deflate.inflate?_store`).  Numbers stand in whole bytes there, so bits are
read a byte at a time, and every block is read up to its end.
-/

namespace ReferenceDraws.Deflate

namespace Bits

/-! ## Whole bytes -/

/-- Bits are read part by part. -/
theorem take?_add {m n low high : Nat} {s s' s'' : Bits} (hlow : take? m s = some (low, s'))
    (hhigh : take? n s' = some (high, s'')) :
    take? (m + n) s = some (low + 2 ^ m * high, s'') := by
  induction m generalizing s low with
  | zero =>
    cases hlow
    rw [Nat.zero_add, hhigh, Nat.pow_zero, Nat.one_mul, Nat.zero_add]
  | succ m ih =>
    obtain ⟨⟨bit, t⟩, hnext, hlow⟩ := Option.bind_eq_some_iff.1 hlow
    obtain ⟨⟨more, t'⟩, hmore, hlow⟩ := Option.bind_eq_some_iff.1 hlow
    cases hlow
    have hrest := ih hmore
    have hshift : 2 ^ (m + 1) * high = 2 * (2 ^ m * high) := by
      rw [Nat.pow_succ, Nat.mul_comm (2 ^ m) 2, Nat.mul_assoc]
    rw [Nat.add_right_comm, take?, hnext]
    show ((take? (m + n) t).bind fun x => some (bit + 2 * x.1, x.2)) = _
    rw [hrest, Option.bind_some, hshift, Nat.mul_add, Nat.add_assoc]

/-- A bit before the last one of a byte leaves the byte in place. -/
theorem next?_of_lt {k : Nat} (hk : k < 7) (b : UInt8) (rest : List UInt8) :
    next? ⟨b :: rest, k⟩ = some (b.toNat / 2 ^ k % 2, ⟨b :: rest, k + 1⟩) := by
  simp only [next?, Nat.pow_eq]
  rw [if_neg (by omega)]

/-- Bits are read from the middle of a byte. -/
theorem take?_within {m k : Nat} (hm : k + m < 8) (b : UInt8) (rest : List UInt8) :
    take? m ⟨b :: rest, k⟩ = some (b.toNat / 2 ^ k % 2 ^ m, ⟨b :: rest, k + m⟩) := by
  induction m generalizing k with
  | zero => rw [take?, Nat.pow_zero, Nat.mod_one, Nat.add_zero]
  | succ m ih =>
    have hhigh : b.toNat / 2 ^ (k + 1) = b.toNat / 2 ^ k / 2 := by
      rw [Nat.pow_succ, Nat.div_div_eq_div_mul]
    rw [take?, next?_of_lt (by omega)]
    simp only [Option.bind_eq_bind, Option.bind_some]
    rw [ih (by omega), Option.bind_some, hhigh, Nat.pow_succ', Nat.mod_mul, Nat.add_right_comm]
    rfl

/-- Eight bits from the start of a byte are the byte. -/
theorem take?_byte (b : UInt8) (rest : List UInt8) :
    take? 8 ⟨b :: rest, 0⟩ = some (b.toNat, ⟨rest, 0⟩) := by
  have hb : b.toNat < 256 := b.toNat_lt
  have hlast : take? 1 ⟨b :: rest, 7⟩ = some (b.toNat / 128 % 2, ⟨rest, 0⟩) := rfl
  have hbyte := take?_add (take?_within (by decide : 0 + 7 < 8) b rest) hlast
  have hnumber : b.toNat / 2 ^ 0 % 2 ^ 7 + 2 ^ 7 * (b.toNat / 128 % 2) = b.toNat := by
    omega
  rwa [hnumber] at hbyte

/-- Sixteen bits from the start of a byte are two bytes, the low one first. -/
theorem take?_word16 {n : Nat} (hn : n < 65536) (rest : List UInt8) :
    take? 16 ⟨word16 n ++ rest, 0⟩ = some (n, ⟨rest, 0⟩) := by
  have hbytes := take?_add (take?_byte (UInt8.ofNat n) (UInt8.ofNat (n / 256) :: rest))
    (take?_byte (UInt8.ofNat (n / 256)) rest)
  have hnumber : (UInt8.ofNat n).toNat + 2 ^ 8 * (UInt8.ofNat (n / 256)).toNat = n := by
    rw [UInt8.toNat_ofNat', UInt8.toNat_ofNat']
    omega
  rw [hnumber] at hbytes
  exact hbytes

end Bits

/-! ## Blocks -/

/-- A stored block is read, from the bits after its head. -/
theorem stored?_block {b : UInt8} {bytes : List UInt8} (hlength : bytes.length ≤ maxStored)
    (rest : List UInt8) (out : Array UInt8) :
    stored? ⟨b :: (word16 bytes.length ++ word16 (maxStored - bytes.length) ++ bytes ++ rest), 3⟩
      out = some (⟨rest, 0⟩, out ++ bytes.toArray) := by
  have hmax : maxStored = 65535 := rfl
  have halign : Bits.align ⟨b :: (word16 bytes.length ++ word16 (maxStored - bytes.length) ++
      bytes ++ rest), 3⟩ = ⟨word16 bytes.length ++ (word16 (maxStored - bytes.length) ++
        (bytes ++ rest)), 0⟩ := by
    simp [Bits.align]
  rw [stored?, halign, Bits.take?_word16 (by omega)]
  simp only [Option.bind_eq_bind, Option.bind_some]
  rw [Bits.take?_word16 (by omega)]
  simp only [Option.bind_some]
  rw [if_neg (by simp)]
  simp

/-- The first byte of a stored block. -/
def headByte (final : Bool) : UInt8 := if final then 1 else 0

theorem next?_headByte (final : Bool) (rest : List UInt8) :
    Bits.next? ⟨headByte final :: rest, 0⟩ =
      some (if final then 1 else 0, ⟨headByte final :: rest, 1⟩) := by
  rw [Bits.next?_of_lt (by decide)]
  cases final with
  | false => rfl
  | true => rfl

theorem take?_headByte (final : Bool) (rest : List UInt8) :
    Bits.take? 2 ⟨headByte final :: rest, 1⟩ = some (0, ⟨headByte final :: rest, 3⟩) := by
  rw [Bits.take?_within (by decide)]
  cases final with
  | false => rfl
  | true => rfl

/-- A block is read with its head. -/
theorem blocks?_storedBlock (final : Bool) {bytes : List UInt8} (hlength : bytes.length ≤ maxStored)
    (limit fuel : Nat) (rest : List UInt8) (out : Array UInt8) :
    blocks? limit (fuel + 1) ⟨storedBlock final bytes ++ rest, 0⟩ out =
      if final then some (out ++ bytes.toArray)
      else blocks? limit fuel ⟨rest, 0⟩ (out ++ bytes.toArray) := by
  have hblock : storedBlock final bytes ++ rest = headByte final ::
      (word16 bytes.length ++ word16 (maxStored - bytes.length) ++ bytes ++ rest) := by
    simp only [storedBlock, headByte, List.cons_append, List.append_assoc]
  rw [hblock, blocks?]
  simp only [next?_headByte, take?_headByte, Option.bind_eq_bind, Option.bind_some,
    stored?_block hlength]
  cases final with
  | false => rfl
  | true => rfl

/-- Blocks are read to the end of the data. -/
theorem blocks?_storeIn (limit blocks : Nat) {fuel : Nat} (hfuel : blocks < fuel)
    {bytes : List UInt8} (hlength : bytes.length ≤ (blocks + 1) * maxStored) (out : Array UInt8) :
    blocks? limit fuel ⟨storeIn blocks bytes, 0⟩ out = some (out ++ bytes.toArray) := by
  have hlast : ∀ {bytes : List UInt8}, bytes.length ≤ maxStored → ∀ fuel out,
      blocks? limit (fuel + 1) ⟨storedBlock true bytes, 0⟩ out = some (out ++ bytes.toArray) := by
    intro bytes hbytes fuel out
    have hread := blocks?_storedBlock true hbytes limit fuel [] out
    rwa [List.append_nil, if_pos rfl] at hread
  obtain ⟨fuel, rfl⟩ : ∃ n, fuel = n + 1 := ⟨fuel - 1, by omega⟩
  induction blocks generalizing fuel bytes out with
  | zero => exact hlast (by omega) fuel out
  | succ blocks ih =>
    rw [storeIn]
    split
    · rename_i hshort
      exact hlast hshort fuel out
    · rename_i hlong
      obtain ⟨fuel, rfl⟩ : ∃ n, fuel = n + 1 := ⟨fuel - 1, by omega⟩
      have hfirst : (bytes.take maxStored).length ≤ maxStored := by
        rw [List.length_take]
        omega
      have hrest : (bytes.drop maxStored).length ≤ (blocks + 1) * maxStored := by
        rw [List.length_drop]
        rw [Nat.succ_mul] at hlength
        omega
      rw [blocks?_storedBlock false hfirst, if_neg Bool.false_ne_true,
        ih hrest _ fuel (by omega)]
      simp

theorem length_storedBlock (final : Bool) (bytes : List UInt8) :
    (storedBlock final bytes).length = bytes.length + 5 := by
  simp [storedBlock, word16]

/-- Stored data is no shorter. -/
theorem length_le_length_storeIn (blocks : Nat) (bytes : List UInt8) :
    bytes.length ≤ (storeIn blocks bytes).length := by
  induction blocks generalizing bytes with
  | zero =>
    rw [storeIn, length_storedBlock]
    omega
  | succ blocks ih =>
    rw [storeIn]
    split
    · rw [length_storedBlock]
      omega
    · have hrest := ih (bytes.drop maxStored)
      rw [List.length_append, length_storedBlock, List.length_take]
      rw [List.length_drop] at hrest
      omega

/-- What was stored is read. -/
theorem inflate?_store (bytes : List UInt8) : inflate? (store bytes) = some bytes := by
  have hmax : maxStored = 65535 := rfl
  have hblocks : bytes.length / maxStored < 8 * (store bytes).length + 1 := by
    have hle := length_le_length_storeIn (bytes.length / maxStored) bytes
    have hdiv := Nat.div_le_self bytes.length maxStored
    rw [store]
    omega
  have hroom : bytes.length ≤ (bytes.length / maxStored + 1) * maxStored := by
    rw [hmax]
    omega
  have hread := blocks?_storeIn (8 * (store bytes).length + 1) _ hblocks hroom #[]
  rw [inflate?]
  simp only [store] at hread ⊢
  rw [hread]
  simp

end ReferenceDraws.Deflate
