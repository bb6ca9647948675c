import Mathlib.Data.Nat.Digits.Defs
import Residency.Descriptor

/-!
# The format of descriptors

What `LittleEndian` and `Descriptor` make of numbers and bytes, said without shifts: a number is
written as its digits in base 256, the lowest first, and a length is signed.

A request is cut into pieces up to where it or the file ends, and fails on its way only where a
sector has no number (`Descriptor.nextPiece?_eq`, `Descriptor.nextPiece?_overflows`).  In a file
whose sectors all have a number it never fails.
-/

namespace Residency

namespace LittleEndian

/-- The four digits of a number in base 256, the lowest first. -/
def digits (n : Nat) : List UInt8 :=
  (List.range 4).map fun k => UInt8.ofNat (n / 256 ^ k)

@[simp] theorem length_digits (n : Nat) : (digits n).length = 4 := by
  simp [digits]

/-- The number in the four bytes from `offset` on. -/
def numberAt (bytes : List UInt8) (offset : Nat) : Nat :=
  Nat.ofDigits 256 (((bytes.drop offset).take 4).map UInt8.toNat)

theorem bytes_eq_digits (word : UInt32) : bytes word = digits word.toNat := by
  have lowest : word.toUInt8 = UInt8.ofNat (word.toNat / 256 ^ 0) := by
    apply UInt8.toNat_inj.mp
    simp
  -- shifting by the bits of `k` bytes divides by the weight of the digit behind them
  have shifted (k : Nat) (small : 8 * k < 32) :
      (word >>> UInt32.ofNat (8 * k)).toUInt8 = UInt8.ofNat (word.toNat / 256 ^ k) := by
    apply UInt8.toNat_inj.mp
    have power : (2 : Nat) ^ (8 * k) = 256 ^ k := by rw [Nat.pow_mul]
    rw [UInt32.toNat_toUInt8, UInt8.toNat_ofNat', UInt32.toNat_shiftRight,
      UInt32.toNat_ofNat', Nat.mod_eq_of_lt (Nat.lt_trans small (by decide)),
      Nat.mod_eq_of_lt small, Nat.shiftRight_eq_div_pow, power]
  simp only [bytes, digits, List.range_succ, List.range_zero, List.map_nil, List.map_cons,
    List.nil_append, List.cons_append, List.cons.injEq, and_true]
  exact ⟨lowest, shifted 1 (by omega), shifted 2 (by omega), shifted 3 (by omega)⟩

/-- Numbers whose bits do not overlap. -/
theorem or_mul_two_pow {low i : Nat} (small : low < 2 ^ i) (high : Nat) :
    low ||| high * 2 ^ i = low + high * 2 ^ i := by
  rw [Nat.or_comm, Nat.mul_comm, ← Nat.two_pow_add_eq_or_of_lt small, Nat.add_comm]

theorem toNat_word (b₀ b₁ b₂ b₃ : UInt8) :
    (word b₀ b₁ b₂ b₃).toNat =
      Nat.ofDigits 256 [b₀.toNat, b₁.toNat, b₂.toNat, b₃.toNat] := by
  have h₀ := b₀.toNat_lt
  have h₁ := b₁.toNat_lt
  have h₂ := b₂.toNat_lt
  have h₃ := b₃.toNat_lt
  -- a byte that is shifted to its place stays in the word, so nothing of it is lost
  have place (b : UInt8) (k : Nat) (small : 8 * k < 32) :
      (b.toUInt32 <<< UInt32.ofNat (8 * k)).toNat = b.toNat * 2 ^ (8 * k) := by
    have bound : b.toNat * 2 ^ (8 * k) < 2 ^ 32 :=
      calc b.toNat * 2 ^ (8 * k) < 2 ^ 8 * 2 ^ (8 * k) :=
            Nat.mul_lt_mul_of_pos_right b.toNat_lt (Nat.two_pow_pos _)
        _ = 2 ^ (8 + 8 * k) := (Nat.pow_add ..).symm
        _ ≤ 2 ^ 32 := Nat.pow_le_pow_right (by decide) (by omega)
    rw [UInt32.toNat_shiftLeft, UInt32.toNat_ofNat', Nat.mod_eq_of_lt (Nat.lt_trans small (by decide)),
      Nat.mod_eq_of_lt small, UInt8.toNat_toUInt32, Nat.shiftLeft_eq, Nat.mod_eq_of_lt bound]
  have word_eq : (word b₀ b₁ b₂ b₃).toNat =
      ((b₀.toNat ||| b₁.toNat * 2 ^ 8) ||| b₂.toNat * 2 ^ 16) ||| b₃.toNat * 2 ^ 24 := by
    rw [word, UInt32.toNat_or, UInt32.toNat_or, UInt32.toNat_or, UInt8.toNat_toUInt32]
    exact congr (congrArg _ (congr (congrArg _ (congrArg _ (place b₁ 1 (by omega))))
      (place b₂ 2 (by omega)))) (place b₃ 3 (by omega))
  -- what has been joined ends below the place of the next byte
  have two : b₀.toNat + b₁.toNat * 2 ^ 8 < 2 ^ 16 := by omega
  have three : b₀.toNat + b₁.toNat * 2 ^ 8 + b₂.toNat * 2 ^ 16 < 2 ^ 24 := by omega
  rw [word_eq, or_mul_two_pow h₀, or_mul_two_pow two, or_mul_two_pow three]
  simp only [Nat.ofDigits_cons, Nat.ofDigits_nil]
  omega

theorem word_bytes (w : UInt32) :
    word w.toUInt8 (w >>> 8).toUInt8 (w >>> 16).toUInt8 (w >>> 24).toUInt8 = w := by
  have bound := w.toNat_lt
  apply UInt32.toNat_inj.mp
  rw [toNat_word]
  simp only [UInt32.toNat_toUInt8, UInt32.toNat_shiftRight, Nat.ofDigits_cons, Nat.ofDigits_nil,
    Nat.shiftRight_eq_div_pow]
  simp
  omega

theorem bytes_word (b₀ b₁ b₂ b₃ : UInt8) : bytes (word b₀ b₁ b₂ b₃) = [b₀, b₁, b₂, b₃] := by
  have h₀ := b₀.toNat_lt
  have h₁ := b₁.toNat_lt
  have h₂ := b₂.toNat_lt
  have h₃ := b₃.toNat_lt
  rw [bytes_eq_digits, toNat_word]
  simp only [digits, List.range_succ, List.range_zero, List.map_nil, List.map_cons,
    List.nil_append, List.cons_append, List.cons.injEq, and_true, ← UInt8.toNat_inj,
    UInt8.toNat_ofNat', Nat.ofDigits_cons, Nat.ofDigits_nil]
  omega

theorem bytes_inj {a b : UInt32} : bytes a = bytes b ↔ a = b := by
  refine ⟨fun same => ?_, congrArg bytes⟩
  simp only [bytes, List.cons.injEq] at same
  obtain ⟨first, second, third, fourth, -⟩ := same
  rw [← word_bytes a, ← word_bytes b, first, second, third, fourth]

theorem numberAt_eq {bytes : List UInt8} {offset : Nat} (inside : offset + 4 ≤ bytes.length) :
    numberAt bytes offset =
      Nat.ofDigits 256 ((List.range 4).map fun k => (bytes.getD (offset + k) 0).toNat) := by
  rw [numberAt]
  congr 1
  apply List.ext_getElem
  · simp only [List.length_map, List.length_take, List.length_drop, List.length_range]
    omega
  · intro k first second
    simp only [List.length_map, List.length_range] at second
    have bound : offset + k < bytes.length := by omega
    simp [bound]

end LittleEndian

namespace Descriptor

theorem decode_encode (d : Descriptor) : decode d.encode = d := by
  obtain ⟨⟨start⟩, length, mark⟩ := d
  simp [decode, decode.wordAt, encode, Block.byteAt_ofBytes, LittleEndian.bytes, sectorSize,
    LittleEndian.word_bytes]

/-! ## What the bytes of a descriptor say -/

theorem toNat_wordAt (data : Sector) {offset : Nat} (inside : offset + 4 ≤ sectorSize) :
    (decode.wordAt data offset).toNat = LittleEndian.numberAt data.bytes offset := by
  rw [decode.wordAt, LittleEndian.toNat_word,
    LittleEndian.numberAt_eq (by rw [data.length_bytes]; exact inside)]
  rfl

theorem start_decode (data : Sector) :
    (decode data).start.toNat = LittleEndian.numberAt data.bytes 0 :=
  toNat_wordAt data (by decide)

theorem size_decode (data : Sector) :
    (decode data).size =
      ((LittleEndian.numberAt data.bytes 4 : Int).bmod (2 ^ 32)).toNat := by
  rw [← toNat_wordAt data (by decide)]
  exact congrArg Int.toNat (BitVec.toInt_eq_toNat_bmod _)

theorem isValid_decode (data : Sector) :
    (decode data).isValid = true ↔ LittleEndian.numberAt data.bytes 8 = 0x494e4f44 := by
  rw [← toNat_wordAt data (by decide), isValid, beq_iff_eq, ← UInt32.toNat_inj]
  rfl

theorem size_ofRun (start : SectorNo) {length : Nat} (small : length ≤ maxLength) :
    (ofRun start (.ofNat length)).size = length := by
  have bound : length < 2 ^ 31 := by simp only [maxLength] at small; omega
  rw [size, ofRun, Int32.toInt_ofNat_of_lt bound]
  rfl

@[simp] theorem isValid_ofRun (start : SectorNo) (length : Int32) :
    (ofRun start length).isValid = true := by
  simp [isValid, ofRun]

theorem encode_ofRun (start : SectorNo) {length : Nat} (small : length ≤ maxLength) :
    (ofRun start (.ofNat length)).encode = .ofBytes (LittleEndian.digits start.toNat ++
      LittleEndian.digits length ++ LittleEndian.digits 0x494e4f44) := by
  have bound : length < 2 ^ 32 := by simp only [maxLength] at small; omega
  have word : (ofRun start (.ofNat length)).length.toUInt32.toNat = length := by
    rw [ofRun, Int32.toUInt32_ofNat', UInt32.toNat_ofNat', Nat.mod_eq_of_lt bound]
  rw [encode, LittleEndian.bytes_eq_digits, LittleEndian.bytes_eq_digits,
    LittleEndian.bytes_eq_digits, word]
  rfl

/-! ## Pieces -/

/-- There is a sector number for the byte at `position`, whether or not the file goes so far. -/
def HasNumber (d : Descriptor) (position : Nat) : Prop :=
  d.start.toNat + position / sectorSize < UInt32.size

/-- A file whose sectors all have a number. -/
def Numbered (d : Descriptor) : Prop :=
  d.start.toNat + d.sectors ≤ UInt32.size

instance (d : Descriptor) : Decidable d.Numbered :=
  inferInstanceAs (Decidable (_ ≤ _))

def sectorAt (d : Descriptor) (position : Nat) : SectorNo :=
  .ofNat (d.start.toNat + position / sectorSize)

/-- How many bytes a request for `count` bytes from `position` on gets. -/
def granted (d : Descriptor) (position count : Nat) : Nat :=
  min count (d.size - position)

theorem sectors_le (d : Descriptor) : d.sectors ≤ 2 ^ 22 := by
  have bound := d.length.toInt_lt
  simp only [sectors, sectorsFor, size, sectorSize]
  omega

theorem div_lt_sectors {d : Descriptor} {position : Nat} (before : position < d.size) :
    position / sectorSize < d.sectors := by
  simp only [sectors, sectorsFor, sectorSize]
  omega

theorem end_le {d : Descriptor} {N : Nat} (within : d.start.toNat + d.sectors ≤ N) :
    d.start.toNat * sectorSize + d.size ≤ N * sectorSize := by
  simp only [sectors, sectorsFor, sectorSize] at *
  omega

theorem Numbered.hasNumber {d : Descriptor} (numbered : d.Numbered) {position : Nat}
    (before : position < d.size) : d.HasNumber position := by
  have := div_lt_sectors before
  simp only [Numbered, HasNumber] at *
  omega

/-- It is enough that the bytes of the file have sector numbers, as the last of them lies in the last
sector. -/
theorem numbered_iff {d : Descriptor} :
    d.Numbered ↔ ∀ position < d.size, d.HasNumber position := by
  refine ⟨fun numbered position before => numbered.hasNumber before, fun all => ?_⟩
  have start := d.start.toNat_lt
  by_cases empty : d.size = 0
  · simp only [Numbered, sectors, sectorsFor, sectorSize]
    omega
  · have last := all (d.size - 1) (by omega)
    simp only [HasNumber, Numbered, sectors, sectorsFor, sectorSize] at *
    omega

theorem HasNumber.toNat_sectorAt {d : Descriptor} {position : Nat} (number : d.HasNumber position) :
    (d.sectorAt position).toNat = d.start.toNat + position / sectorSize :=
  SectorNo.toNat_ofNat number

theorem toNat_sectorAt {d : Descriptor} (numbered : d.Numbered) {position : Nat}
    (before : position < d.size) :
    (d.sectorAt position).toNat = d.start.toNat + position / sectorSize :=
  (numbered.hasNumber before).toNat_sectorAt

theorem sectorAt_lt (d : Descriptor) {N : Nat} (within : d.start.toNat + d.sectors ≤ N)
    (addressable : N ≤ UInt32.size) {position : Nat} (before : position < d.size) :
    (d.sectorAt position).toNat < N := by
  rw [toNat_sectorAt (Nat.le_trans within addressable) before]
  have := div_lt_sectors before
  omega

/-- Without its digits past 32 bits, the number of a sector is no larger. -/
theorem toNat_sectorAt_lt {d : Descriptor} {N : Nat} (within : d.start.toNat + d.sectors ≤ N)
    {position : Nat} (before : position < d.size) : (d.sectorAt position).toNat < N := by
  have inside := div_lt_sectors before
  have cut := Nat.mod_le (d.start.toNat + position / sectorSize) UInt32.size
  rw [sectorAt, SectorNo.toNat_ofNat_mod]
  omega

theorem sectorOf_of_hasNumber {d : Descriptor} {position : Nat} (before : position < d.size)
    (number : d.HasNumber position) :
    d.sectorOf position = .ok (some (d.sectorAt position)) := by
  rw [sectorOf, if_pos before, SectorNo.advance?_of_lt number]
  rfl

theorem sectorOf_overflows {d : Descriptor} {position : Nat} (before : position < d.size)
    (without : ¬ d.HasNumber position) : d.sectorOf position = .error .overflow := by
  have none : d.start.advance? (position / sectorSize) = none := if_neg without
  rw [sectorOf, if_pos before, none]

theorem nextPiece?_overflows {d : Descriptor} {position : Nat} (before : position < d.size)
    (without : ¬ d.HasNumber position) (count : Nat) :
    d.nextPiece? position count = .error .overflow := by
  rw [nextPiece?, sectorOf_overflows before without]
  rfl

theorem nextPiece?_eq {d : Descriptor} {position : Nat}
    (number : position < d.size → d.HasNumber position) (count : Nat) :
    d.nextPiece? position count = .ok (if d.granted position count = 0 then none else
      some {
        sector := d.sectorAt position
        offset := position % sectorSize
        length := min (d.granted position count) (sectorSize - position % sectorSize) }) := by
  have share : d.granted position count = min count (d.size - position) := rfl
  simp only [nextPiece?, sectorOf]
  by_cases before : position < d.size
  · rw [if_pos before, SectorNo.advance?_of_lt (number before)]
    simp only [bind, Except.bind, pure, Except.pure, Except.ok.injEq]
    have left : 0 < sectorSize - position % sectorSize := by
      simp only [sectorSize]; omega
    by_cases empty : count = 0
    · rw [if_pos (by omega), if_pos (by omega)]
    · rw [if_neg (by omega), if_neg (by omega), share, Nat.min_assoc]
      rfl
  · -- past the end of the file no sector is looked up, and nothing is granted
    rw [if_neg before]
    simp only [bind, Except.bind, pure, Except.pure, Except.ok.injEq]
    rw [if_pos (by omega)]

/-- Cutting fails in no other way than by a sector without a number. -/
theorem hasNumber_of_nextPiece? {d : Descriptor} {position count : Nat} {found : Option Piece}
    (cut : d.nextPiece? position count = .ok found) (before : position < d.size) :
    d.HasNumber position := by
  by_contra without
  rw [nextPiece?_overflows before without] at cut
  cases cut

theorem nextPiece?_eq_error {d : Descriptor} {position count : Nat} {fault : Fault}
    (failed : d.nextPiece? position count = .error fault) :
    position < d.size ∧ ¬ d.HasNumber position ∧ fault = .overflow := by
  have none : ¬ (position < d.size → d.HasNumber position) := by
    intro number
    rw [nextPiece?_eq number] at failed
    cases failed
  obtain ⟨before, without⟩ := Classical.not_imp.mp none
  rw [nextPiece?_overflows before without] at failed
  cases failed
  exact ⟨before, without, rfl⟩

end Descriptor

end Residency
