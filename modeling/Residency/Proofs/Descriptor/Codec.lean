import Residency.Proofs.Descriptor

/-!
# Encoding and decoding descriptors

Every descriptor is what its sector says, and every sector is decoded to a descriptor, which has the
first twelve bytes of it and forgets the rest: `codec_is_exact`.
-/

namespace Residency.Descriptor

/-- Of a sector that is decoded and encoded again, twelve bytes are left. -/
theorem encode_decode (raw : Sector) : (decode raw).encode = .ofBytes (raw.slice 0 12) := by
  have fields : raw.slice 0 12 =
      LittleEndian.bytes (decode raw).start.raw ++
        LittleEndian.bytes (decode raw).length.toUInt32 ++ LittleEndian.bytes (decode raw).mark := by
    rw [raw.slice_eq_map_byteAt (by decide)]
    simp only [decode, decode.wordAt, UInt32.toUInt32_toInt32, LittleEndian.bytes_word]
    rfl
  rw [encode, fields]

theorem byteAt_encode_decode (raw : Sector) (index : Nat) :
    (decode raw).encode.byteAt index = if index < 12 then raw.byteAt index else 0 := by
  rw [encode_decode, Block.byteAt_ofBytes, Block.slice, List.drop_zero, List.getD_eq_getElem?_getD,
    List.getElem?_take]
  by_cases field : index < 12
  · rw [if_pos (Nat.lt_trans field (by decide)), if_pos field, if_pos field,
      ← List.getD_eq_getElem?_getD]
    rfl
  · rw [if_neg field, if_neg field, Option.getD_none, ite_self]

/-- A sector says no more than its descriptor does if it is filled up with zeros. -/
theorem encode_decode_eq_iff (raw : Sector) :
    (decode raw).encode = raw ↔ ∀ index, 12 ≤ index → index < sectorSize → raw.byteAt index = 0 := by
  constructor
  · intro same index padding inside
    rw [← same, byteAt_encode_decode, if_neg (Nat.not_lt.mpr padding)]
  · intro zero
    apply Block.ext_byteAt
    intro index inside
    rw [byteAt_encode_decode]
    split
    next => rfl
    next padding => exact (zero index (Nat.not_lt.mp padding) inside).symm

theorem isValid_decode_iff_slice (raw : Sector) :
    (decode raw).isValid = true ↔ raw.slice 8 4 = [0x44, 0x4f, 0x4e, 0x49] := by
  have mark : raw.slice 8 4 = LittleEndian.bytes (decode raw).mark := by
    rw [raw.slice_eq_map_byteAt (by decide)]
    exact (LittleEndian.bytes_word ..).symm
  have signed : [0x44, 0x4f, 0x4e, 0x49] = LittleEndian.bytes signature := by decide
  rw [isValid, beq_iff_eq, mark, signed, LittleEndian.bytes_inj]

theorem encode_inj {d e : Descriptor} : d.encode = e.encode ↔ d = e := by
  refine ⟨fun same => ?_, congrArg encode⟩
  rw [← decode_encode d, ← decode_encode e, same]

theorem encode_ofRun_inj {start start' : SectorNo} {length length' : Int32} :
    (ofRun start length).encode = (ofRun start' length').encode ↔
      start = start' ∧ length = length' := by
  simp [encode_inj, ofRun]

/-- A descriptor that is encoded and decoded again is the same, whatever its start, its length and
its mark.

A sector of any bytes is decoded to the numbers in its first three words, of which the length is
signed.  Encoded again it has the same first twelve bytes and zeros behind them, which is the sector
itself if it had these zeros.  It is recognised by the signature, the lowest byte first.

The descriptors of two runs are encoded alike if and only if the runs are the same. -/
theorem codec_is_exact :
    (∀ d : Descriptor, decode d.encode = d) ∧
      (∀ raw : Sector,
        ((decode raw).start.toNat = LittleEndian.numberAt raw.bytes 0 ∧
          (decode raw).length.toInt = (LittleEndian.numberAt raw.bytes 4 : Int).bmod (2 ^ 32) ∧
          (decode raw).mark.toNat = LittleEndian.numberAt raw.bytes 8) ∧
        (∀ index < 12, (decode raw).encode.byteAt index = raw.byteAt index) ∧
        (∀ index, 12 ≤ index → index < sectorSize → (decode raw).encode.byteAt index = 0) ∧
        ((decode raw).encode = raw ↔
          ∀ index, 12 ≤ index → index < sectorSize → raw.byteAt index = 0) ∧
        ((decode raw).isValid = true ↔ raw.slice 8 4 = [0x44, 0x4f, 0x4e, 0x49])) ∧
      ∀ start start' length length',
        (ofRun start length).encode = (ofRun start' length').encode ↔
          start = start' ∧ length = length' := by
  refine ⟨decode_encode, fun raw => ⟨⟨start_decode raw, ?_, toNat_wordAt raw (by decide)⟩, ?_, ?_,
    encode_decode_eq_iff raw, isValid_decode_iff_slice raw⟩, fun _ _ _ _ => encode_ofRun_inj⟩
  · rw [← toNat_wordAt raw (by decide)]
    exact BitVec.toInt_eq_toNat_bmod _
  · intro index field
    rw [byteAt_encode_decode, if_pos field]
  · intro index padding _
    rw [byteAt_encode_decode, if_neg (Nat.not_lt.mpr padding)]

end Residency.Descriptor
