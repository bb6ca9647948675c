import Residency.Device.HostFile

/-!
# The bytes of a file, sector by sector

`sectorBytes` are the bytes of sectors one behind the other.  A `HostFile` has as many bytes as it
says (`HostFile.length_bytes`), and its first bytes are those of the sectors that it has in full
(`HostFile.bytes_eq_append`).

`HostFile.piece_eq_slice` and `HostFile.bytes_writeSector` say of the plain string of bytes what is
read and written by the sector, and `HostFile.bytes_ofBytes` that a file may have any bytes.
-/

namespace Residency

def sectorBytes (sectors : Nat → Sector) (count : Nat) : List UInt8 :=
  (List.range count).flatMap fun index => (sectors index).bytes

section SectorBytes

variable {sectors : Nat → Sector}

@[simp] theorem sectorBytes_zero : sectorBytes sectors 0 = [] := rfl

theorem sectorBytes_succ (count : Nat) :
    sectorBytes sectors (count + 1) = sectorBytes sectors count ++ (sectors count).bytes := by
  rw [sectorBytes, List.range_succ, List.flatMap_append, List.flatMap_cons, List.flatMap_nil,
    List.append_nil, sectorBytes]

@[simp] theorem length_sectorBytes (count : Nat) :
    (sectorBytes sectors count).length = count * sectorSize := by
  induction count with
  | zero => rfl
  | succ count inductionHypothesis =>
    rw [sectorBytes_succ, List.length_append, inductionHypothesis, (sectors count).length_bytes,
      Nat.succ_mul]

theorem sectorBytes_add (first second : Nat) :
    sectorBytes sectors (first + second) =
      sectorBytes sectors first ++ sectorBytes (fun index => sectors (first + index)) second := by
  rw [sectorBytes, List.range_add, List.flatMap_append, List.flatMap_map]
  rfl

theorem sectorBytes_congr {others : Nat → Sector} {count : Nat}
    (same : ∀ index < count, sectors index = others index) :
    sectorBytes sectors count = sectorBytes others count := by
  rw [sectorBytes, sectorBytes, List.flatMap_def, List.flatMap_def]
  congr 1
  apply List.map_congr_left
  intro index member
  rw [same index (List.mem_range.mp member)]

theorem getElem?_sectorBytes {count position : Nat} (inside : position < count * sectorSize) :
    (sectorBytes sectors count)[position]? =
      some ((sectors (position / sectorSize)).byteAt (position % sectorSize)) := by
  induction count with
  | zero => omega
  | succ count inductionHypothesis =>
    rw [sectorBytes_succ, List.getElem?_append, length_sectorBytes]
    by_cases before : position < count * sectorSize
    · rw [if_pos before, inductionHypothesis before]
    · -- a position behind the first `count` sectors lies in the one that was added
      have index : position / sectorSize = count := by
        simp only [sectorSize] at *; omega
      have rest : position - count * sectorSize = position % sectorSize := by
        simp only [sectorSize] at *; omega
      have bound : position % sectorSize < (sectors count).bytes.length := by
        rw [(sectors count).length_bytes]
        exact Nat.mod_lt _ (by decide)
      rw [if_neg before, rest, index, List.getElem?_eq_getElem bound, Block.byteAt,
        List.getD_eq_getElem?_getD, List.getElem?_eq_getElem bound, Option.getD_some]

/-- A string of bytes cut into sectors. -/
theorem sectorBytes_ofBytes {data : List UInt8} {count : Nat}
    (fits : data.length ≤ count * sectorSize) :
    sectorBytes (fun index => .ofBytes (data.drop (index * sectorSize))) count =
      data ++ List.replicate (count * sectorSize - data.length) 0 := by
  apply List.ext_getElem?
  intro position
  by_cases inside : position < count * sectorSize
  · have whole : position / sectorSize * sectorSize + position % sectorSize = position :=
      Nat.div_add_mod' ..
    rw [getElem?_sectorBytes inside, Block.byteAt_ofBytes, if_pos (Nat.mod_lt _ (by decide)),
      List.getD_eq_getElem?_getD, List.getElem?_drop, whole, List.getElem?_append]
    by_cases inData : position < data.length
    · simp [inData]
    · -- the filling of the last sectors is made of zeros on both sides
      rw [if_neg inData, List.getElem?_eq_none (Nat.not_lt.mp inData), List.getElem?_replicate,
        if_pos (by omega)]
      rfl
  · rw [List.getElem?_eq_none (by rw [length_sectorBytes]; omega), List.getElem?_eq_none]
    simp only [List.length_append, List.length_replicate]
    omega

end SectorBytes

/-! ## Blocks made of bytes -/

namespace Block

variable {n : Nat}

/-- Bytes past the end of a block play no part. -/
theorem ofBytes_take (data : List UInt8) : (ofBytes (data.take n) : Block n) = ofBytes data := by
  apply ext_byteAt
  intro position inside
  rw [byteAt_ofBytes, byteAt_ofBytes, List.getD_eq_getElem?_getD,
    List.getElem?_take_of_lt inside, ← List.getD_eq_getElem?_getD]

/-- A block that is cut behind the bytes it was made of loses nothing but zeros. -/
theorem ofBytes_slice_ofBytes {data : List UInt8} {length : Nat} (fits : data.length ≤ length) :
    (ofBytes ((ofBytes data : Block n).slice 0 length) : Block n) = ofBytes data := by
  apply ext_byteAt
  intro position inside
  rw [byteAt_ofBytes, if_pos inside, slice, List.drop_zero, List.getD_eq_getElem?_getD,
    List.getElem?_take]
  by_cases kept : position < length
  · rw [if_pos kept, ← List.getD_eq_getElem?_getD]
    rfl
  · rw [if_neg kept, byteAt_ofBytes, if_pos inside, List.getD_eq_getElem?_getD,
      List.getElem?_eq_none (by omega)]

end Block

/-! ## Files -/

theorem getD_insert_eq {κ : Type} [Ord κ] [DecidableEq κ] [Std.TransOrd κ] [Std.LawfulEqOrd κ]
    (map : Std.ExtTreeMap κ Sector) (key other : κ) (data : Sector) :
    (map.insert key data).getD other .zero =
      if other = key then data else map.getD other .zero := by
  by_cases same : other = key
  · subst same
    rw [if_pos rfl]
    exact Std.ExtTreeMap.getD_insert_self
  · rw [if_neg same]
    exact (Std.ExtTreeMap.getD_insert ..).trans
      (if_neg fun equal => same (Std.LawfulEqOrd.eq_of_compare equal).symm)

namespace HostFile

variable {file : HostFile} {index : Nat}

def kept (file : HostFile) (index : Nat) : Sector :=
  file.contents.getD index .zero

theorem piece_of_le (inside : (index + 1) * sectorSize ≤ file.size) :
    file.piece index = (file.kept index).bytes := by
  have length := (file.kept index).length_bytes
  show (file.kept index).slice 0 (bytesFrom file.size index) = _
  rw [Block.slice, List.drop_zero, List.take_of_length_le]
  simp only [bytesFrom, length, sectorSize] at inside ⊢
  omega

/-! ## Writing a sector -/

theorem size_writeSector (data : Sector) (inside : (index + 1) * sectorSize ≤ file.size) :
    (file.writeSector index data).size = file.size :=
  Nat.max_eq_left inside

theorem kept_writeSector (file : HostFile) (index : Nat) (data : Sector) (other : Nat) :
    (file.writeSector index data).kept other = if other = index then data else file.kept other :=
  getD_insert_eq file.contents index other data

theorem piece_writeSector_of_ne {other : Nat} (data : Sector)
    (inside : (index + 1) * sectorSize ≤ file.size) (different : other ≠ index) :
    (file.writeSector index data).piece other = file.piece other := by
  show ((file.writeSector index data).kept other).slice 0 _ = (file.kept other).slice 0 _
  rw [size_writeSector data inside, kept_writeSector, if_neg different]

/-! ## All bytes -/

/-- The last piece is cut where the file ends. -/
theorem bytes_eq_take (file : HostFile) :
    file.bytes = (sectorBytes file.kept (sectorsFor file.size)).take file.size := by
  -- a piece is what the size of the file leaves of its sector, as `List.take_append` says it
  have cut (count : Nat) : (List.range count).flatMap file.piece =
      (sectorBytes file.kept count).take file.size := by
    induction count with
    | zero => simp
    | succ count inductionHypothesis =>
      rw [List.range_succ, List.flatMap_append, inductionHypothesis, sectorBytes_succ,
        List.take_append, length_sectorBytes, List.flatMap_cons, List.flatMap_nil, List.append_nil]
      rfl
  exact cut _

theorem length_bytes (file : HostFile) : file.bytes.length = file.size := by
  rw [bytes_eq_take, List.length_take, length_sectorBytes, Nat.min_eq_left]
  simp only [sectorsFor, sectorSize]
  omega

/-- The bytes of `count` sectors that the file has in full, and those behind them. -/
theorem bytes_eq_append {count : Nat} (fits : count * sectorSize ≤ file.size) :
    file.bytes = sectorBytes file.kept count ++
      (List.range (sectorsFor file.size - count)).flatMap fun index =>
        file.piece (count + index) := by
  have split : sectorsFor file.size = count + (sectorsFor file.size - count) := by
    simp only [sectorsFor, sectorSize] at *
    omega
  rw [bytes, split, List.range_add, List.flatMap_append, List.flatMap_map, ← split]
  -- only the pieces in front differ in form: they are whole, hence equal to their sectors
  congr 1
  rw [sectorBytes, List.flatMap_def, List.flatMap_def]
  congr 1
  apply List.map_congr_left
  intro index member
  apply piece_of_le
  exact Nat.le_trans (Nat.mul_le_mul_right _ (List.mem_range.mp member)) fits

theorem getElem?_bytes {position : Nat} (inside : position < file.size) :
    file.bytes[position]? =
      some ((file.kept (position / sectorSize)).byteAt (position % sectorSize)) := by
  rw [bytes_eq_take, List.getElem?_take_of_lt inside, getElem?_sectorBytes]
  simp only [sectorsFor, sectorSize] at *
  omega

/-- Zeros that are put behind the end are what the file keeps there already. -/
theorem getElem?_bytes_append_zeros {position size : Nat} (inside : position < max file.size size) :
    (file.bytes ++ List.replicate (size - file.size) 0)[position]? =
      some ((file.kept (position / sectorSize)).byteAt (position % sectorSize)) := by
  rw [List.getElem?_append, length_bytes]
  by_cases before : position < file.size
  · rw [if_pos before, getElem?_bytes before]
  · have zero := file.zero_beyond (position / sectorSize) (position % sectorSize)
      (by rw [Nat.div_add_mod']; exact Nat.not_lt.mp before)
    rw [if_neg before, List.getElem?_replicate, if_pos (by omega), Option.some.injEq]
    exact zero.symm

/-- The piece of a sector is what the file has of its bytes. -/
theorem piece_eq_slice (file : HostFile) (index : Nat) :
    file.piece index = (file.bytes.drop (index * sectorSize)).take sectorSize := by
  have width := (file.kept index).length_bytes
  have cut : file.piece index = (file.kept index).bytes.take (file.size - index * sectorSize) := rfl
  apply List.ext_getElem?
  intro position
  rw [cut, List.getElem?_take, List.getElem?_take, List.getElem?_drop]
  by_cases inSector : position < sectorSize
  · have quotient : (index * sectorSize + position) / sectorSize = index := by
      simp only [sectorSize] at *; omega
    have remainder : (index * sectorSize + position) % sectorSize = position := by
      simp only [sectorSize] at *; omega
    rw [if_pos inSector]
    by_cases inFile : index * sectorSize + position < file.size
    · rw [if_pos (by omega), getElem?_bytes inFile, quotient, remainder, Block.byteAt,
        List.getD_eq_getElem?_getD, List.getElem?_eq_getElem (by omega), Option.getD_some]
    · rw [if_neg (by omega), List.getElem?_eq_none (by rw [length_bytes]; omega)]
  · rw [if_neg inSector, List.getElem?_eq_none (by omega), ite_self]

/-- Writing a sector replaces its bytes, after the file has been extended with zeros where it ends
before them. -/
theorem bytes_writeSector (file : HostFile) (index : Nat) (data : Sector) :
    (file.writeSector index data).bytes =
      overwrite (file.bytes ++ List.replicate ((index + 1) * sectorSize - file.size) 0)
        (index * sectorSize) data.bytes := by
  have width := data.length_bytes
  have size : (file.writeSector index data).size = max file.size ((index + 1) * sectorSize) := rfl
  apply List.ext_getElem?
  intro position
  rw [getElem?_overwrite, List.length_append, length_bytes, List.length_replicate, width]
  by_cases inside : position < max file.size ((index + 1) * sectorSize)
  · rw [getElem?_bytes inside, kept_writeSector]
    by_cases here : position / sectorSize = index
    · have place : position - index * sectorSize = position % sectorSize := by
        simp only [sectorSize] at *; omega
      have bound : position % sectorSize < data.bytes.length := by
        rw [width]; exact Nat.mod_lt _ (by decide)
      rw [if_pos here, if_pos (by simp only [sectorSize] at *; omega), place,
        List.getElem?_eq_getElem bound, Block.byteAt, List.getD_eq_getElem?_getD,
        List.getElem?_eq_getElem bound, Option.getD_some]
    · rw [if_neg here, if_neg (by simp only [sectorSize] at *; omega),
        getElem?_bytes_append_zeros inside]
  · rw [List.getElem?_eq_none (by rw [length_bytes, size]; omega), if_neg (by omega),
      List.getElem?_eq_none]
    rw [List.length_append, length_bytes, List.length_replicate]
    omega

/-! ## Files of given bytes -/

theorem kept_writeFrom (file : HostFile) (index : Nat) (data : List UInt8) (other : Nat) :
    (file.writeFrom index data).kept other =
      if index ≤ other ∧ other < index + sectorsFor data.length then
        .ofBytes (data.drop ((other - index) * sectorSize))
      else file.kept other := by
  fun_induction writeFrom file index data with
  | case1 file index data empty =>
    rw [if_neg]
    simp only [empty, sectorsFor, sectorSize]
    omega
  | case2 file index data nonempty inductionHypothesis =>
    have sectors : sectorsFor data.length = sectorsFor (data.drop sectorSize).length + 1 := by
      simp only [sectorsFor, sectorSize, List.length_drop]
      omega
    rw [inductionHypothesis, kept_writeSector, sectors]
    by_cases first : other = index
    · rw [if_neg (by omega), if_pos first, if_pos (by omega), first, Nat.sub_self, Nat.zero_mul,
        List.drop_zero, Block.ofBytes_take]
    · rw [if_neg first]
      by_cases later :
          index + 1 ≤ other ∧ other < index + 1 + sectorsFor (data.drop sectorSize).length
      · have place :
            sectorSize + (other - (index + 1)) * sectorSize = (other - index) * sectorSize := by
          simp only [sectorSize]
          omega
        rw [if_pos later, if_pos (by omega), List.drop_drop, place]
      · rw [if_neg later, if_neg (by omega)]

theorem kept_resize (file : HostFile) (size index : Nat) :
    (file.resize size).kept index =
      .ofBytes ((file.kept index).slice 0 (bytesFrom size index)) := by
  show (file.contents.map _).getD index _ = Block.ofBytes ((file.contents.getD index _).slice 0 _)
  rw [Std.ExtTreeMap.getD_map, Std.ExtTreeMap.getD_eq_getD_getElem?]
  cases file.contents[index]? with
  | some data => rfl
  | none =>
    -- a sector that is not kept is the one that is made of no bytes
    have empty : (.ofBytes [] : Sector) = .zero := rfl
    rw [Option.map_none, Option.getD_none, ← empty,
      Block.ofBytes_slice_ofBytes (Nat.zero_le _)]

/-- There is a file of any bytes. -/
theorem bytes_ofBytes (data : List UInt8) : (ofBytes data).bytes = data := by
  have fits : data.length ≤ sectorsFor data.length * sectorSize := by
    simp only [sectorsFor, sectorSize]
    omega
  have size : (ofBytes data).size = data.length := rfl
  have sectors : sectorBytes (ofBytes data).kept (sectorsFor data.length) =
      sectorBytes (fun index => .ofBytes (data.drop (index * sectorSize)))
        (sectorsFor data.length) := by
    apply sectorBytes_congr
    intro index inside
    rw [ofBytes, kept_resize, kept_writeFrom, if_pos ⟨Nat.zero_le _, by omega⟩, Nat.sub_zero,
      Block.ofBytes_slice_ofBytes]
    rw [List.length_drop]
    exact Nat.le_refl _
  rw [bytes_eq_take, size, sectors, sectorBytes_ofBytes fits, List.take_left]

end HostFile

end Residency
