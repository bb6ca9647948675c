import Residency.Proofs.Cache.Access
import Residency.Proofs.Descriptor
import Residency.Volume.Contents

/-!
# The contents of a file in a cache

A file is a string of bytes in the view of a consistent cache.

* `Consistent.readFile_ends`: reading gives the bytes of the range, as far as the file reaches;
* `Consistent.writeFile_ends`: writing replaces exactly these, and no other byte of any sector.

Either may stop on its way, where a sector has no number or the device fails to read it
(`Descriptor.Stops`); what was written up to there stays.  A file whose sectors can all be read is
read and written in full (`Consistent.readFile_yields`, `Consistent.writeFile_yields`).  In front of
a storage these are the files whose data lies inside it (`Coherent.readFile_yields`,
`Coherent.writeFile_yields`).
-/

namespace Residency

namespace Descriptor

def byteOf (d : Descriptor) (sectors : SectorNo → Sector) (position : Nat) : UInt8 :=
  (sectors (d.sectorAt position)).byteAt (position % sectorSize)

/-- Where a byte of a sector stands in the file, if the sector is one of its data sectors. -/
def positionOf (d : Descriptor) (s : SectorNo) (index : Nat) : Nat :=
  (s.toNat - d.start.toNat) * sectorSize + index

/-- In the sectors `after`, the bytes of the file from `position` on are `data`, and all other
bytes are as `before`. -/
def Spliced (d : Descriptor) (position : Nat) (data : List UInt8)
    (before after : SectorNo → Sector) : Prop :=
  ∀ s, ∀ index < sectorSize, (after s).byteAt index =
    if d.start.toNat ≤ s.toNat ∧ position ≤ d.positionOf s index ∧
        d.positionOf s index < position + data.length then
      data.getD (d.positionOf s index - position) 0
    else (before s).byteAt index

theorem Spliced.nil (d : Descriptor) (position : Nat) (sectors : SectorNo → Sector) :
    d.Spliced position [] sectors sectors := by
  intro s index _
  rw [if_neg]
  simp only [List.length_nil]
  omega

theorem Spliced.append {d : Descriptor} {position : Nat} {first second : List UInt8}
    {before between after : SectorNo → Sector} (one : d.Spliced position first before between)
    (two : d.Spliced (position + first.length) second between after) :
    d.Spliced position (first ++ second) before after := by
  intro s index inside
  rw [two s index inside, one s index inside]
  generalize d.positionOf s index = place
  -- a byte lies in the first part, in the second one behind it, or in neither
  simp only [List.length_append, List.getD_eq_getElem?_getD, List.getElem?_append]
  by_cases reached : d.start.toNat ≤ s.toNat ∧ position ≤ place
  · by_cases inFirst : place < position + first.length
    · rw [if_neg (by omega), if_pos ⟨reached.1, reached.2, inFirst⟩, if_pos (by omega),
        if_pos (by omega)]
    · rw [if_neg (by omega : ¬ (d.start.toNat ≤ s.toNat ∧ position ≤ place ∧
        place < position + first.length)), if_neg (by omega : ¬ place - position < first.length),
        Nat.sub_sub]
      congr 1
      simp only [eq_iff_iff]
      omega
  · rw [if_neg (by omega), if_neg (by omega), if_neg (by omega)]

/-- The bytes of a piece stand one behind the other in the sector of the first. -/
theorem place_in_piece {position i : Nat} (inside : position % sectorSize + i < sectorSize) :
    (position + i) / sectorSize = position / sectorSize ∧
      (position + i) % sectorSize = position % sectorSize + i := by
  simp only [sectorSize] at *
  omega

/-- A piece that lies inside one sector is written by writing its sector. -/
theorem spliced_of_piece {d : Descriptor} {position : Nat} (number : d.HasNumber position)
    {data : List UInt8} (inside : position % sectorSize + data.length ≤ sectorSize)
    (sectors : SectorNo → Sector) :
    d.Spliced position data sectors (Function.update sectors (d.sectorAt position)
      ((sectors (d.sectorAt position)).overwrite (position % sectorSize) data)) := by
  intro s index bound
  have number := number.toNat_sectorAt
  by_cases same : s = d.sectorAt position
  · subst same
    rw [Function.update_self, Block.byteAt_overwrite]
    simp only [positionOf, number, sectorSize] at *
    congr 1
    · simp only [eq_iff_iff]
      omega
    · congr 1
      omega
  · -- the piece ends with its sector, so no position of another sector is in it
    rw [Function.update_of_ne same, if_neg]
    have different : s.toNat ≠ d.start.toNat + position / sectorSize := by
      rw [← number]
      exact same ∘ SectorNo.toNat_inj.mp
    simp only [positionOf, sectorSize] at *
    omega

section Pieces

variable {d : Descriptor} {position count : Nat}

theorem nextPiece?_eq_some {piece : Piece}
    (found : d.nextPiece? position count = .ok (some piece)) :
    0 < d.granted position count ∧ piece = {
      sector := d.sectorAt position
      offset := position % sectorSize
      length := min (d.granted position count) (sectorSize - position % sectorSize) } := by
  rw [nextPiece?_eq (hasNumber_of_nextPiece? found)] at found
  split at found
  next => cases found
  next some_left =>
    simp only [Except.ok.injEq, Option.some.injEq] at found
    exact ⟨Nat.pos_of_ne_zero some_left, found.symm⟩

/-- The next piece lies in the sector of its first byte. -/
theorem piece_inside {piece : Piece} (found : d.nextPiece? position count = .ok (some piece)) :
    position < d.size ∧ piece.sector = d.sectorAt position ∧
      piece.offset = position % sectorSize ∧ piece.offset + piece.length ≤ sectorSize := by
  obtain ⟨some_left, rfl⟩ := nextPiece?_eq_some found
  have remainder := Nat.mod_lt position (by decide : 0 < sectorSize)
  simp only [granted] at some_left ⊢
  exact ⟨by omega, trivial, trivial, by omega⟩

/-- The next piece and what is granted behind it share what is granted. -/
theorem granted_eq_add {piece : Piece} (found : d.nextPiece? position count = .ok (some piece)) :
    d.granted position count =
      piece.length + d.granted (position + piece.length) (count - piece.length) := by
  obtain ⟨-, rfl⟩ := nextPiece?_eq_some found
  simp only [granted]
  omega

/-- What a piece has of its sector are bytes of the file. -/
theorem slice_piece {piece : Piece} (found : d.nextPiece? position count = .ok (some piece))
    (sectors : SectorNo → Sector) :
    (sectors piece.sector).slice piece.offset piece.length =
      (List.range piece.length).map fun i => d.byteOf sectors (position + i) := by
  obtain ⟨-, sector, offset, range⟩ := piece_inside found
  rw [Block.slice_eq_map_byteAt _ range]
  apply List.map_congr_left
  intro i member
  have small := List.mem_range.mp member
  obtain ⟨quotient, remainder⟩ :=
    place_in_piece (by omega : position % sectorSize + i < sectorSize)
  rw [byteOf, sectorAt, quotient, remainder, sector, offset]
  rfl

theorem no_piece (found : d.nextPiece? position count = .ok none) :
    d.granted position count = 0 := by
  rw [nextPiece?_eq (hasNumber_of_nextPiece? found)] at found
  by_contra some_left
  rw [if_neg some_left] at found
  cases found

end Pieces

/-! ## How far a request comes -/

section Reach

variable {δ : Type} [BlockDevice δ]

/-- The sectors of `count` bytes of the file from `position` on have numbers, and the device has
them. -/
def Lies (medium : Medium δ) (d : Descriptor) (position count : Nat) : Prop :=
  ∀ i < count, d.HasNumber (position + i) ∧ medium.Has (d.sectorAt (position + i))

/-- Why a request that has `left` bytes left cannot go on at `position`: the file goes on in a
sector that has no number, or the sector of the next byte cannot be read. -/
inductive Blocks (medium : Medium δ) (d : Descriptor) (position left : Nat) (device : δ) :
    Fault → Prop
  | overrun (before : position < d.size) (without : ¬ d.HasNumber position) :
      Blocks medium d position left device .overflow
  | refusal {fault : Fault} (some_left : 0 < left) (number : d.HasNumber position)
      (refuses : medium.Refuses (d.sectorAt position) fault device) :
      Blocks medium d position left device fault

/-- All that is granted of a request could be had, and the byte behind it has a sector number if it
is one of the file. -/
structure Reaches (medium : Medium δ) (d : Descriptor) (position count : Nat) : Prop where
  lies : d.Lies medium position (d.granted position count)
  number : position + d.granted position count < d.size →
    d.HasNumber (position + d.granted position count)

/-- A request stops with the fault after `served` bytes. -/
structure Stops (medium : Medium δ) (d : Descriptor) (position count served : Nat) (device : δ)
    (fault : Fault) : Prop where
  within : served ≤ d.granted position count
  lies : d.Lies medium position served
  blocked : d.Blocks medium (position + served) (d.granted position count - served) device fault

variable {medium : Medium δ} {d : Descriptor} {position count : Nat}

theorem Lies.nil (medium : Medium δ) (d : Descriptor) (position : Nat) :
    d.Lies medium position 0 :=
  fun i inside => absurd inside (Nat.not_lt_zero i)

theorem Lies.append {first second : Nat} (one : d.Lies medium position first)
    (two : d.Lies medium (position + first) second) :
    d.Lies medium position (first + second) := by
  intro i inside
  by_cases inFirst : i < first
  · exact one i inFirst
  · have behind := two (i - first) (by omega)
    rw [Nat.add_assoc, Nat.add_sub_cancel' (Nat.not_lt.mp inFirst)] at behind
    exact behind

theorem Lies.of_piece {length : Nat} (number : d.HasNumber position)
    (has : medium.Has (d.sectorAt position))
    (inside : position % sectorSize + length ≤ sectorSize) : d.Lies medium position length := by
  intro i inPiece
  have quotient := (place_in_piece (by omega : position % sectorSize + i < sectorSize)).1
  rw [HasNumber, sectorAt, quotient]
  exact ⟨number, has⟩

section Piece

variable {piece : Piece} (found : d.nextPiece? position count = .ok (some piece))
include found

theorem reads_of_granted {mayFail : Prop}
    (reads : ∀ i < d.granted position count, medium.Reads (d.sectorAt (position + i)) mayFail) :
    medium.Reads piece.sector mayFail ∧
      ∀ i < d.granted (position + piece.length) (count - piece.length),
        medium.Reads (d.sectorAt (position + piece.length + i)) mayFail := by
  obtain ⟨-, sector, -, -⟩ := piece_inside found
  have share := granted_eq_add found
  constructor
  · rw [sector]
    exact reads 0 (nextPiece?_eq_some found).1
  · intro i inside
    rw [Nat.add_assoc]
    exact reads _ (by omega)

theorem Lies.of_nextPiece? (has : medium.Has piece.sector) :
    d.Lies medium position piece.length := by
  obtain ⟨before, sector, offset, range⟩ := piece_inside found
  rw [sector] at has
  rw [offset] at range
  exact .of_piece (hasNumber_of_nextPiece? found before) has range

theorem Reaches.behind (has : medium.Has piece.sector)
    (rest : d.Reaches medium (position + piece.length) (count - piece.length)) :
    d.Reaches medium position count := by
  obtain ⟨lies, number⟩ := rest
  rw [Nat.add_assoc, ← granted_eq_add found] at number
  refine ⟨?_, number⟩
  rw [granted_eq_add found]
  exact (Lies.of_nextPiece? found has).append lies

theorem Stops.behind {served : Nat} {device : δ} {fault : Fault} (has : medium.Has piece.sector)
    (rest : d.Stops medium (position + piece.length) (count - piece.length) served device fault) :
    d.Stops medium position count (piece.length + served) device fault := by
  obtain ⟨within, lies, blocked⟩ := rest
  have share := granted_eq_add found
  rw [Nat.add_assoc, Nat.sub_eq_of_eq_add' share |>.symm, Nat.sub_sub] at blocked
  exact ⟨by omega, (Lies.of_nextPiece? found has).append lies, blocked⟩

theorem Stops.at_piece {device : δ} {fault : Fault}
    (refuses : medium.Refuses piece.sector fault device) :
    d.Stops medium position count 0 device fault := by
  obtain ⟨before, sector, -, -⟩ := piece_inside found
  rw [sector] at refuses
  exact ⟨Nat.zero_le _, .nil medium d position,
    .refusal (nextPiece?_eq_some found).1 (hasNumber_of_nextPiece? found before) refuses⟩

end Piece

theorem Reaches.of_no_piece (medium : Medium δ)
    (found : d.nextPiece? position count = .ok none) : d.Reaches medium position count := by
  constructor
  · rw [no_piece found]
    exact .nil medium d position
  · rw [no_piece found]
    exact hasNumber_of_nextPiece? found

theorem Stops.of_error {fault : Fault} (medium : Medium δ) (device : δ)
    (failed : d.nextPiece? position count = .error fault) :
    d.Stops medium position count 0 device fault := by
  obtain ⟨before, without, rfl⟩ := nextPiece?_eq_error failed
  exact ⟨Nat.zero_le _, .nil medium d position, .overrun before without⟩

theorem reads_of_size {mayFail : Prop}
    (readable : ∀ position < d.size, medium.Reads (d.sectorAt position) False) :
    ∀ i < d.granted position count, medium.Reads (d.sectorAt (position + i)) mayFail := by
  intro i inside
  simp only [granted] at inside
  exact (readable _ (by omega)).mono False.elim

/-- Where the sectors of the file can be read, a request stops only for the lack of a number. -/
theorem Stops.overflows {served : Nat} {device : δ} {fault : Fault}
    (stops : d.Stops medium position count served device fault)
    (readable : ∀ position < d.size, medium.Reads (d.sectorAt position) False) :
    fault = .overflow ∧ ¬ d.Numbered := by
  cases stops.blocked with
  | overrun before without =>
    exact ⟨rfl, fun numbered => without (numbered.hasNumber before)⟩
  | refusal some_left number refuses =>
    have before : position + served < d.size := by
      simp only [granted] at some_left
      omega
    exact (refuses.mayFail (readable _ before)).elim

/-- A request does not stop if the sectors of the file all have numbers and can be read. -/
theorem not_stops {served : Nat} {device : δ} {fault : Fault} (numbered : d.Numbered)
    (readable : ∀ position < d.size, medium.Reads (d.sectorAt position) False) :
    ¬ d.Stops medium position count served device fault :=
  fun stops => (stops.overflows readable).2 numbered

/-- A request for the whole file comes to its end only if all sectors have numbers. -/
theorem Reaches.numbered (reaches : d.Reaches medium 0 d.size) : d.Numbered := by
  rw [numbered_iff]
  intro position before
  have lies := (reaches.lies position (by rw [granted]; omega)).1
  rw [Nat.zero_add] at lies
  exact lies

end Reach

end Descriptor

namespace Cache

variable {δ : Type} [BlockDevice δ] {cache : Cache δ} {d : Descriptor}

namespace Consistent

variable {medium : Medium δ}

section Requests

variable (consistent : Consistent medium cache)
include consistent

theorem readFile_ends (position count : Nat)
    (reads : ∀ i < d.granted position count, medium.Reads (d.sectorAt (position + i)) True) :
    Step.Ends (readFile d position count) cache
      (fun bytes after =>
        bytes = (List.range (d.granted position count)).map
          (fun i => d.byteOf (cache.view medium.sector) (position + i)) ∧
        Consistent medium after ∧ after.view medium.sector = cache.view medium.sector ∧
        d.Reaches medium position count)
      fun fault after => Consistent medium after ∧
        after.view medium.sector = cache.view medium.sector ∧
        ∃ served, d.Stops medium position count served after.device fault := by
  fun_induction readFile generalizing cache with
  | case1 position count fault failed =>
    exact (Step.ends_throw fault).mpr ⟨consistent, rfl, 0, .of_error medium _ failed⟩
  | case2 position count found =>
    rw [Descriptor.no_piece found]
    exact (Step.ends_pure []).mpr ⟨rfl, consistent, rfl, .of_no_piece medium found⟩
  | case3 position count piece found inductionHypothesis =>
    obtain ⟨-, -, -, range⟩ := Descriptor.piece_inside found
    obtain ⟨first, others⟩ := Descriptor.reads_of_granted found reads
    rw [Step.ends_bind]
    apply ((consistent.read_ends first range).and (consistent.read_refused range)).imp
    · intro _ between ended
      obtain ⟨⟨has, rfl, consistentBetween, viewBetween⟩, -⟩ := ended
      rw [Step.ends_bind]
      apply (inductionHypothesis consistentBetween others).imp
      · intro _ after ended
        obtain ⟨rfl, consistentAfter, viewAfter, reaches⟩ := ended
        rw [Step.ends_pure]
        refine ⟨?_, consistentAfter, viewAfter.trans viewBetween, reaches.behind found has⟩
        rw [Descriptor.granted_eq_add found, List.range_add, List.map_append,
          Descriptor.slice_piece found, viewBetween, List.map_map]
        congr 1
        apply List.map_congr_left
        intro i _
        rw [Function.comp, Nat.add_assoc]
      · intro fault after ended
        obtain ⟨consistentAfter, viewAfter, served, stops⟩ := ended
        exact ⟨consistentAfter, viewAfter.trans viewBetween, _, stops.behind found has⟩
    · intro fault after ended
      obtain ⟨⟨-, consistentAfter, viewAfter⟩, refuses⟩ := ended
      exact ⟨consistentAfter, viewAfter, 0, .at_piece found refuses⟩

theorem writeFile_ends (position : Nat) {count : Nat} {data : List UInt8}
    (length : data.length = count)
    (reads : ∀ i < d.granted position count, medium.Reads (d.sectorAt (position + i)) True) :
    Step.Ends (writeFile d position count data) cache
      (fun written after => written = d.granted position count ∧ Consistent medium after ∧
        d.Spliced position (data.take (d.granted position count)) (cache.view medium.sector)
          (after.view medium.sector) ∧
        d.Reaches medium position count)
      fun fault after => Consistent medium after ∧
        ∃ served, d.Spliced position (data.take served) (cache.view medium.sector)
            (after.view medium.sector) ∧
          d.Stops medium position count served after.device fault := by
  fun_induction writeFile generalizing cache with
  | case1 position count data fault failed =>
    exact (Step.ends_throw fault).mpr
      ⟨consistent, 0, .nil d position _, .of_error medium _ failed⟩
  | case2 position count data found =>
    rw [Descriptor.no_piece found]
    exact (Step.ends_pure 0).mpr ⟨rfl, consistent, .nil d position _, .of_no_piece medium found⟩
  | case3 position count data piece found inductionHypothesis =>
    obtain ⟨before, sector, offset, range⟩ := Descriptor.piece_inside found
    have share := Descriptor.granted_eq_add found
    have number := Descriptor.hasNumber_of_nextPiece? found before
    obtain ⟨first, others⟩ := Descriptor.reads_of_granted found reads
    -- there are as many bytes as were asked for, so the piece is written in full
    have pieceLength : (data.take piece.length).length = piece.length := by
      rw [List.length_take]
      simp only [Descriptor.granted] at share
      omega
    rw [← pieceLength] at range
    rw [Step.ends_bind]
    apply ((consistent.write_ends first range).and (consistent.write_refused range)).imp
    · intro _ between ended
      obtain ⟨⟨has, consistentBetween, viewBetween⟩, -⟩ := ended
      -- the piece, and behind it as much as was served of the rest
      have spliced {served : Nat} {after : SectorNo → Sector}
          (rest : d.Spliced (position + piece.length) ((data.drop piece.length).take served)
            (between.view medium.sector) after) :
          d.Spliced position (data.take (piece.length + served)) (cache.view medium.sector)
            after := by
        rw [offset, sector] at *
        rw [List.take_add]
        apply Descriptor.Spliced.append (Descriptor.spliced_of_piece number range _)
        rw [← viewBetween, pieceLength]
        exact rest
      rw [Step.ends_bind]
      apply (inductionHypothesis consistentBetween (by rw [List.length_drop, length])
        others).imp
      · intro _ after ended
        obtain ⟨rfl, consistentAfter, splicedAfter, reaches⟩ := ended
        rw [Step.ends_pure, share]
        exact ⟨rfl, consistentAfter, spliced splicedAfter, reaches.behind found has⟩
      · intro fault after ended
        obtain ⟨consistentAfter, served, splicedAfter, stops⟩ := ended
        exact ⟨consistentAfter, _, spliced splicedAfter, stops.behind found has⟩
    · intro fault after ended
      obtain ⟨⟨-, consistentAfter, viewAfter⟩, refuses⟩ := ended
      refine ⟨consistentAfter, 0, ?_, .at_piece found refuses⟩
      rw [viewAfter]
      exact .nil d position _

variable (numbered : d.Numbered)
  (readable : ∀ position < d.size, medium.Reads (d.sectorAt position) False)
include numbered readable

theorem readFile_yields (position count : Nat) :
    Step.Yields (readFile d position count) cache fun bytes after =>
      bytes = (List.range (d.granted position count)).map
        (fun i => d.byteOf (cache.view medium.sector) (position + i)) ∧
      Consistent medium after ∧ after.view medium.sector = cache.view medium.sector := by
  apply (consistent.readFile_ends position count (Descriptor.reads_of_size readable)).imp
  · exact fun _ _ ⟨bytes_eq, consistentAfter, view, _⟩ => ⟨bytes_eq, consistentAfter, view⟩
  · exact fun _ _ ⟨_, _, _, stops⟩ => Descriptor.not_stops numbered readable stops

theorem writeFile_yields (position : Nat) {count : Nat} {data : List UInt8}
    (length : data.length = count) :
    Step.Yields (writeFile d position count data) cache fun written after =>
      written = d.granted position count ∧ Consistent medium after ∧
        d.Spliced position (data.take (d.granted position count)) (cache.view medium.sector)
          (after.view medium.sector) := by
  apply (consistent.writeFile_ends position length (Descriptor.reads_of_size readable)).imp
  · exact fun _ _ ⟨written, consistentAfter, spliced, _⟩ => ⟨written, consistentAfter, spliced⟩
  · exact fun _ _ ⟨_, _, _, stops⟩ => Descriptor.not_stops numbered readable stops

end Requests

end Consistent

/-! ## In front of a storage -/

namespace Coherent

variable {N : Nat} {storage : Storage δ N}

theorem readDescriptor_yields (coherent : Coherent storage cache) {s : SectorNo}
    (inside : s.toNat < N) :
    Step.Yields (readDescriptor s) cache fun descriptor after =>
      descriptor = .decode (cache.view storage.sector s) ∧ Coherent storage after ∧
        after.view storage.sector = cache.view storage.sector := by
  apply Step.Yields.bind (coherent.read_yields inside (by decide))
  intro _ after ended
  obtain ⟨rfl, coherentAfter, view⟩ := ended
  rw [Step.ends_pure]
  refine ⟨?_, coherentAfter, view⟩
  rw [Block.ofBytes_slice]

section Files

variable (coherent : Coherent storage cache) (within : d.start.toNat + d.sectors ≤ N)
  (addressable : N ≤ UInt32.size)
include coherent within addressable

theorem readFile_yields (position count : Nat) :
    Step.Yields (readFile d position count) cache fun bytes after =>
      bytes = (List.range (d.granted position count)).map
        (fun i => d.byteOf (cache.view storage.sector) (position + i)) ∧
      Coherent storage after ∧ after.view storage.sector = cache.view storage.sector := by
  have readable (position : Nat) (before : position < d.size) :=
    storage.reads (d.sectorAt_lt within addressable before)
  apply Step.Yields.imp ((coherent_iff.mp coherent).readFile_yields
    (Nat.le_trans within addressable) readable position count)
  exact fun _ _ ⟨bytes_eq, consistent, view⟩ => ⟨bytes_eq, coherent_iff.mpr consistent, view⟩

theorem writeFile_yields (position : Nat) {count : Nat} {data : List UInt8}
    (length : data.length = count) :
    Step.Yields (writeFile d position count data) cache fun written after =>
      written = d.granted position count ∧ Coherent storage after ∧
        d.Spliced position (data.take (d.granted position count)) (cache.view storage.sector)
          (after.view storage.sector) := by
  have readable (position : Nat) (before : position < d.size) :=
    storage.reads (d.sectorAt_lt within addressable before)
  apply Step.Yields.imp ((coherent_iff.mp coherent).writeFile_yields
    (Nat.le_trans within addressable) readable position length)
  exact fun _ _ ⟨written, consistent, spliced⟩ => ⟨written, coherent_iff.mpr consistent, spliced⟩

end Files

end Coherent

end Cache

end Residency
