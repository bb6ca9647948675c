import Residency.Proofs.Pieces
import Residency.Proofs.Volume.SharedInode

/-!
# Ranges of a file

Reading a range of an open file and writing to it, on a volume whose cache any run has reached, in
front of a device that has all data sectors of the file.

* `reading_gives_a_slice`: reading gives a slice of the bytes of the file;
* `writing_splices`: writing replaces a slice of them, and changes no other byte of any sector;
* `each_sector_is_accessed_once`: either does it sector by sector in ascending order, with one
  access of the cache for each.

The file may lie anywhere and be of any length, and so may the range.
-/

namespace Residency

namespace Descriptor

variable {d : Descriptor} {sectors : SectorNo → Sector}

/-- The bytes of a file, as its data sectors hold them. -/
def bytesIn (d : Descriptor) (sectors : SectorNo → Sector) : List UInt8 :=
  (sectorBytes (fun i => sectors (.ofNat (d.start.toNat + i))) d.sectors).take d.size

theorem length_bytesIn : (d.bytesIn sectors).length = d.size := by
  rw [bytesIn, List.length_take, length_sectorBytes, Nat.min_eq_left]
  simp only [Descriptor.sectors, sectorsFor, sectorSize]
  omega

theorem getElem?_bytesIn {position : Nat} (before : position < d.size) :
    (d.bytesIn sectors)[position]? = some (d.byteOf sectors position) := by
  have inside : position < d.sectors * sectorSize := by
    simp only [Descriptor.sectors, sectorsFor, sectorSize]
    omega
  rw [bytesIn, List.getElem?_take_of_lt before, getElem?_sectorBytes inside]
  rfl

/-- What is granted of a request is a slice of the file. -/
theorem map_byteOf_eq_slice (position count : Nat) :
    (List.range (d.granted position count)).map (fun i => d.byteOf sectors (position + i)) =
      ((d.bytesIn sectors).drop position).take (d.granted position count) := by
  apply List.ext_getElem?
  intro i
  by_cases inside : i < d.granted position count
  · have before : position + i < d.size := by
      simp only [granted] at inside
      omega
    rw [List.getElem?_map, List.getElem?_range inside, List.getElem?_take_of_lt inside,
      List.getElem?_drop, getElem?_bytesIn before]
    rfl
  · rw [List.getElem?_eq_none, List.getElem?_eq_none]
    · rw [List.length_take]
      omega
    · rw [List.length_map, List.length_range]
      omega

theorem granted_eq (position count : Nat) :
    d.granted position count = if position < d.size then min count (d.size - position) else 0 := by
  rw [granted]
  split <;> omega

namespace Spliced

variable {position : Nat} {data : List UInt8} {before after : SectorNo → Sector}

theorem byteOf_eq_of_hasNumber (spliced : d.Spliced position data before after) {i : Nat}
    (number : d.HasNumber (position + i)) (inside : i < data.length) :
    some (d.byteOf after (position + i)) = data[i]? := by
  have place : d.positionOf (d.sectorAt (position + i)) ((position + i) % sectorSize) =
      position + i := by
    rw [positionOf, number.toNat_sectorAt, Nat.add_sub_cancel_left, Nat.div_add_mod']
  have behind : d.start.toNat ≤ (d.sectorAt (position + i)).toNat :=
    number.toNat_sectorAt ▸ Nat.le_add_right ..
  rw [byteOf, spliced _ _ (Nat.mod_lt _ (by decide)), place, if_pos ⟨behind, by omega, by omega⟩,
    Nat.add_sub_cancel_left, List.getD_eq_getElem?_getD, List.getElem?_eq_getElem inside]
  rfl

theorem byteOf_eq (spliced : d.Spliced position data before after) (numbered : d.Numbered)
    (fits : position + data.length ≤ d.size) {i : Nat} (inside : i < data.length) :
    some (d.byteOf after (position + i)) = data[i]? :=
  spliced.byteOf_eq_of_hasNumber (numbered.hasNumber (by omega)) inside

/-- The slice of the file that was written. -/
theorem slice_eq (spliced : d.Spliced position data before after) (numbered : d.Numbered)
    (granted : d.granted position data.length = data.length) :
    ((d.bytesIn after).drop position).take data.length = data := by
  rw [← granted, ← map_byteOf_eq_slice, granted]
  apply List.ext_getElem?
  intro i
  by_cases inside : i < data.length
  · have fits : position + data.length ≤ d.size := by
      rw [Descriptor.granted] at granted
      omega
    rw [List.getElem?_map, List.getElem?_range inside, Option.map_some,
      spliced.byteOf_eq numbered fits inside]
  · rw [List.getElem?_eq_none, List.getElem?_eq_none (Nat.not_lt.mp inside)]
    rw [List.length_map, List.length_range]
    exact Nat.not_lt.mp inside

/-- A byte that is in the place of none of `data` stays what it was. -/
theorem byteAt_eq (spliced : d.Spliced position data before after) {s : SectorNo} {index : Nat}
    (inside : index < sectorSize)
    (other : ∀ i < data.length,
      (d.start.toNat + (position + i) / sectorSize, (position + i) % sectorSize) ≠
        (s.toNat, index)) : (after s).byteAt index = (before s).byteAt index := by
  rw [spliced s index inside, if_neg]
  rintro ⟨behind, start, stop⟩
  apply other (d.positionOf s index - position) (by omega)
  rw [Nat.add_sub_cancel' start, positionOf, Prod.mk.injEq]
  simp only [sectorSize] at *
  omega

end Spliced

end Descriptor

namespace Volume

variable {δ : Type} [BlockDevice δ] {medium : Medium δ} {volume : Volume δ} {id : InodeId}
  {inode : Inode}

/-! ## Requests as accesses of the cache -/

theorem ends_readAt (found : volume.inode? id = some inode) {position : Nat} {buffer : List UInt8}
    {done : Nat × List UInt8 → Volume δ → Prop} {stopped : Fault → Volume δ → Prop} :
    Step.Ends (readAt id position buffer) volume done stopped ↔
      Step.Ends (Cache.readFile inode.descriptor position buffer.length) volume.cache
        (fun bytes cache => done (bytes.length, bytes ++ buffer.drop bytes.length)
          { volume with cache })
        fun fault cache => stopped fault { volume with cache } := by
  simp only [readAt, onCache, Step.ends_bind, ends_onInode found, Step.ends_get,
    OpenFiles.set_self found, Step.ends_on, Step.ends_pure]

theorem ends_writeAt (found : volume.inode? id = some inode) (allowed : inode.denials = 0)
    {position : Nat} {data : List UInt8} {done : Nat → Volume δ → Prop}
    {stopped : Fault → Volume δ → Prop} :
    Step.Ends (writeAt id position data) volume done stopped ↔
      Step.Ends (Cache.writeFile inode.descriptor position data.length data) volume.cache
        (fun written cache => done written { volume with cache })
        fun fault cache => stopped fault { volume with cache } := by
  simp only [writeAt, onCache, Step.ends_bind, ends_onInode found, Step.ends_get,
    OpenFiles.set_self found, allowed, Nat.lt_irrefl, if_false, Step.ends_on]

section Consistent

variable (consistent : Cache.Consistent medium volume.cache)
  (found : volume.inode? id = some inode) (numbered : inode.descriptor.Numbered)
  (readable : ∀ position < inode.descriptor.size,
    medium.Reads (inode.descriptor.sectorAt position) False)
include consistent found numbered readable

theorem readAt_yields_of_consistent (position : Nat) (buffer : List UInt8) :
    Step.Yields (readAt id position buffer) volume fun result after =>
      ∃ cache, after = { volume with cache } ∧ Cache.Consistent medium cache ∧
        cache.view medium.sector = volume.cache.view medium.sector ∧
        result = (inode.descriptor.granted position buffer.length,
          ((inode.descriptor.bytesIn (volume.cache.view medium.sector)).drop position).take
            (inode.descriptor.granted position buffer.length) ++
          buffer.drop (inode.descriptor.granted position buffer.length)) := by
  apply (ends_readAt found).mpr
  apply Step.Yields.imp (consistent.readFile_yields numbered readable position buffer.length)
  rintro _ cache ⟨rfl, consistentAfter, view⟩
  refine ⟨cache, rfl, consistentAfter, view, ?_⟩
  rw [List.length_map, List.length_range, Descriptor.map_byteOf_eq_slice]

theorem writeAt_yields_of_consistent (allowed : inode.denials = 0) (position : Nat)
    (data : List UInt8) :
    Step.Yields (writeAt id position data) volume fun written after =>
      ∃ cache, after = { volume with cache } ∧ Cache.Consistent medium cache ∧
        written = inode.descriptor.granted position data.length ∧
        inode.descriptor.Spliced position
          (data.take (inode.descriptor.granted position data.length))
          (volume.cache.view medium.sector) (cache.view medium.sector) := by
  apply (ends_writeAt found allowed).mpr
  apply Step.Yields.imp (consistent.writeFile_yields numbered readable position rfl)
  rintro _ cache ⟨rfl, consistentAfter, spliced⟩
  exact ⟨cache, rfl, consistentAfter, rfl, spliced⟩

end Consistent

/-! ## On a volume that is in use -/

/-- Reading an open file whose data sectors are all below `N`, in front of a device that can read
these, through a cache that any run has reached.

It never fails.  It gives as many bytes as were asked for and the file has from `position` on.  They
are a slice of the file, whose data sectors are put one behind the other; the rest of the buffer
stays as it is.  Nothing of the volume changes but its cache, and nothing of what that shows. -/
theorem reading_gives_a_slice {N : Nat} (addressable : N ≤ UInt32.size)
    (readable : ∀ s : SectorNo, s.toNat < N → medium.Reads s False)
    (reachable : volume.cache.Reachable medium) (found : volume.inode? id = some inode)
    (within : inode.descriptor.start.toNat + inode.descriptor.sectors ≤ N)
    (position : Nat) (buffer : List UInt8) :
    let d := inode.descriptor
    let file := d.bytesIn (volume.cache.view medium.sector)
    let n := if position < d.size then min buffer.length (d.size - position) else 0
    file.length = d.size ∧
      Step.Yields (readAt id position buffer) volume fun result after =>
        result = (n, (file.drop position).take n ++ buffer.drop n) ∧
          after = { volume with cache := after.cache } ∧
          after.cache.view medium.sector = volume.cache.view medium.sector := by
  intro d file n
  have consistent := reachable.consistent
  have numbered : d.Numbered := Nat.le_trans within addressable
  refine ⟨Descriptor.length_bytesIn, ?_⟩
  apply Step.Yields.imp (readAt_yields_of_consistent consistent found numbered
    (fun p before => readable _ (d.sectorAt_lt within addressable before)) position buffer)
  rintro result _ ⟨cache, rfl, -, view, rfl⟩
  rw [Descriptor.granted_eq]
  exact ⟨rfl, rfl, view⟩

/-- Four bytes around the boundary of two sectors, of which three were written before. -/
theorem reading_around_a_boundary :
    let calls : List CacheCall := [.write ⟨1⟩ 510 [1, 2], .write ⟨2⟩ 0 [3]]
    let inode : Inode := { sector := ⟨0⟩, descriptor := .ofRun ⟨1⟩ 513 }
    let volume : Volume RamDisk := {
      cache := (({ device := { sectors := 3 } } : Cache RamDisk).serve calls).2
      map := .empty 3
      files := { inodes := #[inode] } }
    (∀ s : SectorNo, s.toNat < 3 → (RamDisk.storage 3).medium.Reads s False) ∧
      volume.cache.Reachable (RamDisk.storage 3).medium ∧ volume.inode? ⟨0⟩ = some inode ∧
      inode.descriptor.start.toNat + inode.descriptor.sectors ≤ 3 ∧
      Step.Yields (readAt ⟨0⟩ 510 [9, 9, 9, 9]) volume fun result _ =>
        result = (3, [1, 2, 3, 9]) := by
  intro calls inode volume
  have readable (s : SectorNo) (inside : s.toNat < 3) :
      (RamDisk.storage 3).medium.Reads s False := (RamDisk.storage 3).toStorage.reads inside
  have reachable : volume.cache.Reachable (RamDisk.storage 3).medium :=
    .run ({ sectors := 3 } : RamDisk) calls rfl fun call _ => call.answerable_of_bounded _
  have within : inode.descriptor.start.toNat + inode.descriptor.sectors ≤ 3 := by decide
  refine ⟨readable, reachable, rfl, within, ?_⟩
  apply Step.Yields.imp
    (reading_gives_a_slice (by decide) readable reachable rfl within 510 [9, 9, 9, 9]).2
  rintro _ _ ⟨rfl, -⟩
  decide +kernel

/-- Writing to such a file, to which nobody has forbidden it.

It never fails.  It takes as many of the bytes as the file has room for from `position` on, and they
are at their places in the data sectors afterwards.  No byte at any other place of any sector
changes, be it behind the end of the file in its last sector.  Reading as many bytes from the same
position gives what was written. -/
theorem writing_splices {N : Nat} (addressable : N ≤ UInt32.size)
    (readable : ∀ s : SectorNo, s.toNat < N → medium.Reads s False)
    (reachable : volume.cache.Reachable medium) (found : volume.inode? id = some inode)
    (allowed : inode.denials = 0)
    (within : inode.descriptor.start.toNat + inode.descriptor.sectors ≤ N)
    (position : Nat) (data : List UInt8) :
    let d := inode.descriptor
    let n := if position < d.size then min data.length (d.size - position) else 0
    let place (i : Nat) : Nat × Nat :=
      (d.start.toNat + (position + i) / sectorSize, (position + i) % sectorSize)
    Step.Yields (writeAt id position data) volume fun written after =>
      written = n ∧ after = { volume with cache := after.cache } ∧
        (∀ i < n, some ((after.cache.view medium.sector (.ofNat (place i).1)).byteAt (place i).2) =
          data[i]?) ∧
        (∀ s, ∀ index < sectorSize, (∀ i < n, place i ≠ (s.toNat, index)) →
          (after.cache.view medium.sector s).byteAt index =
            (volume.cache.view medium.sector s).byteAt index) ∧
        ∀ buffer : List UInt8, buffer.length = n →
          Step.Yields (readAt id position buffer) after fun result _ =>
            result = (n, data.take n) := by
  intro d n place
  have consistent := reachable.consistent
  have numbered : d.Numbered := Nat.le_trans within addressable
  have readable (p : Nat) (before : p < d.size) : medium.Reads (d.sectorAt p) False :=
    readable _ (d.sectorAt_lt within addressable before)
  have granted : d.granted position data.length = n := Descriptor.granted_eq ..
  have length : (data.take n).length = n := by
    rw [List.length_take, ← granted, Descriptor.granted]
    omega
  have grantedAgain : d.granted position n = n := by
    rw [← granted, Descriptor.granted, Descriptor.granted]
    omega
  apply Step.Yields.imp
    (writeAt_yields_of_consistent consistent found numbered readable allowed position data)
  rintro written _ ⟨cache, rfl, consistentAfter, rfl, spliced⟩
  rw [granted] at spliced ⊢
  refine ⟨rfl, rfl, fun i inside => ?_, fun s index bound other => ?_, fun buffer size => ?_⟩
  · have fits : position + (data.take n).length ≤ d.size := by
      rw [length, ← granted, Descriptor.granted]
      rw [← granted, Descriptor.granted] at inside
      omega
    have written := spliced.byteOf_eq numbered fits (by rw [length]; exact inside)
    rw [List.getElem?_take_of_lt inside] at written
    exact written
  · exact spliced.byteAt_eq bound (by rw [length]; exact other)
  · have foundAfter : ({ volume with cache } : Volume δ).inode? id = some inode := found
    apply Step.Yields.imp
      (readAt_yields_of_consistent consistentAfter foundAfter numbered readable position buffer)
    rintro result _ ⟨_, -, -, -, rfl⟩
    have slice := spliced.slice_eq numbered (by rw [length, grantedAgain])
    rw [length] at slice
    rw [size, grantedAgain, slice, ← size, List.drop_length, List.append_nil]

/-- Of three bytes, the file has room for two before its end, which is also that of a sector. -/
theorem writing_at_the_end :
    let inode : Inode := { sector := ⟨0⟩, descriptor := .ofRun ⟨1⟩ 1000 }
    let volume : Volume RamDisk := {
      cache := { device := { sectors := 3 } }
      map := .empty 3
      files := { inodes := #[inode] } }
    (∀ s : SectorNo, s.toNat < 3 → (RamDisk.storage 3).medium.Reads s False) ∧
      volume.cache.Reachable (RamDisk.storage 3).medium ∧ volume.inode? ⟨0⟩ = some inode ∧
      inode.denials = 0 ∧ inode.descriptor.start.toNat + inode.descriptor.sectors ≤ 3 ∧
      Step.Yields (writeAt ⟨0⟩ 998 [5, 6, 7]) volume fun written after => written = 2 ∧
        ((after.cache.view RamDisk.sector ⟨2⟩).byteAt 487 = 6) ∧
        ((after.cache.view RamDisk.sector ⟨2⟩).byteAt 488 = 0) ∧
        Step.Yields (readAt ⟨0⟩ 998 [9, 9]) after fun result _ => result = (2, [5, 6]) := by
  intro inode volume
  have readable (s : SectorNo) (inside : s.toNat < 3) :
      (RamDisk.storage 3).medium.Reads s False := (RamDisk.storage 3).toStorage.reads inside
  have reachable : volume.cache.Reachable (RamDisk.storage 3).medium :=
    .run ({ sectors := 3 } : RamDisk) [] rfl fun call _ => call.answerable_of_bounded _
  have within : inode.descriptor.start.toNat + inode.descriptor.sectors ≤ 3 := by decide
  refine ⟨readable, reachable, rfl, rfl, within, ?_⟩
  apply Step.Yields.imp
    (writing_splices (by decide) readable reachable rfl rfl within 998 [5, 6, 7])
  intro _ after ended
  obtain ⟨count, -, bytes, others, again⟩ := ended
  refine ⟨count.trans (by decide), Option.some.inj (bytes 1 (by decide)), ?_, ?_⟩
  · exact (others ⟨2⟩ 488 (by decide) (by decide)).trans (by decide +kernel)
  · exact Step.Yields.imp (again [9, 9] (by decide)) fun _ _ result => result.trans (by decide)

/-! ## Access by access -/

section Accesses

variable (consistent : Cache.Consistent medium volume.cache)
  (found : volume.inode? id = some inode) (numbered : inode.descriptor.Numbered)
  (readable : ∀ position < inode.descriptor.size,
    medium.Reads (inode.descriptor.sectorAt position) False)
include consistent found numbered readable

theorem readAt_accesses (position : Nat) (buffer : List UInt8) :
    Step.Yields (readAt id position buffer) volume fun result after =>
      ∃ (bytes : List (List UInt8)) (cache : Cache δ), after = { volume with cache } ∧
        volume.cache.Accesses (inode.descriptor.reads position
          (inode.descriptor.granted position buffer.length)) bytes cache ∧
        result = (bytes.flatten.length, bytes.flatten ++ buffer.drop bytes.flatten.length) := by
  apply (ends_readAt found).mpr
  rw [Cache.readFile_eq numbered, Step.ends_bind]
  apply Step.Yields.imp
    (consistent.accesses (Descriptor.reads_readable readable (Nat.min_le_right ..)))
  exact fun bytes cache accesses => (Step.ends_pure _).mpr ⟨bytes, cache, rfl, accesses, rfl⟩

theorem writeAt_accesses (allowed : inode.denials = 0) (position : Nat) (data : List UInt8) :
    Step.Yields (writeAt id position data) volume fun written after =>
      ∃ (answers : List (List UInt8)) (cache : Cache δ), after = { volume with cache } ∧
        volume.cache.Accesses (inode.descriptor.writes position
          (data.take (inode.descriptor.granted position data.length))) answers cache ∧
        written = inode.descriptor.granted position data.length := by
  have fits : (data.take (inode.descriptor.granted position data.length)).length ≤
      inode.descriptor.size - position := by
    rw [List.length_take, Descriptor.granted]
    omega
  apply (ends_writeAt found allowed).mpr
  rw [Cache.writeFile_eq numbered position rfl, Step.ends_bind]
  apply Step.Yields.imp (consistent.accesses (Descriptor.writes_readable readable fits))
  exact fun answers cache accesses => (Step.ends_pure _).mpr ⟨answers, cache, rfl, accesses, rfl⟩

end Accesses

/-- What reading such a file and writing to it do to the cache.

The range that there is of what was asked for is cut into pieces, as many as it touches sectors.
They lie in consecutive sectors in ascending order, none is empty, and only the first and the last
may be shorter than their sectors.  Reading accesses the cache once for each of them, in their
order, and does nothing else to it; all these accesses succeed, and what they give is what is read.
The same is true of writing, where the bytes to be written are cut in the same way. -/
theorem each_sector_is_accessed_once {N : Nat} (addressable : N ≤ UInt32.size)
    (readable : ∀ s : SectorNo, s.toNat < N → medium.Reads s False)
    (reachable : volume.cache.Reachable medium) (found : volume.inode? id = some inode)
    (within : inode.descriptor.start.toNat + inode.descriptor.sectors ≤ N) (position : Nat) :
    let d := inode.descriptor
    let granted (count : Nat) := if position < d.size then min count (d.size - position) else 0
    (∀ buffer : List UInt8,
      let n := granted buffer.length
      let pieces := d.pieces position n
      d.Tiles position n pieces ∧
        ∃ (bytes : List (List UInt8)) (cache : Cache δ),
          volume.cache.Accesses (pieces.map Piece.reading) bytes cache ∧
          (readAt id position buffer).run volume =
            .ok (n, bytes.flatten ++ buffer.drop n) { volume with cache }) ∧
      (inode.denials = 0 → ∀ data : List UInt8,
        let n := granted data.length
        let pieces := d.pieces position n
        d.Tiles position n pieces ∧
          ∃ (chunks answers : List (List UInt8)) (cache : Cache δ),
            chunks.flatten = data.take n ∧ chunks.map List.length = pieces.map (·.length) ∧
            volume.cache.Accesses (pieces.zipWith Piece.writing chunks) answers cache ∧
            (writeAt id position data).run volume = .ok n { volume with cache }) := by
  intro d granted
  have consistent := reachable.consistent
  have numbered : d.Numbered := Nat.le_trans within addressable
  have readable (p : Nat) (before : p < d.size) : medium.Reads (d.sectorAt p) False :=
    readable _ (d.sectorAt_lt within addressable before)
  have granted_eq (count : Nat) : d.granted position count = granted count :=
    Descriptor.granted_eq ..
  have tiles (count : Nat) :
      d.Tiles position (granted count) (d.pieces position (granted count)) := by
    rw [← granted_eq]
    exact Descriptor.tiles_pieces numbered (Nat.min_le_right ..)
  refine ⟨fun buffer => ⟨tiles _, ?_⟩, fun allowed data => ⟨tiles _, ?_⟩⟩
  · obtain ⟨result, _, run, ⟨bytes, cache, rfl, accesses, joined⟩, _, -, -, -, slice⟩ :=
      ((readAt_accesses consistent found numbered readable position buffer).and
        (readAt_yields_of_consistent consistent found numbered readable position buffer)).run
    -- the pieces are as long as the slice, so what they give is all that was granted
    have length : bytes.flatten.length = granted buffer.length := by
      rw [← granted_eq]
      exact congrArg Prod.fst (joined.symm.trans slice)
    rw [joined, length] at run
    rw [granted_eq, Descriptor.reads] at accesses
    exact ⟨bytes, cache, accesses, run⟩
  · obtain ⟨_, _, run, answers, cache, rfl, accesses, rfl⟩ :=
      (writeAt_accesses consistent found numbered readable allowed position data).run
    rw [granted_eq] at run accesses
    have length : (data.take (granted data.length)).length = granted data.length := by
      rw [← granted_eq, List.length_take, Descriptor.granted]
      omega
    have lengths : (d.chunks position (data.take (granted data.length))).map List.length =
        (d.pieces position (granted data.length)).map (·.length) := by
      rw [Descriptor.map_length_chunks, length]
    rw [Descriptor.writes, length] at accesses
    exact ⟨_, answers, cache, Descriptor.flatten_chunks, lengths, accesses, run⟩

/-- A range that starts and ends inside sectors, with a whole one between. -/
theorem three_sectors_are_accessed_once :
    let inode : Inode := { sector := ⟨0⟩, descriptor := .ofRun ⟨1⟩ 1200 }
    let volume : Volume RamDisk := {
      cache := { device := { sectors := 4 } }
      map := .empty 4
      files := { inodes := #[inode] } }
    let pieces : List Piece := [⟨⟨1⟩, 300, 212⟩, ⟨⟨2⟩, 0, 512⟩, ⟨⟨3⟩, 0, 176⟩]
    let data : List UInt8 := List.replicate 1000 7
    (∀ s : SectorNo, s.toNat < 4 → (RamDisk.storage 4).medium.Reads s False) ∧
      volume.cache.Reachable (RamDisk.storage 4).medium ∧ volume.inode? ⟨0⟩ = some inode ∧
      inode.denials = 0 ∧ inode.descriptor.start.toNat + inode.descriptor.sectors ≤ 4 ∧
      (∃ (bytes : List (List UInt8)) (cache : Cache RamDisk),
        volume.cache.serve (pieces.map Piece.reading) = (bytes.map .ok, cache) ∧
          (readAt ⟨0⟩ 300 data).run volume =
            .ok (900, bytes.flatten ++ data.drop 900) { volume with cache } ∧
          cache.stats.hits + cache.stats.misses = 3) ∧
      ∃ cache : Cache RamDisk,
        (writeAt ⟨0⟩ 300 data).run volume = .ok 900 { volume with cache } ∧
          cache.stats.hits + cache.stats.misses = 3 := by
  intro inode volume pieces data
  have readable (s : SectorNo) (inside : s.toNat < 4) :
      (RamDisk.storage 4).medium.Reads s False := (RamDisk.storage 4).toStorage.reads inside
  have reachable : volume.cache.Reachable (RamDisk.storage 4).medium :=
    .run ({ sectors := 4 } : RamDisk) [] rfl fun call _ => call.answerable_of_bounded _
  have within : inode.descriptor.start.toNat + inode.descriptor.sectors ≤ 4 := by decide
  have granted : (if 300 < inode.descriptor.size then
      min data.length (inode.descriptor.size - 300) else 0) = 900 := by
    rw [List.length_replicate]
    decide
  have cut : inode.descriptor.pieces 300 900 = pieces := by decide
  have found : volume.inode? ⟨0⟩ = some inode := rfl
  refine ⟨readable, reachable, found, rfl, within, ?_⟩
  obtain ⟨reading, writing⟩ :=
    each_sector_is_accessed_once (by decide) readable reachable found within 300
  obtain ⟨-, bytes, read, accessesRead, runRead⟩ := reading data
  obtain ⟨-, chunks, _, written, -, lengths, accessesWritten, runWritten⟩ := writing rfl data
  simp only [granted, cut] at accessesRead runRead lengths accessesWritten runWritten
  refine ⟨⟨bytes, read, accessesRead.serves, runRead, accessesRead.counts⟩, written, runWritten, ?_⟩
  have three := congrArg List.length lengths
  rw [List.length_map, List.length_map] at three
  have counts := accessesWritten.counts
  rw [List.length_zipWith, three] at counts
  exact counts

end Volume

end Residency
