import Mathlib.Data.Finset.Card
import Residency.Proofs.Volume.Calls

/-!
# Who owns the sectors of a volume

Every sector in use was reserved or belongs to one live file: `sectors_have_one_owner`.  So none is
lost, none is used twice, and what is given back was in use.

This rests on the caller not writing through an inode whose file is gone: `late_write` is a run in
which such a write destroys the descriptor of a file that was stored since.
-/

namespace Residency

variable {δ : Type} [BlockDevice δ] {N : Nat}

/-- The sectors in use, of `capacity` in all, are divided among those that were reserved and the
live files.  Of the others as many are left as `free` says, and allocating gives none but them. -/
structure Library.Divides (library : Library) (reserved : Finset Nat) (capacity : Nat)
    (map : Bitmap) : Prop where
  used : ∀ t, map.isUsed t = true ↔ t ∈ reserved ∨ ∃ file ∈ library, t ∈ file.sectors
  distinct : (reserved.toList ++ library.sectors).Nodup
  free : map.freeSectors + reserved.card +
    (library.map fun file => 1 + sectorsFor file.contents.length).sum = capacity
  allocated : ∀ count start, (map.allocate count).1 = some start →
    ∀ t ∈ List.range' start.toNat count, t ∉ reserved ∧ ∀ file ∈ library, t ∉ file.sectors

theorem Library.length_sectors (library : Library) : library.sectors.length =
    (library.map fun file => 1 + sectorsFor file.contents.length).sum := by
  rw [Library.sectors, List.length_flatMap]
  congr 1
  apply List.map_congr_left
  intro file _
  rw [LiveFile.sectors, List.length_cons, List.length_range', Nat.add_comm]

/-- A map of which nothing but the reserved sectors is used has lent these. -/
theorem Bitmap.lends_reserved {map : Bitmap} {reserved : Finset Nat}
    (inside : ∀ t ∈ reserved, t < map.capacity)
    (marked : ∀ t, map.isUsed t = true ↔ t ∈ reserved) :
    (Bitmap.empty map.capacity).Lends reserved.toList map where
  capacity := rfl
  used t := by simp [marked]
  wasFree t member := ⟨inside t (Finset.mem_toList.mp member), isUsed_empty ..⟩
  distinct := reserved.nodup_toList

theorem Library.Sound.divides {storage : Storage δ N} {map : Bitmap} {n : Nat} {library : Library}
    {volume : Volume δ} (addressable : N ≤ UInt32.size) (roomy : map.capacity ≤ N)
    {reserved : Finset Nat} (inside : ∀ t ∈ reserved, t < map.capacity)
    (marked : ∀ t, map.isUsed t = true ↔ t ∈ reserved)
    (sound : library.Sound storage map n volume) :
    library.Divides reserved map.capacity volume.map where
  used t := by
    rw [sound.lends.used, marked, or_comm, Library.sectors, List.mem_flatMap]
  distinct := by
    rw [List.nodup_append']
    refine ⟨reserved.nodup_toList, sound.lends.distinct, fun t isReserved owned => ?_⟩
    have unused := (sound.lends.wasFree t owned).2
    rw [(marked t).mpr (Finset.mem_toList.mp isReserved)] at unused
    cases unused
  free := by
    have atFirst := (Bitmap.lends_reserved inside marked).freeSectors_add
    have since := sound.lends.freeSectors_add
    rw [Finset.length_toList, Bitmap.freeSectors_empty] at atFirst
    rw [Library.length_sectors] at since
    omega
  allocated := by
    intro count start found t inRun
    rcases volume.map.allocate_runs (sound.capacity_le addressable roomy) count with
      ⟨start, taken, isFree⟩ | notFound
    · rw [taken] at found
      cases found
      obtain ⟨unowned, unused⟩ := sound.lends.apart isFree inRun
      refine ⟨fun isReserved => ?_, fun file member owned => ?_⟩
      · rw [(marked t).mpr isReserved] at unused
        cases unused
      · exact unowned (Library.mem_sectors member owned)
    · rw [notFound] at found
      cases found

/-- A new volume, of which some sectors are reserved, under any run of calls that open files while
they are live and write through no inode whose file is gone.  The sectors in use are divided among
those reserved and the live files; the volume shows each live file's descriptor where it belongs,
and the inodes that are open have copies of it.  No call fails, so that all that is ever given back
was in use. -/
theorem Volume.sectors_have_one_owner (storage : Storage δ N) (addressable : N ≤ UInt32.size)
    {device : δ} (serves : storage.Serves device) {map : Bitmap} (roomy : map.capacity ≤ N)
    {reserved : Finset Nat} (inside : ∀ t ∈ reserved, t < map.capacity)
    (marked : ∀ t, map.isUsed t = true ↔ t ∈ reserved) {n : Nat} {library : Library}
    {volume : Volume δ}
    (reaches : Reaches storage Library.Covers (.mount device map) n library volume)
    (short : n < 2 ^ 64) :
    let shown (sector : SectorNo) := Descriptor.decode (volume.cache.view storage.sector sector)
    library.Divides reserved map.capacity volume.map ∧
      (∀ file ∈ library, (shown file.sector).start = file.start ∧
        (shown file.sector).size = file.contents.length ∧ (shown file.sector).isValid = true) ∧
      (∀ id inode, volume.inode? id = some inode → 0 < inode.opens →
        (∃ file ∈ library, file.sector = inode.sector) ∧
          inode.descriptor = shown inode.sector) ∧
      (n + 1 < 2 ^ 64 → ∀ call : FileCall, call.Permitted Library.Covers library volume →
        Step.Yields call.step volume fun _ _ => True) := by
  intro shown
  have guarded (library : Library) (inode : Inode) (covers : library.Covers inode) :
      library.Covers inode := covers
  have sound := reaches.sound addressable roomy guarded serves short
  refine ⟨sound.divides addressable roomy inside marked, ?_, ?_, ?_⟩
  · intro file member
    have stands := sound.stands file member
    have described : shown file.sector = file.descriptor := stands.described
    rw [described]
    exact ⟨rfl, stands.size, Descriptor.isValid_ofRun ..⟩
  · intro id inode found isOpen
    obtain ⟨file, member, sector, descriptor⟩ := sound.lists.live id inode found isOpen
    refine ⟨⟨file, member, sector⟩, ?_⟩
    rw [← sector, ← descriptor]
    exact (sound.stands file member).described.symm
  · intro fits call permitted
    exact Step.Yields.imp (FileCall.call_yields addressable roomy guarded sound fits permitted)
      fun _ _ _ => trivial

/-- A disk of three sectors of which the first one is reserved: a file takes the others. -/
theorem Volume.sectors_have_one_owner_on_three_sectors :
    ((RamDisk.storage 3).Serves { sectors := 3 } ∧
        ∀ t, ((Bitmap.empty 3).flipRange 0 1).isUsed t = true ↔ t ∈ ({0} : Finset Nat)) ∧
      ∃ volume, Reaches (RamDisk.storage 3).toStorage Library.Covers
          (.mount { sectors := 3 } ((Bitmap.empty 3).flipRange 0 1)) 1
          [{ sector := ⟨1⟩, start := ⟨2⟩, contents := [7, 8, 9] }] volume ∧
        volume.map.freeSectors = 0 := by
  have serves : (RamDisk.storage 3).Serves { sectors := 3 } := rfl
  have marked (t : Nat) :
      ((Bitmap.empty 3).flipRange 0 1).isUsed t = true ↔ t ∈ ({0} : Finset Nat) := by
    rw [Bitmap.isUsed_flipRange (by decide), Bitmap.isUsed_empty, Finset.mem_singleton]
    split <;> simp <;> omega
  obtain ⟨volume, reaches, -⟩ := (Reaches.start : Reaches (RamDisk.storage 3).toStorage
    Library.Covers (.mount { sectors := 3 } ((Bitmap.empty 3).flipRange 0 1)) 0 [] _).store
    (Volume.shows_mount _ serves _) (by decide) [7, 8, 9] ⟨1⟩ ⟨2⟩ (by decide) rfl rfl (by decide)
    (by decide) (by decide) Std.ExtTreeMap.getElem?_empty
  obtain ⟨divides, -⟩ := Volume.sectors_have_one_owner _ (by decide) serves (by decide)
    (by decide) marked reaches (by decide)
  have free : volume.map.freeSectors + 1 + (1 + 1) = 3 := divides.free
  exact ⟨⟨serves, marked⟩, volume, reaches, by omega⟩

/-! ## Writing through an inode whose file is gone -/

/-- A run goes on by opening a live file that is not open, removing it and closing it. -/
theorem Reaches.discard {storage : Storage δ N} {mayWrite : Library → Inode → Prop}
    {start volume : Volume δ} {n : Nat} {library : Library}
    {sectors : SectorNo → Sector} {map : Bitmap} {files : OpenFiles} {file : LiveFile}
    (reached : Reaches storage mayWrite start n library volume)
    (isShown : volume.Shows storage sectors map files) (member : file ∈ library)
    (inside : file.sector.toNat < N)
    (described : Descriptor.decode (sectors file.sector) = file.descriptor)
    (notOpen : files.registry[file.sector]? = none) {mapBetween : Bitmap}
    (between_eq : map.flipRange file.sector.toNat 1 = mapBetween)
    (descriptorInside : file.sector.toNat + 1 ≤ map.capacity)
    (descriptorUsed : map.isUsed file.sector.toNat = true)
    (dataInside : file.start.toNat + file.descriptor.sectors ≤ map.capacity)
    (dataUsed : ∀ t, file.start.toNat ≤ t → t < file.start.toNat + file.descriptor.sectors →
      mapBetween.isUsed t = true) :
    let id : InodeId := ⟨files.inodes.size⟩
    let inode : Inode :=
      { sector := file.sector, descriptor := file.descriptor, removed := true }
    ∃ after, Reaches storage mayWrite start (n + 3) (library.without file.sector) after ∧
      after.Shows storage sectors
        (mapBetween.flipRange file.start.toNat file.descriptor.sectors)
        (((files.opened file.sector file.descriptor).set id inode).closed id inode) := by
  intro id inode
  obtain ⟨opened, reachesOpened, isOpened, found⟩ :=
    reached.openFile isShown member inside described notOpen
  obtain ⟨_, removed, -, reachesRemoved, -, isRemoved, known⟩ := reachesOpened.next (.remove id)
    ⟨_, found⟩ (FileCall.turn_yields isOpened (.remove id) rfl found Inode.remove_yields)
  have foundAgain : ((files.opened file.sector file.descriptor).set id inode).get? id =
      some inode := by
    rwa [Volume.inode?, isRemoved.files] at known
  have closing : Step.Yields (FileCall.close id).step removed fun _ after =>
      after.Shows storage sectors (mapBetween.flipRange file.start.toNat file.descriptor.sectors)
        (((files.opened file.sector file.descriptor).set id inode).closed id inode) := by
    apply Step.Yields.bind (Volume.close_removed_yields isRemoved foundAgain rfl rfl between_eq
      descriptorInside descriptorUsed dataInside dataUsed)
    exact fun _ after isAfter => (Step.ends_pure _).mpr isAfter
  obtain ⟨_, closed, -, reachesClosed, isClosed⟩ :=
    reachesRemoved.next (.close id) ⟨inode, known, Nat.one_pos⟩ closing
  simp only [Library.after, known, Option.elim_some] at reachesClosed
  exact ⟨closed, reachesClosed, isClosed⟩

/-- The inode of a file with twelve bytes in the second sector, after the file was given up. -/
def Inode.late : Inode :=
  { sector := ⟨0⟩, descriptor := .ofRun ⟨1⟩ (.ofNat 12), opens := 0, removed := true }

/-- On a disk of two sectors a file takes both and is given up.  Two empty files are stored there
then, and the inode of the first file is still around. -/
theorem Inode.exists_late : ∃ volume,
    Reaches (RamDisk.storage 2).toStorage (fun _ _ => True) (.mount { sectors := 2 } (.empty 2)) 6
      [{ sector := ⟨1⟩, start := ⟨0⟩, contents := [] },
        { sector := ⟨0⟩, start := ⟨0⟩, contents := [] }] volume ∧
    Cache.Coherent (RamDisk.storage 2).toStorage volume.cache ∧
    volume.inode? ⟨1⟩ = some Inode.late := by
  have serves : (RamDisk.storage 2).Serves { sectors := 2 } := rfl
  obtain ⟨stored, reachesStored, isStored⟩ := (Reaches.start : Reaches
    (RamDisk.storage 2).toStorage (fun _ _ => True) (.mount { sectors := 2 } (.empty 2)) 0 [] _).store
    (Volume.shows_mount _ serves _) (by decide) (List.replicate 12 0) ⟨0⟩ ⟨1⟩ (by decide) rfl rfl
    (by decide) (by decide) (by decide) Std.ExtTreeMap.getElem?_empty
  obtain ⟨gone, reachesGone, isGone⟩ := reachesStored.discard isStored (List.mem_singleton_self _)
    (by decide) (Descriptor.decode_encode _) rfl rfl (by decide) (by decide) (by decide) (by decide)
  have isEmpty : gone.Shows (RamDisk.storage 2).toStorage _ (.empty 2) _ := isGone
  obtain ⟨first, reachesFirst, isFirst⟩ := reachesGone.store isEmpty (by decide) [] ⟨0⟩ ⟨0⟩ (by decide)
    rfl rfl (by decide) (by decide) (by decide) rfl
  obtain ⟨second, reachesSecond, isSecond⟩ := reachesFirst.store isFirst (by decide) [] ⟨1⟩ ⟨0⟩
    (by decide) rfl rfl (by decide) (by decide) (by decide) rfl
  refine ⟨second, reachesSecond, isSecond.coherent, ?_⟩
  rw [Volume.inode?, isSecond.files]
  rfl

/-- Twelve bytes at the beginning of the data are the place of a descriptor in the first sector. -/
theorem Descriptor.wordAt_of_spliced {d : Descriptor} {before after : SectorNo → Sector}
    {byte : UInt8} (spliced : d.Spliced 0 (List.replicate 12 byte) before after) :
    decode.wordAt (after d.start) 8 = LittleEndian.word byte byte byte byte := by
  have written (index : Nat) (small : index < 12) : (after d.start).byteAt index = byte := by
    have position : d.positionOf d.start index = index := by
      rw [positionOf, Nat.sub_self, Nat.zero_mul, Nat.zero_add]
    rw [spliced d.start index (Nat.lt_trans small (by decide)), position,
      if_pos ⟨Nat.le_refl _, Nat.zero_le index, by rw [List.length_replicate]; omega⟩,
      List.getD_eq_getElem?_getD, Nat.sub_zero, List.getElem?_replicate, if_pos small,
      Option.getD_some]
  rw [decode.wordAt, written 8 (by decide), written (8 + 1) (by decide),
    written (8 + 2) (by decide), written (8 + 3) (by decide)]

/-- A write through the inode of a file that is gone may replace the descriptor of one that was
stored since: nothing keeps a closed inode from being written through. -/
theorem Volume.late_write :
    (RamDisk.storage 2).Serves { sectors := 2 } ∧ ∃ volume,
      Reaches (RamDisk.storage 2).toStorage (fun _ _ => True)
        (.mount { sectors := 2 } (.empty 2)) 7
        [{ sector := ⟨1⟩, start := ⟨0⟩, contents := [] },
          { sector := ⟨0⟩, start := ⟨0⟩, contents := [] }] volume ∧
      (Descriptor.decode
        (volume.cache.view (RamDisk.storage 2).sector ⟨1⟩)).isValid = false := by
  obtain ⟨between, reachesBetween, coherent, found⟩ := Inode.exists_late
  have writing : Step.Yields (FileCall.writeAt ⟨1⟩ 0 (List.replicate 12 255)).step between
      fun _ after => Inode.late.descriptor.Spliced 0 (List.replicate 12 255)
        (between.cache.view (RamDisk.storage 2).sector)
        (after.cache.view (RamDisk.storage 2).sector) := by
    apply Step.Yields.bind (Volume.writeAt_yields ⟨coherent, rfl, rfl, rfl⟩ found rfl
      (by decide) (by decide) 0 (List.replicate 12 255))
    rintro _ after ⟨-, sectors, spliced, isAfter⟩
    rw [← isAfter.view] at spliced
    exact (Step.ends_pure _).mpr spliced
  obtain ⟨_, volume, -, reaches, spliced⟩ := reachesBetween.next
    (.writeAt ⟨1⟩ 0 (List.replicate 12 255)) ⟨Inode.late, found, trivial⟩ writing
  simp only [Library.after, found, Option.elim_some] at reaches
  refine ⟨rfl, volume, reaches, ?_⟩
  show (Descriptor.decode.wordAt (_ : Sector) 8 == Descriptor.signature) = false
  rw [show (⟨1⟩ : SectorNo) = Inode.late.descriptor.start from rfl,
    Descriptor.wordAt_of_spliced spliced]
  decide

end Residency
