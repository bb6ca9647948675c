import Mathlib.Logic.Function.Basic
import Residency.Device.FileDisk
import Residency.Device.RamDisk
import Residency.Proofs.HostFile
import Residency.Proofs.Step

/-!
# Devices as memories

A `Storage δ N` says how a device can be relied on as a memory of `N` sectors: in the states in
which it serves, each transfer of a sector below `N` succeeds and does what it is asked for.  A
`BoundedStorage` moreover refuses to read other sectors, and a refusal leaves no trace.

A `Medium δ` is what a cache needs of a device whose reading may fail at times.  The sectors that it
gives need not be those below some number; for a storage they are (`Storage.medium`).

Disks in memory are bounded; a disk on a file is a memory of the sectors that the file has in full,
and keeps what the file has beyond them.  A device with an account of its transfers serves as the
device does (`Medium.traced`).
-/

namespace Residency

structure Storage (δ : Type) [BlockDevice δ] (N : Nat) where
  /-- The states of the device that can be relied on. -/
  Serves : δ → Prop
  sector : δ → SectorNo → Sector
  readBlock_yields : ∀ {device : δ} (buffer : Sector) {s : SectorNo}, Serves device → s.toNat < N →
    Step.Yields (readBlock s) (buffer, device) fun _ after =>
      after.1 = sector device s ∧ Serves after.2 ∧ sector after.2 = sector device
  writeBlock_yields : ∀ {device : δ} {s : SectorNo} (data : Sector), Serves device → s.toNat < N →
    Step.Yields (writeBlock s data) device fun _ after =>
      Serves after ∧ sector after = Function.update (sector device) s data

/-- How a device serves as a memory of `N` sectors and of no others: reading beyond them fails and
changes nothing. -/
structure BoundedStorage (δ : Type) [BlockDevice δ] (N : Nat) extends Storage δ N where
  readBlock_refuses : ∀ {device : δ} (buffer : Sector) {s : SectorNo}, Serves device →
    N ≤ s.toNat → Step.Ends (readBlock s) (buffer, device) (fun _ _ => False) fun _ after =>
      after.1 = buffer ∧ Serves after.2 ∧ sector after.2 = sector device

/-! ## Devices whose reading may fail -/

/-- What a cache relies on: in the states in which the device serves, writing a sector that it has
succeeds.  Of reading, `Medium.Reads` speaks sector by sector. -/
structure Medium (δ : Type) [BlockDevice δ] where
  Serves : δ → Prop
  sector : δ → SectorNo → Sector
  /-- The sectors that reading may give. -/
  Has : SectorNo → Prop
  writeBlock_yields : ∀ {device : δ} {s : SectorNo} (data : Sector), Serves device → Has s →
    Step.Yields (writeBlock s data) device fun _ after =>
      Serves after ∧ sector after = Function.update (sector device) s data

section Media

variable {δ : Type} [BlockDevice δ] {N : Nat} {s : SectorNo}

/-- Reading a sector gives it, if the device has it, or fails and leaves everything as it was. -/
def Medium.Reads (medium : Medium δ) (s : SectorNo) (mayFail : Prop) : Prop :=
  ∀ ⦃device : δ⦄ (buffer : Sector), medium.Serves device →
    Step.Ends (readBlock s) (buffer, device)
      (fun _ after => medium.Has s ∧ after.1 = medium.sector device s ∧
        medium.Serves after.2 ∧ medium.sector after.2 = medium.sector device)
      fun _ after => mayFail ∧ after.1 = buffer ∧
        medium.Serves after.2 ∧ medium.sector after.2 = medium.sector device

theorem Medium.Reads.mono {medium : Medium δ} {mayFail mayFail' : Prop}
    (reads : medium.Reads s mayFail) (weaker : mayFail → mayFail') : medium.Reads s mayFail' :=
  fun _ buffer serves => (reads buffer serves).imp (fun _ _ => id) fun _ _ => And.imp_left weaker

/-- Reading fails only where it does not give the sector every time. -/
theorem Medium.Reads.sharp {medium : Medium δ} {mayFail : Prop} (reads : medium.Reads s mayFail) :
    medium.Reads s (¬ medium.Reads s False) := by
  by_cases always : medium.Reads s False
  · exact always.mono False.elim
  · exact reads.mono fun _ => always

/-- In a state in which it serves, the device has been asked for the sector, and failed with the
fault; since then its state is `after`. -/
def Medium.Refuses (medium : Medium δ) (s : SectorNo) (fault : Fault) (after : δ) : Prop :=
  ∃ (buffer : Sector) (device : δ) (data : Sector), medium.Serves device ∧
    (readBlock s).run (buffer, device) = .error fault (data, after)

theorem Medium.Refuses.mayFail {medium : Medium δ} {fault : Fault} {after : δ} {mayFail : Prop}
    (refuses : medium.Refuses s fault after) (reads : medium.Reads s mayFail) : mayFail := by
  obtain ⟨buffer, device, data, serves, run⟩ := refuses
  exact ((reads buffer serves).stopped_of_run run).1

def Storage.medium (storage : Storage δ N) : Medium δ where
  Serves := storage.Serves
  sector := storage.sector
  Has s := s.toNat < N
  writeBlock_yields data serves inside := storage.writeBlock_yields data serves inside

theorem Storage.reads (storage : Storage δ N) (inside : s.toNat < N) :
    storage.medium.Reads s False :=
  fun _ buffer serves =>
    Step.Yields.imp (storage.readBlock_yields buffer serves inside) fun _ _ => And.intro inside

theorem BoundedStorage.reads (storage : BoundedStorage δ N) (s : SectorNo) :
    storage.medium.Reads s (N ≤ s.toNat) := by
  rcases Nat.lt_or_ge s.toNat N with inside | outside
  · exact (storage.toStorage.reads inside).mono False.elim
  · intro device buffer serves
    apply (storage.readBlock_refuses buffer serves outside).imp
    · exact fun _ _ impossible => impossible.elim
    · exact fun _ _ => And.intro outside

end Media

/-! ## Disks in memory -/

namespace RamDisk

theorem sector_insert (disk : RamDisk) (s : SectorNo) (data : Sector) :
    sector { disk with contents := disk.contents.insert s data } =
      Function.update disk.sector s data := by
  funext other
  rw [Function.update_apply]
  exact getD_insert_eq disk.contents s other data

def storage (N : Nat) : BoundedStorage RamDisk N where
  Serves disk := disk.sectors = N
  sector := sector
  readBlock_yields {disk} buffer s serves inside := by
    simp [readBlock, serves, inside]
  writeBlock_yields {disk} s data serves inside := by
    simp [writeBlock, serves, inside, sector_insert]
  readBlock_refuses {disk} buffer s serves outside := by
    simpa [readBlock, serves] using outside

/-- The fault names the sector that was to be read. -/
theorem fault_of_refuses {N : Nat} {s : SectorNo} {fault : Fault} {after : RamDisk}
    (refuses : (storage N).medium.Refuses s fault after) : fault = .unreadableSector s := by
  obtain ⟨buffer, disk, data, -, run⟩ := refuses
  have ends : Step.Ends (readBlock s) (buffer, disk) (fun _ _ => True)
      fun fault _ => fault = .unreadableSector s := by
    simp [readBlock]
  exact ends.stopped_of_run run

end RamDisk

/-! ## Disks on a file -/

namespace FileDisk

/-- A disk in service on a file that started as `base` and kept its size and what it has behind the
first `N` sectors. -/
structure Serves (base : HostFile) (N : Nat) (disk : FileDisk) : Prop where
  working : disk.poisoned = false
  size : disk.file.size = base.size
  rest : ∀ index, N ≤ index → disk.file.piece index = base.piece index

def kept (disk : FileDisk) (s : SectorNo) : Sector :=
  disk.file.kept s.toNat

section Transfers

variable {base : HostFile} {N : Nat} {disk : FileDisk} {s : SectorNo}

theorem Serves.whole (serves : Serves base N disk) (fits : N * sectorSize ≤ base.size)
    (inside : s.toNat < N) : (s.toNat + 1) * sectorSize ≤ disk.file.size := by
  rw [serves.size]
  exact Nat.le_trans (Nat.mul_le_mul_right _ inside) fits

theorem readBlock_yields (fits : N * sectorSize ≤ base.size) (buffer : Sector)
    (serves : Serves base N disk) (inside : s.toNat < N) :
    Step.Yields (readBlock s) (buffer, disk) fun _ after =>
      after.1 = disk.kept s ∧ Serves base N after.2 ∧ after.2.kept = disk.kept := by
  have found : disk.sector s = (disk.kept s).bytes := HostFile.piece_of_le (serves.whole fits inside)
  have length := (disk.kept s).length_bytes
  simp only [readBlock, Step.ends_bind, Step.ends_get, Step.ends_ensure, Step.ends_set,
    serves.working, found, length, Block.overwrite_zero_bytes, beq_self_eq_true, Bool.not_false,
    Bool.not_true, if_true]
  exact ⟨trivial, ⟨rfl, serves.size, serves.rest⟩, rfl⟩

theorem writeBlock_yields (fits : N * sectorSize ≤ base.size) (data : Sector)
    (serves : Serves base N disk) (inside : s.toNat < N) :
    Step.Yields (writeBlock s data) disk fun _ after =>
      Serves base N after ∧ after.kept = Function.update disk.kept s data := by
  have whole := serves.whole fits inside
  simp only [writeBlock, Step.ends_bind, Step.ends_get, Step.ends_ensure, Step.ends_modify,
    serves.working, Bool.not_false, if_true]
  refine ⟨⟨rfl, (HostFile.size_writeSector data whole).trans serves.size, ?_⟩, ?_⟩
  · intro index beyond
    rw [HostFile.piece_writeSector_of_ne data whole (by omega), serves.rest index beyond]
  · -- a file is indexed by numbers, a storage by sector numbers
    funext other
    rw [kept, HostFile.kept_writeSector, Function.update_apply]
    simp only [SectorNo.toNat_inj, kept]

end Transfers

/-- A disk on a file that started as `base`, of which `N` sectors are used. -/
def storage (base : HostFile) (N : Nat) (fits : N * sectorSize ≤ base.size) :
    Storage FileDisk N where
  Serves := Serves base N
  sector := kept
  readBlock_yields := @fun _ buffer _ => readBlock_yields fits buffer
  writeBlock_yields := @fun _ _ data => writeBlock_yields fits data

/-- The file of such a disk: its first sectors are those of the storage. -/
theorem bytes_of_serves {base : HostFile} {N : Nat} {fits : N * sectorSize ≤ base.size}
    (addressable : N ≤ UInt32.size) {disk : FileDisk}
    (serves : (storage base N fits).Serves disk) :
    disk.file.bytes =
      sectorBytes (fun index => (storage base N fits).sector disk (.ofNat index)) N ++
        base.bytes.drop (N * sectorSize) := by
  rw [HostFile.bytes_eq_append (by rw [serves.size]; exact fits), HostFile.bytes_eq_append fits,
    serves.size, List.drop_left' (length_sectorBytes N)]
  congr 1
  · apply sectorBytes_congr
    intro index inside
    show _ = disk.file.kept (SectorNo.ofNat index).toNat
    rw [SectorNo.toNat_ofNat (Nat.lt_of_lt_of_le inside addressable)]
  · rw [List.flatMap_def, List.flatMap_def]
    congr 1
    apply List.map_congr_left
    intro index _
    exact serves.rest _ (Nat.le_add_right ..)

end FileDisk

/-! ## Devices with an account of their transfers -/

namespace Medium

variable {δ : Type} [BlockDevice δ]

def traced (medium : Medium δ) : Medium (Traced δ) where
  Serves traced := medium.Serves traced.device
  sector traced := medium.sector traced.device
  Has := medium.Has
  writeBlock_yields {traced} s data serves has := by
    simp only [writeBlock, Step.ends_bind, Step.ends_modify, Step.ends_on]
    exact Step.Yields.imp (medium.writeBlock_yields data serves has) fun _ _ => id

theorem Reads.traced {medium : Medium δ} {s : SectorNo} {mayFail : Prop}
    (reads : medium.Reads s mayFail) : medium.traced.Reads s mayFail := by
  intro watched buffer serves
  simp only [readBlock, Step.ends_bind, Step.ends_modify, Step.ends_on]
  exact Step.Ends.imp (reads buffer serves) (fun _ _ => id) fun _ _ => id

end Medium

/-! ## Devices that are watched -/

/-- A device with an account of the sectors that were to be written, the latest first, and of
whether they were. -/
structure Watched (δ : Type) where
  device : δ
  writes : List (SectorNo × Bool) := []

instance {δ : Type} [BlockDevice δ] : BlockDevice (Watched δ) where
  readBlock s :=
    Step.on (fun (buffer, watched) => (buffer, watched.device))
      (fun (buffer, device) (_, watched) => (buffer, { watched with device })) (readBlock s)
  writeBlock s data := fun watched =>
    match (writeBlock s data).run watched.device with
    | .ok () device => .ok () { device, writes := (s, true) :: watched.writes }
    | .error fault device => .error fault { device, writes := (s, false) :: watched.writes }

namespace BoundedStorage

variable {δ : Type} [BlockDevice δ] {N : Nat}

/-- A device that is watched serves for as long as nothing was written but sectors below `N`. -/
def watched (storage : BoundedStorage δ N) : BoundedStorage (Watched δ) N where
  Serves watched := storage.Serves watched.device ∧
    ∀ entry ∈ watched.writes, entry.1.toNat < N ∧ entry.2 = true
  sector watched := storage.sector watched.device
  readBlock_yields := by
    rintro watched buffer s ⟨serves, writes⟩ inside
    simp only [readBlock, Step.ends_on]
    apply Step.Yields.imp (storage.readBlock_yields buffer serves inside)
    intro _ after ended
    obtain ⟨_, device⟩ := after
    obtain ⟨data, serves, unchanged⟩ := ended
    exact ⟨data, ⟨serves, writes⟩, unchanged⟩
  writeBlock_yields := by
    rintro watched s data ⟨serves, writes⟩ inside
    -- the account is not a part that `Step.on` could replace, so this step is run
    obtain ⟨⟨⟩, device, run, serves, written⟩ :=
      (storage.writeBlock_yields data serves inside).run
    have recorded : (writeBlock s data).run watched =
        .ok () ({ device, writes := (s, true) :: watched.writes } : Watched δ) := by
      simp only [EStateM.run] at run
      simp only [EStateM.run, writeBlock, run]
    exact Step.Ends.of_run recorded ⟨⟨serves, List.forall_mem_cons.mpr ⟨⟨inside, rfl⟩, writes⟩⟩, written⟩
  readBlock_refuses := by
    rintro watched buffer s ⟨serves, writes⟩ outside
    simp only [readBlock, Step.ends_on]
    apply Step.Ends.imp (storage.readBlock_refuses buffer serves outside)
    · exact fun _ _ impossible => impossible
    · intro _ after ended
      obtain ⟨_, device⟩ := after
      obtain ⟨unfilled, serves, unchanged⟩ := ended
      exact ⟨unfilled, ⟨serves, writes⟩, unchanged⟩

end BoundedStorage

end Residency
