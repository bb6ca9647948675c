import Residency.Proofs.Bitmap
import Residency.Proofs.Contents
import Residency.Volume.Archive

/-!
# The files of a volume

What the operations of a `Volume` do to what the volume `Shows`: its sectors in the view of a
coherent cache, the map of its free sectors and its open files.

* `create_yields` and `create_refused`: making a file writes its descriptor and zeros its data
  sectors; if there is no room, nothing happens but on the account;
* `openFile_yields`: a file that nobody has open gets an inode;
* `readAt_yields` and `writeAt_yields`: reading an open file gives its bytes, and writing to it
  replaces them;
* `flush_yields`: flushing puts all of it on the device.
-/

namespace Residency

namespace OpenFiles

theorem set_self {files : OpenFiles} {id : InodeId} {inode : Inode}
    (found : files.get? id = some inode) : files.set id inode = files := by
  obtain ⟨inside, rfl⟩ := Array.getElem?_eq_some_iff.mp found
  obtain ⟨inodes, registry⟩ := files
  simp only [set, mk.injEq, and_true]
  rw [Array.setIfInBounds, dif_pos inside, Array.set_getElem_self]

theorem ends_onInode {α : Type} {files : OpenFiles} {id : InodeId} {inode : Inode}
    (found : files.get? id = some inode) (step : Step Inode α) {done : α → OpenFiles → Prop}
    {stopped : Fault → OpenFiles → Prop} :
    Step.Ends (onInode id step) files done stopped ↔
      Step.Ends step inode (fun a after => done a (files.set id after))
        fun fault after => stopped fault (files.set id after) := by
  simp only [onInode, Step.ends_bind, Step.ends_getThe, found, Step.ends_getOrFault_some,
    Step.ends_on]

/-- The table after a file that nobody had open was opened. -/
def opened (files : OpenFiles) (sector : SectorNo) (descriptor : Descriptor) : OpenFiles where
  inodes := files.inodes.push { sector, descriptor }
  registry := files.registry.insert sector ⟨files.inodes.size⟩

theorem get?_opened (files : OpenFiles) (sector : SectorNo) (descriptor : Descriptor) :
    (files.opened sector descriptor).get? ⟨files.inodes.size⟩ = some { sector, descriptor } :=
  Array.getElem?_push_size

/-- The table after the last opener of a file closed it. -/
def closed (files : OpenFiles) (id : InodeId) (inode : Inode) : OpenFiles :=
  (files.set id { inode with opens := 0 }).unregister inode.sector

/-- The table after a file that nobody had open was opened and closed again. -/
def visited (files : OpenFiles) (sector : SectorNo) (descriptor : Descriptor) : OpenFiles :=
  (files.opened sector descriptor).closed ⟨files.inodes.size⟩ { sector, descriptor }

/-- A file that was opened and closed again is as if it had not been open. -/
theorem registry_visited {files : OpenFiles} {sector : SectorNo}
    (notOpen : files.registry[sector]? = none) (descriptor : Descriptor) :
    (files.visited sector descriptor).registry = files.registry := by
  -- only the entry of this sector was touched, and there was none at first
  apply Std.ExtTreeMap.ext_getElem?
  intro other
  simp only [visited, closed, opened, set, unregister, Std.ExtTreeMap.getElem?_erase,
    Std.ExtTreeMap.getElem?_insert]
  split
  next same => rw [← Std.LawfulEqOrd.eq_of_compare same, notOpen]
  next => rfl

end OpenFiles

/-- The sectors with `count` of them from `first` on replaced by zeros. -/
def zeroed (sectors : SectorNo → Sector) (first count : Nat) : SectorNo → Sector :=
  fun s => if first ≤ s.toNat ∧ s.toNat < first + count then .zero else sectors s

theorem zeroed_zero (sectors : SectorNo → Sector) (first : Nat) : zeroed sectors first 0 = sectors := by
  funext s
  exact if_neg (by omega)

theorem zeroed_succ {sectors : SectorNo → Sector} {first count : Nat}
    (numbered : first + count < UInt32.size) :
    zeroed sectors first (count + 1) =
      Function.update (zeroed sectors first count) (.ofNat (first + count)) .zero := by
  funext s
  rw [Function.update_apply]
  by_cases last : s = .ofNat (first + count)
  · have number : s.toNat = first + count := by rw [last, SectorNo.toNat_ofNat numbered]
    rw [if_pos last]
    exact if_pos (by omega)
  · have number : s.toNat ≠ first + count := by
      intro equal
      rw [← equal, SectorNo.ofNat_toNat] at last
      exact last rfl
    rw [if_neg last]
    simp only [zeroed]
    congr 1
    simp only [eq_iff_iff]
    omega

/-- The sectors with a new file of zeros in them. -/
def created (sectors : SectorNo → Sector) (sector start : SectorNo) (length : Nat) :
    SectorNo → Sector :=
  zeroed (Function.update sectors sector (Descriptor.ofRun start (.ofNat length)).encode)
    start.toNat (sectorsFor length)

namespace Volume

variable {δ : Type} [BlockDevice δ] {N : Nat}

/-- A volume with a coherent cache, up to what is cached and to the accounts. -/
structure Shows (storage : Storage δ N) (volume : Volume δ) (sectors : SectorNo → Sector)
    (map : Bitmap) (files : OpenFiles) : Prop where
  coherent : Cache.Coherent storage volume.cache
  view : volume.cache.view storage.sector = sectors
  map : volume.map = map
  files : volume.files = files

variable {storage : Storage δ N} {volume : Volume δ} {sectors : SectorNo → Sector}
  {map : Bitmap} {files : OpenFiles} {sector : SectorNo}

theorem Shows.withCache (isShown : volume.Shows storage sectors map files) {cache : Cache δ}
    (coherent : Cache.Coherent storage cache) :
    ({ volume with cache } : Volume δ).Shows storage (cache.view storage.sector) map files :=
  ⟨coherent, rfl, isShown.map, isShown.files⟩

theorem Shows.withSameView (isShown : volume.Shows storage sectors map files) {cache : Cache δ}
    (coherent : Cache.Coherent storage cache)
    (view : cache.view storage.sector = volume.cache.view storage.sector) :
    ({ volume with cache } : Volume δ).Shows storage sectors map files := by
  have isAfter := isShown.withCache coherent
  rw [view, isShown.view] at isAfter
  exact isAfter

theorem shows_mount (storage : Storage δ N) {device : δ} (serves : storage.Serves device)
    (map : Bitmap) : (mount device map).Shows storage (storage.sector device) map {} := by
  obtain ⟨coherent, view⟩ := Cache.Coherent.fresh storage serves
  exact ⟨coherent, view, rfl, rfl⟩

/-! ## Free sectors -/

omit [BlockDevice δ] in
/-- What allocating leaves as it is, which is more than what the volume shows. -/
theorem allocate_leaves (count : Nat) :
    Step.Yields (allocate count) volume fun found after =>
      found = (volume.map.allocate count).1 ∧
        ∃ mapCalls, after = { volume with map := (volume.map.allocate count).2, mapCalls } := by
  simp only [allocate, onMap, noteMapCall, Step.ends_bind, Step.ends_on, Step.ends_modifyGet,
    Step.ends_modify, Step.ends_pure]
  exact ⟨trivial, _, rfl⟩

theorem allocate_yields (isShown : volume.Shows storage sectors map files) (count : Nat) :
    Step.Yields (allocate count) volume fun found after =>
      found = (map.allocate count).1 ∧
        after.Shows storage sectors (map.allocate count).2 files := by
  apply Step.Yields.imp (allocate_leaves count)
  intro _ after ended
  obtain ⟨rfl, mapCalls, rfl⟩ := ended
  rw [isShown.map]
  exact ⟨rfl, isShown.coherent, isShown.view, rfl, isShown.files⟩

theorem reserve_yields (isShown : volume.Shows storage sectors map files) {count : Nat}
    (inside : sector.toNat + count ≤ map.capacity) (fits : sector.toNat + count < wordLimit)
    (free : ∀ t, sector.toNat ≤ t → t < sector.toNat + count → map.isUsed t = false) :
    Step.Yields (reserve sector count) volume fun _ after =>
      after.Shows storage sectors (map.flipRange sector.toNat count) files := by
  simp only [reserve, onMap, Step.ends_on, isShown.map]
  apply Step.Yields.imp (Bitmap.reserve_yields fits inside free)
  rintro _ _ rfl
  exact ⟨isShown.coherent, isShown.view, rfl, isShown.files⟩

omit [BlockDevice δ] in
theorem release_leaves {count : Nat} (inside : sector.toNat + count ≤ volume.map.capacity)
    (fits : sector.toNat + count < wordLimit)
    (used : ∀ t, sector.toNat ≤ t → t < sector.toNat + count → volume.map.isUsed t = true) :
    Step.Yields (release sector count) volume fun _ after => ∃ mapCalls,
      after = { volume with map := volume.map.flipRange sector.toNat count, mapCalls } := by
  simp only [release, noteMapCall, onMap, Step.ends_bind, Step.ends_modify, Step.ends_on]
  apply Step.Yields.imp (Bitmap.release_yields fits inside used)
  intro _ _ ended
  exact ⟨_, by rw [ended]⟩

theorem release_yields (isShown : volume.Shows storage sectors map files) {count : Nat}
    (inside : sector.toNat + count ≤ map.capacity) (fits : sector.toNat + count < wordLimit)
    (used : ∀ t, sector.toNat ≤ t → t < sector.toNat + count → map.isUsed t = true) :
    Step.Yields (release sector count) volume fun _ after =>
      after.Shows storage sectors (map.flipRange sector.toNat count) files := by
  rw [← isShown.map] at inside used ⊢
  apply Step.Yields.imp (release_leaves inside fits used)
  intro _ after ended
  obtain ⟨mapCalls, rfl⟩ := ended
  exact ⟨isShown.coherent, isShown.view, rfl, isShown.files⟩

/-! ## Making files -/

theorem writeSector_yields (isShown : volume.Shows storage sectors map files)
    (inside : sector.toNat < N) (data : Sector) :
    Step.Yields (onCache (Cache.write sector 0 data.bytes)) volume fun _ after =>
      after.Shows storage (Function.update sectors sector data) map files := by
  have range : 0 + data.bytes.length ≤ sectorSize := by rw [data.length_bytes, Nat.zero_add]
  simp only [onCache, Step.ends_on]
  apply Step.Yields.imp (isShown.coherent.write_yields inside range)
  intro _ cache ended
  obtain ⟨coherent, view⟩ := ended
  rw [Block.overwrite_zero_bytes, isShown.view] at view
  rw [← view]
  exact isShown.withCache coherent

theorem zeroFill_yields (isShown : volume.Shows storage sectors map files) {count : Nat}
    (inside : sector.toNat + count ≤ N) (addressable : N ≤ UInt32.size) :
    Step.Yields (zeroFill sector count) volume fun _ after =>
      after.Shows storage (zeroed sectors sector.toNat count) map files := by
  induction count with
  | zero =>
    rw [zeroed_zero]
    exact (Step.ends_pure _).mpr isShown
  | succ count inductionHypothesis =>
    -- the loop goes upwards, so it is the last sector that is split off
    have numbered : sector.toNat + count < UInt32.size := by omega
    rw [zeroFill, List.range_succ, List.forM_eq_forM, List.forM_append, zeroed_succ numbered]
    apply Step.Yields.bind (inductionHypothesis (by omega))
    intro _ between isBetween
    have last : (SectorNo.ofNat (sector.toNat + count)).toNat < N := by
      rw [SectorNo.toNat_ofNat numbered]
      omega
    simp only [List.forM_cons, List.forM_nil, Step.ends_bind, SectorNo.advance,
      SectorNo.advance?_of_lt numbered, Step.ends_getOrFault_some, Step.ends_pure]
    exact writeSector_yields isBetween last .zero

theorem create_yields (isShown : volume.Shows storage sectors map files)
    (inside : sector.toNat < N) (addressable : N ≤ UInt32.size) {length : Nat}
    (small : length ≤ Descriptor.maxLength) {start : SectorNo}
    (found : (map.allocate (sectorsFor length)).1 = some start)
    (run : start.toNat + sectorsFor length ≤ N) :
    Step.Yields (create sector length) volume fun result after =>
      result = .ok () ∧ after.Shows storage (created sectors sector start length)
        (map.allocate (sectorsFor length)).2 files := by
  unfold create
  rw [if_neg (Nat.not_lt.mpr small)]
  apply Step.Yields.bind (allocate_yields isShown _)
  intro _ allocated ended
  obtain ⟨rfl, isAllocated⟩ := ended
  rw [found]
  apply Step.Yields.bind (writeSector_yields isAllocated inside _)
  intro _ written isWritten
  apply Step.Yields.bind (zeroFill_yields isWritten run addressable)
  intro _ after isAfter
  exact (Step.ends_pure _).mpr ⟨rfl, isAfter⟩

theorem create_refused {length : Nat} (noRoom : Descriptor.maxLength < length ∨
      volume.map.allocate (sectorsFor length) = (none, volume.map)) :
    Step.Yields (create sector length) volume fun result after =>
      result = .error .noSpace ∧ ∃ mapCalls, after = { volume with mapCalls } := by
  unfold create
  by_cases long : Descriptor.maxLength < length
  · rw [if_pos long]
    exact (Step.ends_pure _).mpr ⟨rfl, _, rfl⟩
  · rw [if_neg long]
    apply Step.Yields.bind (allocate_leaves _)
    intro _ allocated ended
    obtain ⟨rfl, mapCalls, rfl⟩ := ended
    rw [noRoom.resolve_left long]
    exact (Step.ends_pure _).mpr ⟨rfl, mapCalls, rfl⟩

/-! ## Open files -/

variable {id : InodeId} {inode : Inode}

theorem openFile_yields (isShown : volume.Shows storage sectors map files)
    (inside : sector.toNat < N) (notOpen : files.registry[sector]? = none) :
    Step.Yields (openFile sector) volume fun id after => id = ⟨files.inodes.size⟩ ∧
      after.Shows storage sectors map (files.opened sector (.decode (sectors sector))) := by
  simp only [openFile, Step.ends_bind, Step.ends_get, isShown.files, notOpen, onCache, onFiles,
    Step.ends_on]
  apply Step.Yields.imp (isShown.coherent.readDescriptor_yields inside)
  intro _ cache ended
  obtain ⟨rfl, coherent, view⟩ := ended
  have isAfter := isShown.withSameView coherent view
  rw [isShown.view]
  -- a warning is all that a bad descriptor leads to
  by_cases valid : (Descriptor.decode (sectors sector)).isValid = true
  · rw [if_pos valid]
    simp only [Step.ends_on, OpenFiles.add, Step.ends_modifyGet]
    exact ⟨trivial, isAfter.coherent, isAfter.view, isAfter.map, rfl⟩
  · rw [if_neg valid]
    simp only [warn, Step.ends_bind, Step.ends_modify, Step.ends_on, OpenFiles.add,
      Step.ends_modifyGet]
    exact ⟨trivial, isAfter.coherent, isAfter.view, isAfter.map, rfl⟩

theorem onInode_yields {α : Type} {step : Step Inode α} {done : α → Inode → Prop}
    (isShown : volume.Shows storage sectors map files) (found : files.get? id = some inode)
    (yields : Step.Yields step inode done) :
    Step.Yields (onInode id step) volume fun a after =>
      ∃ inodeAfter, done a inodeAfter ∧
        after.Shows storage sectors map (files.set id inodeAfter) := by
  rw [← isShown.files] at found
  simp only [onInode, onFiles, Step.ends_on, OpenFiles.ends_onInode found]
  apply Step.Yields.imp yields
  intro a inodeAfter holds
  exact ⟨inodeAfter, holds, isShown.coherent, isShown.view, isShown.map, by rw [isShown.files]⟩

theorem getInode_yields (isShown : volume.Shows storage sectors map files)
    (found : files.get? id = some inode) :
    Step.Yields (onInode id get) volume fun result after =>
      result = inode ∧ after.Shows storage sectors map files := by
  have yields : Step.Yields get inode fun result after => result = inode ∧ after = inode :=
    Step.ends_get.mpr ⟨rfl, rfl⟩
  apply Step.Yields.imp (onInode_yields isShown found yields)
  intro _ after ended
  obtain ⟨_, ⟨rfl, rfl⟩, isAfter⟩ := ended
  rw [OpenFiles.set_self found] at isAfter
  exact ⟨rfl, isAfter⟩

theorem readAt_yields (isShown : volume.Shows storage sectors map files)
    (found : files.get? id = some inode)
    (within : inode.descriptor.start.toNat + inode.descriptor.sectors ≤ N)
    (addressable : N ≤ UInt32.size) (position : Nat) (buffer : List UInt8) :
    Step.Yields (readAt id position buffer) volume fun result after =>
      (∃ bytes, bytes = (List.range (inode.descriptor.granted position buffer.length)).map
          (fun i => inode.descriptor.byteOf sectors (position + i)) ∧
        result = (bytes.length, bytes ++ buffer.drop bytes.length)) ∧
      after.Shows storage sectors map files := by
  apply Step.Yields.bind (getInode_yields isShown found)
  intro _ looked ended
  obtain ⟨rfl, isLooked⟩ := ended
  simp only [onCache, Step.ends_bind, Step.ends_on, Step.ends_pure]
  apply Step.Yields.imp (isLooked.coherent.readFile_yields within addressable position _)
  intro bytes cache ended
  obtain ⟨bytes_eq, coherent, view⟩ := ended
  rw [isLooked.view] at bytes_eq
  exact ⟨⟨bytes, bytes_eq, rfl⟩, isLooked.withSameView coherent view⟩

theorem writeAt_denied_yields (isShown : volume.Shows storage sectors map files)
    (found : files.get? id = some inode) (denied : 0 < inode.denials) (position : Nat)
    (data : List UInt8) :
    Step.Yields (writeAt id position data) volume fun written after =>
      written = 0 ∧ after.Shows storage sectors map files := by
  apply Step.Yields.bind (getInode_yields isShown found)
  intro _ looked ended
  obtain ⟨rfl, isLooked⟩ := ended
  rw [if_pos denied]
  exact (Step.ends_pure _).mpr ⟨rfl, isLooked⟩

theorem writeAt_yields (isShown : volume.Shows storage sectors map files)
    (found : files.get? id = some inode) (allowed : inode.denials = 0)
    (within : inode.descriptor.start.toNat + inode.descriptor.sectors ≤ N)
    (addressable : N ≤ UInt32.size) (position : Nat) (data : List UInt8) :
    Step.Yields (writeAt id position data) volume fun written after =>
      written = inode.descriptor.granted position data.length ∧
        ∃ sectorsAfter, inode.descriptor.Spliced position
            (data.take (inode.descriptor.granted position data.length)) sectors sectorsAfter ∧
          after.Shows storage sectorsAfter map files := by
  apply Step.Yields.bind (getInode_yields isShown found)
  intro _ looked ended
  obtain ⟨rfl, isLooked⟩ := ended
  -- nobody has forbidden writing, so the request reaches the cache
  rw [allowed, if_neg (Nat.lt_irrefl 0), onCache, Step.ends_on]
  apply Step.Yields.imp (isLooked.coherent.writeFile_yields within addressable position rfl)
  intro _ cache ended
  obtain ⟨rfl, coherent, spliced⟩ := ended
  rw [isLooked.view] at spliced
  exact ⟨rfl, _, spliced, isLooked.withCache coherent⟩

/-- Flushing puts what the volume shows on the device. -/
theorem flush_yields (isShown : volume.Shows storage sectors map files) :
    Step.Yields flush volume fun _ after => after.Shows storage sectors map files ∧
      storage.sector after.cache.device = sectors := by
  simp only [flush, onCache, Step.ends_on]
  apply Step.Yields.imp isShown.coherent.flush_yields
  intro _ cache ended
  obtain ⟨coherent, view, device⟩ := ended
  exact ⟨isShown.withSameView coherent view, device.trans isShown.view⟩

end Volume

end Residency
