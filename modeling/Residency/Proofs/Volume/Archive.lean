import Residency.Proofs.Volume.Openers

/-!
# Whole files in a volume

* `store_yields`: storing a file puts its descriptor and its bytes into the sectors that the map
  gives out, and changes no other sector;
* `store_refused`: a file for which there is no room leaves no trace but on the account, as the
  sector for its descriptor is given back;
* `load_ends` and `load_again_ends`: loading a file gives its bytes, whether or not it is open, unless
  a sector of the file has no number;
* `Coherent.checkFile_yields`: a sector passes for a file if it holds a descriptor whose data lies
  inside the storage.
-/

namespace Residency

/-- The sectors with the descriptor of a file in `sector` and its bytes from `start` on. -/
def stored (sectors : SectorNo → Sector) (sector start : SectorNo) (data : List UInt8) :
    SectorNo → Sector :=
  fun s =>
    if s = sector then (Descriptor.ofRun start (.ofNat data.length)).encode
    else if start.toNat ≤ s.toNat ∧ s.toNat < start.toNat + sectorsFor data.length then
      .ofBytes (data.drop ((s.toNat - start.toNat) * sectorSize))
    else sectors s

/-- The file at `sector` lies apart from its descriptor. -/
def Apart (sector start : SectorNo) (length : Nat) : Prop :=
  ¬ (start.toNat ≤ sector.toNat ∧ sector.toNat < start.toNat + sectorsFor length)

instance (sector start : SectorNo) (length : Nat) : Decidable (Apart sector start length) :=
  inferInstanceAs (Decidable (¬ _))

/-- A run that is free in a map does not reach a sector that is in use. -/
theorem Apart.of_isFreeRun {map : Bitmap} {sector start : SectorNo} {length : Nat}
    (isFree : map.IsFreeRun start.toNat (sectorsFor length))
    (inUse : map.isUsed sector.toNat = true) : Apart sector start length := by
  intro inRun
  rw [isFree.2 sector.toNat inRun.1 inRun.2] at inUse
  cases inUse

theorem created_self {sectors : SectorNo → Sector} {sector start : SectorNo} {length : Nat}
    (apart : Apart sector start length) :
    created sectors sector start length sector =
      (Descriptor.ofRun start (.ofNat length)).encode := by
  rw [created, zeroed, if_neg apart, Function.update_self]

theorem stored_of_spliced {sectors after : SectorNo → Sector} {sector start : SectorNo}
    {data : List UInt8} {d : Descriptor} (start_eq : d.start = start)
    (apart : Apart sector start data.length)
    (spliced : d.Spliced 0 data (created sectors sector start data.length) after) :
    after = stored sectors sector start data := by
  funext s
  apply Block.ext_byteAt
  intro index bound
  rw [spliced s index bound, start_eq]
  simp only [Descriptor.positionOf, start_eq, created, zeroed, stored]
  by_cases self : s = sector
  · -- the descriptor lies apart, so no byte of the data falls into its sector
    subst self
    rw [if_neg, if_neg apart, Function.update_self, if_pos rfl]
    simp only [Apart, sectorsFor, sectorSize] at *
    omega
  · rw [Function.update_of_ne self, if_neg self]
    by_cases inRun : start.toNat ≤ s.toNat ∧ s.toNat < start.toNat + sectorsFor data.length
    · rw [if_pos inRun, if_pos inRun, Block.byteAt_ofBytes, if_pos bound, Block.byteAt_zero,
        List.getD_eq_getElem?_getD, List.getD_eq_getElem?_getD, List.getElem?_drop]
      split
      next => rfl
      next behind =>
        -- the bytes of the last sector that the file does not need stay zero
        rw [List.getElem?_eq_none, Option.getD_none]
        simp only [sectorSize] at *
        omega
    · rw [if_neg inRun, if_neg inRun, if_neg]
      simp only [sectorsFor, sectorSize] at *
      omega

namespace Volume

variable {δ : Type} [BlockDevice δ] {N : Nat} {storage : Storage δ N} {volume : Volume δ}
  {sectors : SectorNo → Sector} {map : Bitmap} {files : OpenFiles} {sector : SectorNo}

/-! ## Storing -/

section Storing

variable {data : List UInt8}

theorem fill_yields (addressable : N ≤ UInt32.size) (small : data.length ≤ Descriptor.maxLength)
    {start : SectorNo} (inside : sector.toNat < N)
    (run : start.toNat + sectorsFor data.length ≤ N) (apart : Apart sector start data.length)
    (notOpen : files.registry[sector]? = none)
    (isShown : volume.Shows storage (created sectors sector start data.length) map files) :
    Step.Yields (do
        let id ← openFile sector
        let written ← writeAt id 0 data
        close id
        Step.ensure (written == data.length) .shortStore
        return Except.ok sector) volume fun result after =>
      result = (.ok sector : Except NoSpace SectorNo) ∧
        after.Shows storage (stored sectors sector start data) map
          (files.visited sector (.ofRun start (.ofNat data.length))) := by
  apply Step.Yields.bind (openFile_yields isShown inside notOpen)
  intro _ opened ended
  obtain ⟨rfl, isOpened⟩ := ended
  rw [created_self apart, Descriptor.decode_encode] at isOpened
  set d := Descriptor.ofRun start (.ofNat data.length) with d_eq
  have size : d.size = data.length := Descriptor.size_ofRun start small
  have within : d.start.toNat + d.sectors ≤ N := by
    rw [Descriptor.sectors, size]
    exact run
  have found := OpenFiles.get?_opened files sector d
  apply Step.Yields.bind (writeAt_yields isOpened found rfl within addressable 0 data)
  intro _ written ended
  obtain ⟨rfl, sectorsAfter, spliced, isWritten⟩ := ended
  -- the file was made for its data, so all of it is written and the last check passes
  have granted : d.granted 0 data.length = data.length := by
    rw [Descriptor.granted, size, Nat.sub_zero, Nat.min_self]
  rw [granted, List.take_length] at spliced
  apply Step.Yields.bind (close_last_yields isWritten found rfl rfl)
  intro _ after isAfter
  simp only [granted, beq_self_eq_true, Step.ends_bind, Step.ends_ensure, if_true, Step.ends_pure]
  rw [stored_of_spliced rfl apart spliced] at isAfter
  exact ⟨trivial, isAfter⟩

theorem store_yields (isShown : volume.Shows storage sectors map files)
    (addressable : N ≤ UInt32.size) (small : data.length ≤ Descriptor.maxLength)
    {map₁ map₂ : Bitmap} {start : SectorNo} (first : map.allocate 1 = (some sector, map₁))
    (second : map₁.allocate (sectorsFor data.length) = (some start, map₂))
    (inside : sector.toNat < N) (run : start.toNat + sectorsFor data.length ≤ N)
    (apart : Apart sector start data.length) (notOpen : files.registry[sector]? = none) :
    Step.Yields (store data) volume fun result after => result = .ok sector ∧
      after.Shows storage (stored sectors sector start data) map₂
        (files.visited sector (.ofRun start (.ofNat data.length))) := by
  unfold store
  apply Step.Yields.bind (allocate_yields isShown 1)
  intro _ allocated ended
  obtain ⟨rfl, isAllocated⟩ := ended
  rw [first] at isAllocated ⊢
  apply Step.Yields.bind (create_yields isAllocated inside addressable small
    (congrArg Prod.fst second) run)
  intro _ made ended
  obtain ⟨rfl, isCreated⟩ := ended
  rw [second] at isCreated
  exact fill_yields addressable small inside run apart notOpen isCreated

theorem store_refused_of_full (first : volume.map.allocate 1 = (none, volume.map)) :
    Step.Yields (store data) volume fun result after =>
      result = .error .noSpace ∧ ∃ mapCalls, after = { volume with mapCalls } := by
  unfold store
  apply Step.Yields.bind (allocate_leaves 1)
  intro _ allocated ended
  obtain ⟨rfl, mapCalls, rfl⟩ := ended
  rw [first]
  exact (Step.ends_pure _).mpr ⟨rfl, mapCalls, rfl⟩

/-- There is a sector for the descriptor but no room for the data: the one sector that was taken is
given back, which leaves the map as it was. -/
theorem store_refused
    (first : volume.map.allocate 1 = (some sector, volume.map.flipRange sector.toNat 1))
    (isFree : volume.map.IsFreeRun sector.toNat 1)
    (noRoom : Descriptor.maxLength < data.length ∨
      (volume.map.flipRange sector.toNat 1).allocate (sectorsFor data.length) =
        (none, volume.map.flipRange sector.toNat 1)) :
    Step.Yields (store data) volume fun result after =>
      result = .error .noSpace ∧ ∃ mapCalls, after = { volume with mapCalls } := by
  have fits : sector.toNat + 1 < wordLimit :=
    Nat.lt_of_le_of_lt (Nat.succ_le_of_lt sector.toNat_lt) (by decide)
  have taken (t : Nat) (low : sector.toNat ≤ t) (high : t < sector.toNat + 1) :
      (volume.map.flipRange sector.toNat 1).isUsed t = true := by
    rw [Bitmap.isUsed_flipRange isFree.1, if_pos ⟨low, high⟩, isFree.2 t low high]
    rfl
  unfold store
  apply Step.Yields.bind (allocate_leaves 1)
  intro _ allocated ended
  obtain ⟨rfl, mapCalls, rfl⟩ := ended
  rw [first]
  apply Step.Yields.bind (create_refused noRoom)
  intro _ refused ended
  obtain ⟨rfl, mapCalls, rfl⟩ := ended
  apply Step.Yields.bind (release_leaves (by simpa using isFree.1) fits taken)
  intro _ after ended
  obtain ⟨mapCalls, rfl⟩ := ended
  rw [Bitmap.flipRange_flipRange isFree.1]
  exact (Step.ends_pure _).mpr ⟨rfl, mapCalls, rfl⟩

theorem Shows.withCalls (isShown : volume.Shows storage sectors map files)
    (mapCalls : List MapCall) :
    ({ volume with mapCalls } : Volume δ).Shows storage sectors map files :=
  ⟨isShown.coherent, isShown.view, isShown.map, isShown.files⟩

end Storing

/-! ## Loading -/

section Loading

variable {d : Descriptor}

/-- What loading does behind opening: the file is read under its inode, and closed.  If a sector of
the file has no number, reading stops, and the file is not closed. -/
theorem loadOpened_ends (isShown : volume.Shows storage sectors map files) {id : InodeId}
    {inode : Inode} (found : files.get? id = some inode) (descriptor : inode.descriptor = d)
    (within : d.start.toNat + d.sectors ≤ N) {filesAfter : OpenFiles}
    (closes : ∀ between : Volume δ, between.Shows storage sectors map files →
      Step.Yields (close id) between fun _ after =>
        after.Shows storage sectors map filesAfter) :
    Step.Ends (do
        let inode ← onInode id get
        let data ← onCache (Cache.readFile inode.descriptor 0 inode.descriptor.size)
        close id
        return data) volume
      (fun bytes after => d.Numbered ∧ bytes = (List.range d.size).map (d.byteOf sectors) ∧
        after.Shows storage sectors map filesAfter)
      fun fault after => ¬ d.Numbered ∧ fault = .overflow ∧
        after.Shows storage sectors map files := by
  subst descriptor
  -- where a sector has no number, what is left of it is that of some other sector of the device
  have readable (position : Nat) (before : position < inode.descriptor.size) :
      storage.medium.Reads (inode.descriptor.sectorAt position) False :=
    storage.reads (Descriptor.toNat_sectorAt_lt within before)
  apply Step.Yields.bind (getInode_yields isShown found)
  intro _ looked ended
  obtain ⟨rfl, isLooked⟩ := ended
  have consistent := Cache.coherent_iff.mp isLooked.coherent
  simp only [onCache, Step.ends_bind, Step.ends_on]
  apply (consistent.readFile_ends 0 _ (Descriptor.reads_of_size readable)).imp
  · intro bytes cache ended
    obtain ⟨bytes_eq, consistent, view, reaches⟩ := ended
    simp only [Descriptor.granted, Nat.sub_zero, Nat.min_self, Nat.zero_add] at bytes_eq
    rw [show looked.cache.view storage.medium.sector = sectors from isLooked.view] at bytes_eq
    apply Step.Yields.imp
      (closes _ (isLooked.withSameView (Cache.coherent_iff.mpr consistent) view))
    intro _ after isAfter
    exact (Step.ends_pure _).mpr ⟨reaches.numbered, bytes_eq, isAfter⟩
  · intro fault cache ended
    obtain ⟨consistent, view, served, stops⟩ := ended
    obtain ⟨overflow, without⟩ := stops.overflows readable
    exact ⟨without, overflow, isLooked.withSameView (Cache.coherent_iff.mpr consistent) view⟩

theorem load_ends (isShown : volume.Shows storage sectors map files) (inside : sector.toNat < N)
    (notOpen : files.registry[sector]? = none) (holds : d = .decode (sectors sector))
    (within : d.start.toNat + d.sectors ≤ N) :
    Step.Ends (load sector) volume
      (fun bytes after => d.Numbered ∧ bytes = (List.range d.size).map (d.byteOf sectors) ∧
        after.Shows storage sectors map (files.visited sector d))
      fun fault after => ¬ d.Numbered ∧ fault = .overflow ∧
        after.Shows storage sectors map (files.opened sector d) := by
  unfold load
  apply Step.Yields.bind (openFile_yields isShown inside notOpen)
  intro _ opened ended
  obtain ⟨rfl, isOpened⟩ := ended
  rw [← holds] at isOpened
  have found := OpenFiles.get?_opened files sector d
  exact loadOpened_ends isOpened found rfl within fun _ isBetween =>
    close_last_yields isBetween found rfl rfl

/-- Loading a file that is open leaves the table of open files as it was, unless it stops. -/
theorem load_again_ends (isShown : volume.Shows storage sectors map files) {id : InodeId}
    {inode : Inode} (listed : files.registry[sector]? = some id)
    (found : files.get? id = some inode) (isOpen : 0 < inode.opens)
    (fits : inode.opens + 1 < wordLimit) (descriptor : inode.descriptor = d)
    (within : d.start.toNat + d.sectors ≤ N) :
    Step.Ends (load sector) volume
      (fun bytes after => d.Numbered ∧ bytes = (List.range d.size).map (d.byteOf sectors) ∧
        after.Shows storage sectors map files)
      fun fault after => ¬ d.Numbered ∧ fault = .overflow ∧
        after.Shows storage sectors map
          (files.set id { inode with opens := inode.opens + 1 }) := by
  unfold load
  apply Step.Yields.bind (openFile_again_yields isShown listed found fits)
  intro _ opened ended
  obtain ⟨result_eq, isOpened⟩ := ended
  rw [result_eq]
  have foundAgain := OpenFiles.get?_set found { inode with opens := inode.opens + 1 } id
  rw [if_pos rfl] at foundAgain
  apply loadOpened_ends isOpened foundAgain descriptor within
  intro between isBetween
  -- the opener that came for loading goes again
  have closes := close_early_yields isBetween foundAgain (Nat.lt_add_of_pos_left isOpen)
  rw [OpenFiles.set_set, Nat.add_sub_cancel, OpenFiles.set_self found] at closes
  exact closes

/-! On a device whose sectors all have numbers, loading does not stop. -/

section Addressable

variable (isShown : volume.Shows storage sectors map files) (addressable : N ≤ UInt32.size)
include isShown addressable

theorem load_yields (inside : sector.toNat < N) (notOpen : files.registry[sector]? = none)
    (holds : d = .decode (sectors sector)) (within : d.start.toNat + d.sectors ≤ N) :
    Step.Yields (load sector) volume fun bytes after =>
      bytes = (List.range d.size).map (d.byteOf sectors) ∧
        after.Shows storage sectors map (files.visited sector d) :=
  (load_ends isShown inside notOpen holds within).imp (fun _ _ => And.right)
    fun _ _ stopped => stopped.1 (Nat.le_trans within addressable)

theorem load_again_yields {id : InodeId} {inode : Inode}
    (listed : files.registry[sector]? = some id) (found : files.get? id = some inode)
    (isOpen : 0 < inode.opens) (fits : inode.opens + 1 < wordLimit)
    (descriptor : inode.descriptor = d) (within : d.start.toNat + d.sectors ≤ N) :
    Step.Yields (load sector) volume fun bytes after =>
      bytes = (List.range d.size).map (d.byteOf sectors) ∧
        after.Shows storage sectors map files :=
  (load_again_ends isShown listed found isOpen fits descriptor within).imp (fun _ _ => And.right)
    fun _ _ stopped => stopped.1 (Nat.le_trans within addressable)

end Addressable

end Loading

end Volume

/-! ## Checking -/

/-- What is wrong with a descriptor that is found in a sector of an image, if anything. -/
def Descriptor.verdict (d : Descriptor) (sector : SectorNo) (sectors : Nat) : Except Defect Unit :=
  if d.isValid = false then .error (.noDescriptor sector)
  else if sectors < d.start.toNat + d.sectors then
    .error (.dataBeyondImage sector (d.start.toNat + d.sectors))
  else .ok ()

theorem Descriptor.verdict_eq_ok_iff {d : Descriptor} {sector : SectorNo} {N : Nat} :
    d.verdict sector N = .ok () ↔ d.isValid = true ∧ d.start.toNat + d.sectors ≤ N := by
  unfold verdict
  split
  next invalid => simp [invalid]
  next valid =>
    split
    next beyond =>
      simp only [reduceCtorEq, false_iff, not_and]
      omega
    next within =>
      rw [Bool.not_eq_false] at valid
      simp [valid, Nat.not_lt.mp within]

namespace Cache.Coherent

variable {δ : Type} [BlockDevice δ] {N : Nat} {storage : Storage δ N} {cache : Cache δ}
  {sector : SectorNo}

theorem checkFile_beyond (outside : N ≤ sector.toNat) :
    Step.Yields (checkFile sector N) cache fun result after =>
      result = .error (.beyondImage sector N) ∧ after = cache := by
  rw [checkFile, if_pos outside]
  exact (Step.ends_pure _).mpr ⟨rfl, rfl⟩

theorem checkFile_yields (coherent : Coherent storage cache) (inside : sector.toNat < N) :
    Step.Yields (checkFile sector N) cache fun result after =>
      result = (Descriptor.decode (cache.view storage.sector sector)).verdict sector N ∧
        Coherent storage after ∧ after.view storage.sector = cache.view storage.sector := by
  unfold checkFile
  rw [if_neg (Nat.not_le.mpr inside)]
  apply Step.Yields.bind (coherent.readDescriptor_yields inside)
  intro d after ended
  obtain ⟨d_eq, coherentAfter, view⟩ := ended
  rw [← d_eq, Descriptor.verdict]
  cases d.isValid with
  | false => exact (Step.ends_pure _).mpr ⟨rfl, coherentAfter, view⟩
  | true =>
    -- a number of 32 bits and at most `2 ^ 22` sectors do not overflow a machine word
    have small : d.start.toNat + d.sectors < wordLimit :=
      Nat.lt_of_lt_of_le (Nat.add_lt_add_of_lt_of_le d.start.toNat_lt d.sectors_le) (by decide)
    simp only [Step.ends_bind, Step.ends_addSizes, if_pos small, Bool.not_true,
      Bool.false_eq_true, Bool.true_eq_false, if_false]
    by_cases beyond : N < d.start.toNat + d.sectors
    · rw [if_pos beyond, if_pos beyond]
      exact (Step.ends_pure _).mpr ⟨rfl, coherentAfter, view⟩
    · rw [if_neg beyond, if_neg beyond]
      exact (Step.ends_pure _).mpr ⟨rfl, coherentAfter, view⟩

end Cache.Coherent

end Residency
