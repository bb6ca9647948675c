import Mathlib.Order.Bounds.Defs
import Residency.Proofs.Bitmap.Lending
import Residency.Proofs.Cache.FlatMemory
import Residency.Proofs.Volume.LiveFile

/-!
# New files, whole or not at all

Making a file either takes the sectors that it needs and no others, or fails for lack of space and
leaves everything as it was, on a volume whose cache any run has reached and whose map is any at
all, as long as it has no more sectors than the device.

* `creating_is_all_or_nothing`: a new file of zeros takes the first run that is long enough;
* `storing_is_all_or_nothing`: a file that is stored takes the lowest free sector for its
  descriptor, and then a run of what is left, which need not be the one it would have got before.
-/

namespace Residency

/-! ## Runs that are looked for -/

namespace Bitmap

variable {map : Bitmap} {start count taken : Nat}

theorem isFreeRun_one : map.IsFreeRun start 1 ↔ start < map.capacity ∧ map.isUsed start = false := by
  constructor
  · intro isFree
    exact ⟨isFree.1, isFree.2 start (Nat.le_refl _) (Nat.lt_succ_self _)⟩
  · intro isFree
    refine ⟨isFree.1, fun t low high => ?_⟩
    rw [show t = start by omega]
    exact isFree.2

theorem allocate_eq_none (addressable : map.capacity ≤ UInt32.size)
    (none_free : ∀ start, ¬ map.IsFreeRun start count) : map.allocate count = (none, map) := by
  cases map.allocate_first_run addressable count with
  | inl found =>
    obtain ⟨start, -, isFree, -⟩ := found
    exact absurd isFree (none_free start.toNat)
  | inr notFound => exact notFound.1

/-- The sector that is found for a single one is the lowest that is free. -/
theorem isLeast_of_first (isFree : map.IsFreeRun start 1)
    (first : ∀ earlier < start, ¬ map.IsFreeRun earlier 1) :
    IsLeast { t | t < map.capacity ∧ map.isUsed t = false } start := by
  refine ⟨isFreeRun_one.mp isFree, fun other free => ?_⟩
  by_contra earlier
  exact first other (Nat.not_le.mp earlier) (isFreeRun_one.mpr free)

/-- Behind one free sector that was taken, the runs that do not contain it are still free. -/
theorem isFreeRun_flipRange_one (isFree : map.IsFreeRun taken 1) :
    (map.flipRange taken 1).IsFreeRun start count ↔
      map.IsFreeRun start count ∧ ¬ (start ≤ taken ∧ taken < start + count) := by
  have unused (t : Nat) : (map.flipRange taken 1).isUsed t = false ↔
      t ≠ taken ∧ map.isUsed t = false := by
    rw [← Bool.not_eq_true, isUsed_flipRange_of_free isFree, List.mem_range'_1, not_or,
      Bool.not_eq_true]
    constructor
    · exact fun apart => ⟨by omega, apart.2⟩
    · exact fun apart => ⟨by omega, apart.2⟩
  simp only [IsFreeRun, capacity_flipRange, unused]
  constructor
  · intro rest
    refine ⟨⟨rest.1, fun t low high => (rest.2 t low high).2⟩, fun inRun => ?_⟩
    exact (rest.2 taken inRun.1 inRun.2).1 rfl
  · intro rest
    refine ⟨rest.1.1, fun t low high => ⟨?_, rest.1.2 t low high⟩⟩
    intro same
    exact rest.2 (same ▸ ⟨low, high⟩)

theorem no_run_left_iff
    (lowest : IsLeast { t | t < map.capacity ∧ map.isUsed t = false } taken) :
    (∀ start, ¬ (map.flipRange taken 1).IsFreeRun start count) ↔
      ∃ lowest, IsLeast { t | t < map.capacity ∧ map.isUsed t = false } lowest ∧
        ∀ start, map.IsFreeRun start count → start ≤ lowest ∧ lowest < start + count := by
  simp only [isFreeRun_flipRange_one (isFreeRun_one.mpr lowest.1), not_and_not_right]
  constructor
  · exact fun contained => ⟨taken, lowest, contained⟩
  · intro contained
    obtain ⟨other, isLeast, contained⟩ := contained
    rw [← isLeast.unique lowest]
    exact contained

end Bitmap

/-! ## Files of zeros -/

/-- A new file of zeros is one that zeros were stored in. -/
theorem created_eq_stored {sectors : SectorNo → Sector} {sector start : SectorNo} {length : Nat}
    (apart : Apart sector start length) :
    created sectors sector start length =
      stored sectors sector start (List.replicate length 0) := by
  funext s
  rw [stored, List.length_replicate]
  by_cases self : s = sector
  · rw [if_pos self, self, created_self apart]
  · rw [if_neg self]
    by_cases inRun : start.toNat ≤ s.toNat ∧ s.toNat < start.toNat + sectorsFor length
    · rw [if_pos inRun, created, zeroed, if_pos inRun]
      apply Block.ext_byteAt
      intro index bound
      rw [Block.byteAt_zero, Block.byteAt_ofBytes, if_pos bound, List.getD_eq_getElem?_getD,
        List.drop_replicate, List.getElem?_replicate]
      split <;> rfl
    · rw [if_neg inRun, created, zeroed, if_neg inRun, Function.update_of_ne self]

namespace Volume

variable {δ : Type} [BlockDevice δ] {N : Nat} {storage : Storage δ N} {volume : Volume δ}
  {sector : SectorNo}

theorem shows_of_reachable (reachable : volume.cache.Reachable storage.medium) :
    volume.Shows storage (volume.cache.view storage.sector) volume.map volume.files :=
  ⟨Cache.coherent_iff.mpr reachable.consistent, rfl, rfl, rfl⟩

/-! ## Making files -/

/-- What making a file of zeros does, with its descriptor in `sector` and its data from `start` on.
The data takes the first run that is long enough; an empty one is found at sector zero. -/
structure Creates (storage : Storage δ N) (sector : SectorNo) (length : Nat) (start : SectorNo)
    (before after : Volume δ) : Prop where
  free : before.map.IsFreeRun start.toNat (sectorsFor length)
  first : ∀ earlier < start.toNat, ¬ before.map.IsFreeRun earlier (sectorsFor length)
  empty : length = 0 → start.toNat = 0
  marked : before.map.Lends (List.range' start.toNat (sectorsFor length)) after.map
  descriptor : after.cache.view storage.sector sector =
    (Descriptor.ofRun start (.ofNat length)).encode
  zeros : ∀ s : SectorNo, start.toNat ≤ s.toNat → s.toNat < start.toNat + sectorsFor length →
    after.cache.view storage.sector s = .zero
  others : ∀ s : SectorNo, s ≠ sector →
    ¬ (start.toNat ≤ s.toNat ∧ s.toNat < start.toNat + sectorsFor length) →
    after.cache.view storage.sector s = before.cache.view storage.sector s
  coherent : Cache.Coherent storage after.cache
  files : after.files = before.files

theorem Creates.of_shows {start : SectorNo} {length : Nat} {after : Volume δ}
    (free : volume.map.IsFreeRun start.toNat (sectorsFor length))
    (first : ∀ earlier < start.toNat, ¬ volume.map.IsFreeRun earlier (sectorsFor length))
    (apart : Apart sector start length)
    (isAfter : after.Shows storage
      (created (volume.cache.view storage.sector) sector start length)
      (volume.map.flipRange start.toNat (sectorsFor length)) volume.files) :
    Creates storage sector length start volume after where
  free := free
  first := first
  empty := by
    intro none
    subst none
    -- a run of no sectors is free wherever it starts
    by_contra later
    exact first 0 (Nat.pos_of_ne_zero later) ⟨Nat.zero_le _, fun t _ high => absurd high (Nat.not_lt_zero t)⟩
  marked := by
    have marked := (Bitmap.Lends.nothing volume.map).take free
    rw [List.append_nil] at marked
    exact isAfter.map ▸ marked
  descriptor := by rw [isAfter.view, created_self apart]
  zeros s low high := by rw [isAfter.view, created, zeroed, if_pos ⟨low, high⟩]
  others s other outside := by
    rw [isAfter.view, created, zeroed, if_neg outside, Function.update_of_ne other]
  coherent := isAfter.coherent
  files := isAfter.files

/-- A file of zeros that was just made is read as zeros. -/
theorem openFile_reads_zeros {map : Bitmap} {files : OpenFiles} {start : SectorNo} {length : Nat}
    {sectors : SectorNo → Sector} (addressable : N ≤ UInt32.size)
    (small : length ≤ Descriptor.maxLength) (inside : sector.toNat < N)
    (within : start.toNat + sectorsFor length ≤ N) (apart : Apart sector start length)
    (notOpen : files.registry[sector]? = none)
    (isShown : volume.Shows storage (created sectors sector start length) map files) :
    Step.Yields (openFile sector) volume fun id opened => ∃ inode, opened.inode? id = some inode ∧
      inode.descriptor.size = length ∧
      ∀ (position : Nat) (buffer : List UInt8),
        Step.Yields (readAt id position buffer) opened fun result _ =>
          let n := if position < length then min buffer.length (length - position) else 0
          result = (n, List.replicate n 0 ++ buffer.drop n) := by
  have zeros : (List.replicate length (0 : UInt8)).length = length := List.length_replicate
  have stands : LiveFile.Stands { sector, start, contents := List.replicate length 0 } N
      (created sectors sector start length) := by
    rw [created_eq_stored apart]
    apply LiveFile.stands_stored _ inside _ addressable
    all_goals rw [zeros]
    · exact apart
    · exact small
    · exact within
  apply Step.Yields.imp (openFile_yields isShown inside notOpen)
  intro id opened ended
  obtain ⟨rfl, isOpened⟩ := ended
  rw [stands.described] at isOpened
  have found := OpenFiles.get?_opened files sector
    (LiveFile.descriptor { sector, start, contents := List.replicate length 0 })
  refine ⟨_, (congrArg (OpenFiles.get? · _) isOpened.files).trans found, stands.size.trans zeros, ?_⟩
  intro position buffer
  apply Step.Yields.imp (readAt_yields isOpened found stands.run_within addressable position buffer)
  intro result _ ended n
  obtain ⟨⟨bytes, rfl, rfl⟩, -⟩ := ended
  have share : min buffer.length (length - position) = n := by
    simp only [n]
    split <;> omega
  rw [stands.bytes_eq, List.drop_replicate, List.take_replicate, List.length_replicate, share]

/-- Making a file of zeros whose descriptor goes into a sector that is in use.

It fails if the length cannot be written down, or no run of free sectors is long enough, and then
nothing has happened but that the map was asked.  Otherwise the file is made and nothing else.  It
can be opened, if nothing is open under its descriptor, and all of it reads as zeros. -/
theorem creating_is_all_or_nothing (addressable : N ≤ UInt32.size)
    (reachable : volume.cache.Reachable storage.medium) (roomy : volume.map.capacity ≤ N)
    (inside : sector.toNat < N) (inUse : volume.map.isUsed sector.toNat = true) (length : Nat) :
    let lacksRoom : Prop := Descriptor.maxLength < length ∨
      ∀ start, ¬ volume.map.IsFreeRun start (sectorsFor length)
    Step.Yields (create sector length) volume fun result after =>
      match result with
      | .error .noSpace => lacksRoom ∧ after = { volume with mapCalls := after.mapCalls }
      | .ok () => ¬ lacksRoom ∧ (∃ start, Creates storage sector length start volume after) ∧
        (volume.files.registry[sector]? = none →
          Step.Yields (openFile sector) after fun id opened =>
            ∃ inode, opened.inode? id = some inode ∧ inode.descriptor.size = length ∧
              ∀ (position : Nat) (buffer : List UInt8),
                Step.Yields (readAt id position buffer) opened fun result _ =>
                  let n := if position < length then min buffer.length (length - position) else 0
                  result = (n, List.replicate n 0 ++ buffer.drop n)) := by
  intro lacksRoom
  have numbered : volume.map.capacity ≤ UInt32.size := Nat.le_trans roomy addressable
  by_cases lacks : lacksRoom
  · apply Step.Yields.imp (create_refused (lacks.imp_right (Bitmap.allocate_eq_none numbered)))
    intro result after ended
    obtain ⟨rfl, mapCalls, rfl⟩ := ended
    exact ⟨lacks, rfl⟩
  · obtain ⟨notLong, some_free⟩ := not_or.mp lacks
    obtain ⟨start, found, free, first⟩ :=
      (volume.map.allocate_first_run numbered _).resolve_right fun notFound => some_free notFound.2
    have small : length ≤ Descriptor.maxLength := Nat.not_lt.mp notLong
    have within : start.toNat + sectorsFor length ≤ N := Nat.le_trans free.1 roomy
    have apart : Apart sector start length := .of_isFreeRun free inUse
    apply Step.Yields.imp (create_yields (shows_of_reachable reachable) inside addressable small
      (congrArg Prod.fst found) within)
    intro result after ended
    obtain ⟨rfl, isAfter⟩ := ended
    rw [found] at isAfter
    refine ⟨lacks, ⟨start, .of_shows free first apart isAfter⟩, fun notOpen => ?_⟩
    exact openFile_reads_zeros addressable small inside within apart notOpen isAfter

/-- Behind the sector that is in use there is room for two sectors of zeros, but not for six. -/
theorem creating_behind_a_used_sector :
    let volume : Volume RamDisk := {
      cache := { device := { sectors := 5 } }
      map := (Bitmap.empty 5).flipRange 0 1 }
    5 ≤ UInt32.size ∧ volume.cache.Reachable (RamDisk.storage 5).medium ∧
      volume.map.capacity ≤ 5 ∧ (⟨0⟩ : SectorNo).toNat < 5 ∧
      volume.map.isUsed (⟨0⟩ : SectorNo).toNat = true ∧
      (Step.Yields (create ⟨0⟩ 600) volume fun result after => result = .ok () ∧
        after.cache.view RamDisk.sector ⟨0⟩ = (Descriptor.ofRun ⟨1⟩ 600).encode ∧
        Step.Yields (openFile ⟨0⟩) after fun id opened =>
          ∃ inode, opened.inode? id = some inode ∧ inode.descriptor.size = 600) ∧
      Step.Yields (create ⟨0⟩ 3000) volume fun result after =>
        result = .error .noSpace ∧ after.map = volume.map := by
  intro volume
  have reachable : volume.cache.Reachable (RamDisk.storage 5).medium :=
    .run ({ sectors := 5 } : RamDisk) [] rfl fun call _ => call.answerable_of_bounded _
  have used : volume.map.UsedBelow 1 := (Bitmap.usedBelow_empty 5).flipRange (by decide)
  have inUse : volume.map.isUsed (⟨0⟩ : SectorNo).toNat = true := used 0
  have creates := creating_is_all_or_nothing (by decide) reachable (Nat.le_refl 5)
    (by decide : (⟨0⟩ : SectorNo).toNat < 5) inUse
  refine ⟨by decide, reachable, Nat.le_refl 5, by decide, inUse, ?_, ?_⟩
  · have room : volume.map.IsFreeRun 1 2 :=
      (used.isFreeRun_iff (by decide)).mpr ⟨Nat.le_refl 1, by decide⟩
    apply Step.Yields.imp (creates 600)
    intro result after ended
    cases result with
    | error reason =>
      obtain ⟨long | none_free, -⟩ := ended
      · exact absurd long (by decide)
      · exact absurd room (none_free 1)
    | ok =>
      obtain ⟨-, ⟨start, made⟩, opens⟩ := ended
      have behind := ((used.isFreeRun_iff (by decide)).mp made.free).1
      have atMost : start.toNat ≤ 1 := Nat.not_lt.mp fun later => made.first 1 later room
      have first : start = ⟨1⟩ := SectorNo.toNat_inj.mp (Nat.le_antisymm atMost behind)
      subst first
      refine ⟨rfl, made.descriptor, ?_⟩
      apply Step.Yields.imp (opens Std.ExtTreeMap.getElem?_empty)
      exact fun _ _ ⟨inode, found, size, _⟩ => ⟨inode, found, size⟩
  · apply Step.Yields.imp (creates 3000)
    intro result after ended
    cases result with
    | error reason =>
      obtain ⟨-, same⟩ := ended
      exact ⟨rfl, by rw [same]⟩
    | ok =>
      have six : sectorsFor 3000 = 6 := rfl
      refine absurd (.inr fun start isFree => ?_) ended.1
      have inside : start + sectorsFor 3000 ≤ 5 := isFree.1
      omega

/-! ## Storing -/

/-- What storing a file does: its descriptor goes into the lowest free sector, and it can be loaded
from there. -/
structure Stores (data : List UInt8) (sector : SectorNo) (before after : Volume δ) : Prop where
  lowest : IsLeast { t | t < before.map.capacity ∧ before.map.isUsed t = false } sector.toNat
  marked : ∃ start, before.map.Lends
    (sector.toNat :: List.range' start (sectorsFor data.length)) after.map
  registry : after.files.registry = before.files.registry
  loads : Step.Yields (load sector) after fun bytes _ => bytes = data

/-- As many sectors are in use more as the file has, its descriptor among them. -/
theorem Stores.freeSectors_add {data : List UInt8} {after : Volume δ}
    (stores : Stores data sector volume after) :
    after.map.freeSectors + (1 + sectorsFor data.length) = volume.map.freeSectors := by
  obtain ⟨start, marked⟩ := stores.marked
  rw [← marked.freeSectors_add, List.length_cons, List.length_range', Nat.add_comm 1]

/-- There is a sector for the descriptor, and room for the data in what is left. -/
theorem store_accepted {start : SectorNo} {data : List UInt8} (addressable : N ≤ UInt32.size)
    (reachable : volume.cache.Reachable storage.medium) (roomy : volume.map.capacity ≤ N)
    (small : data.length ≤ Descriptor.maxLength)
    (found : volume.map.allocate 1 = (some sector, volume.map.flipRange sector.toNat 1))
    (free : volume.map.IsFreeRun sector.toNat 1)
    (first : ∀ earlier < sector.toNat, ¬ volume.map.IsFreeRun earlier 1)
    (foundData : (volume.map.flipRange sector.toNat 1).allocate (sectorsFor data.length) =
      (some start, (volume.map.flipRange sector.toNat 1).flipRange start.toNat
        (sectorsFor data.length)))
    (freeData : (volume.map.flipRange sector.toNat 1).IsFreeRun start.toNat
      (sectorsFor data.length))
    (notOpen : volume.files.registry[sector]? = none) :
    Step.Yields (store data) volume fun result after =>
      result = .ok sector ∧ Stores data sector volume after := by
  have inUse : (volume.map.flipRange sector.toNat 1).isUsed sector.toNat = true :=
    (Bitmap.isUsed_flipRange_of_free free _).mpr (.inl (List.mem_singleton_self _))
  have apart : Apart sector start data.length := .of_isFreeRun freeData inUse
  have inside : sector.toNat < N := Nat.lt_of_lt_of_le free.1 roomy
  have within : start.toNat + sectorsFor data.length ≤ N := by
    have bound := freeData.1
    rw [Bitmap.capacity_flipRange] at bound
    exact Nat.le_trans bound roomy
  apply Step.Yields.imp (store_yields (shows_of_reachable reachable) addressable small found
    foundData inside within apart notOpen)
  intro result after ended
  obtain ⟨rfl, isAfter⟩ := ended
  have registry : after.files.registry = volume.files.registry := by
    rw [isAfter.files, OpenFiles.registry_visited notOpen]
  have marked : volume.map.Lends
      (sector.toNat :: List.range' start.toNat (sectorsFor data.length)) after.map := by
    have marked := ((Bitmap.Lends.nothing volume.map).take free).take freeData
    rw [List.append_nil, ← isAfter.map] at marked
    exact marked.perm (List.perm_append_singleton ..)
  -- the file was closed again, so for loading it is opened anew, from what the sectors hold
  have loads : Step.Yields (load sector) after fun bytes _ => bytes = data := by
    have stands : LiveFile.Stands { sector, start, contents := data } N
        (stored (volume.cache.view storage.sector) sector start data) :=
      LiveFile.stands_stored small inside within addressable apart
    have stillNotOpen := notOpen
    rw [← registry, isAfter.files] at stillNotOpen
    apply Step.Yields.imp (load_yields isAfter addressable inside stillNotOpen
      stands.described.symm stands.run_within)
    intro bytes _ ended
    exact ended.1.trans stands.all_bytes_eq
  exact ⟨rfl, Bitmap.isLeast_of_first free first, ⟨start.toNat, marked⟩, registry, loads⟩

/-- Storing a file, where no inode is listed under a sector that is free.

It is refused if there is no free sector, the length of the data cannot be written down, or every
run that would be long enough contains the lowest free sector, which the descriptor takes first; and
then nothing has happened but that the map was asked.  Otherwise all of the data is written, so that
the check behind it never fails: the call ends with a result in either case. -/
theorem storing_is_all_or_nothing (addressable : N ≤ UInt32.size)
    (reachable : volume.cache.Reachable storage.medium) (roomy : volume.map.capacity ≤ N)
    (unlisted : ∀ s : SectorNo, s.toNat < volume.map.capacity →
      volume.map.isUsed s.toNat = false → volume.files.registry[s]? = none)
    (data : List UInt8) :
    let free : Set Nat := { t | t < volume.map.capacity ∧ volume.map.isUsed t = false }
    let lacksRoom : Prop := free = ∅ ∨ Descriptor.maxLength < data.length ∨
      ∃ lowest, IsLeast free lowest ∧ ∀ start, volume.map.IsFreeRun start (sectorsFor data.length) →
        start ≤ lowest ∧ lowest < start + sectorsFor data.length
    Step.Yields (store data) volume fun result after =>
      match result with
      | .error .noSpace => lacksRoom ∧ after = { volume with mapCalls := after.mapCalls }
      | .ok sector => ¬ lacksRoom ∧ Stores data sector volume after ∧
        after.map.freeSectors + (1 + sectorsFor data.length) = volume.map.freeSectors := by
  intro free lacksRoom
  have numbered : volume.map.capacity ≤ UInt32.size := Nat.le_trans roomy addressable
  cases volume.map.allocate_first_run numbered 1 with
  | inr notFound =>
    apply Step.Yields.imp (store_refused_of_full notFound.1)
    intro result after ended
    obtain ⟨rfl, mapCalls, rfl⟩ := ended
    have none_free : free = ∅ :=
      Set.eq_empty_of_forall_notMem fun t isFree => notFound.2 t (Bitmap.isFreeRun_one.mpr isFree)
    exact ⟨.inl none_free, rfl⟩
  | inl found =>
    obtain ⟨sector, found, isFree, first⟩ := found
    have lowest : IsLeast free sector.toNat := Bitmap.isLeast_of_first isFree first
    have numberedLeft : (volume.map.flipRange sector.toNat 1).capacity ≤ UInt32.size := by
      rw [Bitmap.capacity_flipRange]
      exact numbered
    have lacks_iff : lacksRoom ↔ Descriptor.maxLength < data.length ∨
        ∀ start, ¬ (volume.map.flipRange sector.toNat 1).IsFreeRun start
          (sectorsFor data.length) := by
      have some_free : free ≠ ∅ := lowest.nonempty.ne_empty
      rw [Bitmap.no_run_left_iff lowest]
      exact or_iff_right some_free
    by_cases lacks : lacksRoom
    · have noRoom := (lacks_iff.mp lacks).imp_right (Bitmap.allocate_eq_none numberedLeft)
      apply Step.Yields.imp (store_refused found isFree noRoom)
      intro result after ended
      obtain ⟨rfl, mapCalls, rfl⟩ := ended
      exact ⟨lacks, rfl⟩
    · obtain ⟨notLong, some_free⟩ := not_or.mp (mt lacks_iff.mpr lacks)
      obtain ⟨start, foundData, freeData, -⟩ :=
        (Bitmap.allocate_first_run numberedLeft _).resolve_right
          fun notFound => some_free notFound.2
      apply Step.Yields.imp (store_accepted addressable reachable roomy (Nat.not_lt.mp notLong) found
        isFree first foundData freeData (unlisted sector isFree.1 lowest.1.2))
      intro result after ended
      obtain ⟨rfl, stores⟩ := ended
      exact ⟨lacks, stores, stores.freeSectors_add⟩

/-- Two sectors are free, one behind the other, but the descriptor takes the first. -/
theorem storing_splits_the_only_run :
    let volume : Volume RamDisk := { cache := { device := { sectors := 2 } }, map := .empty 2 }
    2 ≤ UInt32.size ∧ volume.cache.Reachable (RamDisk.storage 2).medium ∧
      volume.map.capacity ≤ 2 ∧
      (∀ s : SectorNo, s.toNat < volume.map.capacity → volume.map.isUsed s.toNat = false →
        volume.files.registry[s]? = none) ∧
      (Step.Yields (store (List.replicate 600 7)) volume fun result after =>
        result = .error .noSpace ∧ after.map = volume.map) ∧
      Step.Yields (store [7, 8, 9]) volume fun result after => result = .ok ⟨0⟩ ∧
        after.map.freeSectors = 0 ∧ Step.Yields (load ⟨0⟩) after fun bytes _ => bytes = [7, 8, 9] := by
  intro volume
  have reachable : volume.cache.Reachable (RamDisk.storage 2).medium :=
    .run ({ sectors := 2 } : RamDisk) [] rfl fun call _ => call.answerable_of_bounded _
  have unlisted (s : SectorNo) (_ : s.toNat < volume.map.capacity)
      (_ : volume.map.isUsed s.toNat = false) : volume.files.registry[s]? = none :=
    Std.ExtTreeMap.getElem?_empty
  have used : volume.map.UsedBelow 0 := Bitmap.usedBelow_empty 2
  have free (t : Nat) (inside : t < 2) : volume.map.IsFreeRun t 1 :=
    (used.isFreeRun_iff (by decide)).mpr ⟨Nat.zero_le _, inside⟩
  have lowest : IsLeast { t | t < volume.map.capacity ∧ volume.map.isUsed t = false } 0 :=
    Bitmap.isLeast_of_first (free 0 (by decide)) fun earlier before => absurd before (Nat.not_lt_zero earlier)
  have stores := storing_is_all_or_nothing (by decide) reachable (Nat.le_refl 2) unlisted
  refine ⟨by decide, reachable, Nat.le_refl 2, unlisted, ?_, ?_⟩
  · apply Step.Yields.imp (stores (List.replicate 600 7))
    intro result after ended
    cases result with
    | error reason =>
      obtain ⟨-, same⟩ := ended
      exact ⟨rfl, by rw [same]⟩
    | ok sector =>
      have two : sectorsFor (List.replicate 600 (7 : UInt8)).length = 2 := by
        rw [List.length_replicate]
        rfl
      refine absurd (.inr (.inr ⟨0, lowest, fun start isFree => ?_⟩)) ended.1
      rw [two] at isFree ⊢
      have inside : start + 2 ≤ 2 := isFree.1
      omega
  · apply Step.Yields.imp (stores [7, 8, 9])
    intro result after ended
    cases result with
    | error reason =>
      obtain ⟨none_free | long | ⟨low, isLeast, contained⟩, -⟩ := ended
      · exact absurd lowest.1 (none_free ▸ Set.notMem_empty 0)
      · exact absurd long (by decide)
      · rw [isLeast.unique lowest] at contained
        exact absurd (contained 1 (free 1 (by decide))) (by decide)
    | ok sector =>
      obtain ⟨-, stored, count⟩ := ended
      have first : sector = ⟨0⟩ := SectorNo.toNat_inj.mp (stored.lowest.unique lowest)
      subst first
      refine ⟨rfl, ?_, stored.loads⟩
      have before : volume.map.freeSectors = 2 := Bitmap.freeSectors_empty 2
      have taken : sectorsFor [(7 : UInt8), 8, 9].length = 1 := rfl
      omega

end Volume

end Residency
