import Mathlib.Data.List.Pairwise
import Residency.Proofs.Bitmap.Lending
import Residency.Proofs.Volume.LiveFile

/-!
# The live files of a volume

A `Library` is the list of the live files of a volume.  That it is `Sound` ties together the four
places in which a volume knows of them: the cache has their descriptors and their bytes
(`LiveFile.Stands`), the map has lent each of their sectors once (`Bitmap.Lends`), and the table of
open files lists an inode for each of those that are open (`Library.Lists`).
-/

namespace Residency

abbrev Library := List LiveFile

namespace Library

variable {library : Library} {file other : LiveFile}

/-- The numbers of the sectors that live files own, each as often as it is owned. -/
def sectors (library : Library) : List Nat :=
  library.flatMap LiveFile.sectors

/-- The library after a file has given back its sectors. -/
def without (library : Library) (sector : SectorNo) : Library :=
  library.filter (·.sector ≠ sector)

/-- The library after the file of an inode was written to. -/
def written (library : Library) (inode : Inode) (position : Nat) (data : List UInt8) : Library :=
  library.map fun file => if file.IsUnder inode then file.overwritten position data else file

/-! ## Owners -/

theorem mem_sectors {t : Nat} (member : file ∈ library) (owned : t ∈ file.sectors) :
    t ∈ library.sectors :=
  List.mem_flatMap.mpr ⟨file, member, owned⟩

theorem sector_mem_sectors (member : file ∈ library) : file.sector.toNat ∈ library.sectors :=
  mem_sectors member (List.mem_cons_self ..)

/-- A sector has one owner. -/
theorem eq_of_mem_sectors (distinct : library.sectors.Nodup) (member : file ∈ library)
    (otherMember : other ∈ library) {t : Nat} (owned : t ∈ file.sectors)
    (otherOwned : t ∈ other.sectors) : file = other := by
  have apart := (List.nodup_flatMap.mp distinct).2
  have symmetric : Std.Symm (Function.onFun List.Disjoint LiveFile.sectors) :=
    ⟨fun _ _ disjoint _ inSecond inFirst => disjoint inFirst inSecond⟩
  by_contra different
  exact apart.forall member otherMember different owned otherOwned

theorem eq_of_sector (distinct : library.sectors.Nodup) (member : file ∈ library)
    (otherMember : other ∈ library) (same : file.sector = other.sector) : file = other := by
  apply eq_of_mem_sectors distinct member otherMember (List.mem_cons_self ..)
  rw [same]
  exact List.mem_cons_self ..

theorem nodup_map_sector (distinct : library.sectors.Nodup) :
    (library.map LiveFile.sector).Nodup := by
  rw [List.Nodup, List.pairwise_map]
  refine (List.nodup_flatMap.mp distinct).2.imp fun disjoint same => ?_
  apply disjoint (List.mem_cons_self ..)
  rw [same]
  exact List.mem_cons_self ..

theorem perm_without (distinct : library.sectors.Nodup) (member : file ∈ library) :
    library.Perm (file :: library.without file.sector) := by
  induction library with
  | nil => cases member
  | cons first rest inductionHypothesis =>
    have distinctRest : Library.sectors rest |>.Nodup := by
      rw [sectors, List.flatMap_cons] at distinct
      exact distinct.of_append_right
    by_cases same : first.sector = file.sector
    · -- no other file has this sector, so all of the rest stays
      have first_eq : first = file := eq_of_sector distinct (List.mem_cons_self ..) member same
      subst first_eq
      have others : ∀ later ∈ rest, later.sector ≠ first.sector := by
        intro later laterMember sameSector
        rw [sectors, List.flatMap_cons] at distinct
        apply List.disjoint_of_nodup_append distinct (List.mem_cons_self ..)
        rw [← sameSector]
        exact sector_mem_sectors laterMember
      rw [without, List.filter_cons_of_neg (by simp)]
      rw [List.filter_eq_self.mpr fun later laterMember => by simpa using others later laterMember]
    · have inRest : file ∈ rest := by
        rcases List.mem_cons.mp member with rfl | inRest
        · exact absurd rfl same
        · exact inRest
      rw [without, List.filter_cons_of_pos (by simpa using same)]
      exact ((inductionHypothesis distinctRest inRest).cons first).trans (.swap ..)

theorem sectors_perm_without (distinct : library.sectors.Nodup) (member : file ∈ library) :
    library.sectors.Perm (file.sectors ++ (library.without file.sector).sectors) :=
  (perm_without distinct member).flatMap_right LiveFile.sectors

theorem sectors_written (library : Library) (inode : Inode) (position : Nat)
    (data : List UInt8) : (library.written inode position data).sectors = library.sectors := by
  rw [sectors, written, List.flatMap_map]
  apply List.flatMap_congr
  intro file _
  split
  next => rw [LiveFile.sectors_overwritten]
  next => rfl

theorem mem_written {inode : Inode} {position : Nat} {data : List UInt8} (member : file ∈ library) :
    ∃ after ∈ library.written inode position data,
      after.sector = file.sector ∧ after.descriptor = file.descriptor := by
  refine ⟨_, List.mem_map_of_mem member, ?_⟩
  split
  next => exact ⟨rfl, file.descriptor_overwritten position data⟩
  next => exact ⟨rfl, rfl⟩

/-! ## Openers -/

/-- What the table of open files knows of a library after at most `n` files were opened.  The data
of every inode that there is lies below `N`; those that are open are registered, each for a live
file. -/
structure Lists (library : Library) (N n : Nat) (files : OpenFiles) : Prop where
  within : ∀ id inode, files.get? id = some inode →
    inode.descriptor.start.toNat + inode.descriptor.sectors ≤ N
  counted : ∀ id inode, files.get? id = some inode → inode.opens ≤ n
  registered : ∀ sector id, files.registry[sector]? = some id ↔
    ∃ inode, files.get? id = some inode ∧ inode.sector = sector ∧ 0 < inode.opens
  live : ∀ id inode, files.get? id = some inode → 0 < inode.opens →
    ∃ file ∈ library, file.IsUnder inode

namespace Lists

variable {N n m : Nat} {files : OpenFiles} {id : InodeId} {inode : Inode}

theorem nothing (library : Library) (N n : Nat) : library.Lists N n {} where
  within id inode found := by cases found
  counted id inode found := by cases found
  registered sector id := by
    constructor
    · intro found
      cases (Std.ExtTreeMap.getElem?_empty.symm.trans found)
    · rintro ⟨inode, found, -⟩
      cases found
  live id inode found := by cases found

theorem mono (lists : library.Lists N n files) (more : n ≤ m) : library.Lists N m files :=
  { lists with counted := fun id inode found => (lists.counted id inode found).trans more }

/-- Another library will do that has every file that is open. -/
theorem transfer (lists : library.Lists N n files) {after : Library}
    (keeps : ∀ file ∈ library, ∀ id, files.registry[file.sector]? = some id →
      ∃ other ∈ after, other.sector = file.sector ∧ other.descriptor = file.descriptor) :
    after.Lists N n files :=
  { lists with
    live := by
      intro id inode found isOpen
      obtain ⟨file, member, sector, descriptor⟩ := lists.live id inode found isOpen
      have listed := (lists.registered file.sector id).mpr ⟨inode, found, sector.symm, isOpen⟩
      obtain ⟨other, otherMember, sameSector, sameDescriptor⟩ := keeps file member id listed
      exact ⟨other, otherMember, sameSector.trans sector, sameDescriptor.trans descriptor⟩ }

/-- A sector that no live file owns is not open. -/
theorem notOpen (lists : library.Lists N n files) {sector : SectorNo}
    (unowned : sector.toNat ∉ library.sectors) : files.registry[sector]? = none := by
  cases listed : files.registry[sector]? with
  | none => rfl
  | some id =>
    obtain ⟨inode, found, rfl, isOpen⟩ := (lists.registered _ _).mp listed
    obtain ⟨file, member, sector, -⟩ := lists.live id inode found isOpen
    rw [← sector] at unowned
    exact absurd (sector_mem_sectors member) unowned

/-- The file that is open under a registered inode. -/
theorem inode_of_registered (lists : library.Lists N n files) (distinct : library.sectors.Nodup)
    (member : file ∈ library) (listed : files.registry[file.sector]? = some id) :
    ∃ inode, files.get? id = some inode ∧ file.IsUnder inode ∧ 0 < inode.opens := by
  obtain ⟨inode, found, sector, isOpen⟩ := (lists.registered _ _).mp listed
  obtain ⟨other, otherMember, isUnder⟩ := lists.live id inode found isOpen
  have same : other = file := eq_of_sector distinct otherMember member (isUnder.1.trans sector)
  rw [same] at isUnder
  exact ⟨inode, found, isUnder, isOpen⟩

/-- One inode is new or changed, and the registry goes along. -/
theorem put (lists : library.Lists N n files) {after : OpenFiles} {new : Inode}
    (get? : ∀ other, after.get? other = if other = id then some new else files.get? other)
    (registry : ∀ sector other, after.registry[sector]? = some other ↔
      if other = id then new.sector = sector ∧ 0 < new.opens
      else files.registry[sector]? = some other)
    (within : new.descriptor.start.toNat + new.descriptor.sectors ≤ N) (counted : new.opens ≤ n)
    (live : 0 < new.opens → ∃ file ∈ library, file.IsUnder new) : library.Lists N n after where
  within other inode := by
    rw [get?]
    split
    next =>
      rintro ⟨⟩
      exact within
    next => exact lists.within other inode
  counted other inode := by
    rw [get?]
    split
    next =>
      rintro ⟨⟩
      exact counted
    next => exact lists.counted other inode
  registered sector other := by
    rw [registry, get?]
    split
    next => simp
    next => exact lists.registered sector other
  live other inode := by
    rw [get?]
    split
    next =>
      rintro ⟨⟩
      exact live
    next => exact lists.live other inode

theorem registered_iff (lists : library.Lists N n files) (found : files.get? id = some inode)
    (sector : SectorNo) :
    files.registry[sector]? = some id ↔ inode.sector = sector ∧ 0 < inode.opens := by
  rw [lists.registered, found]
  simp

/-- An inode is changed in its counts only, and stays open if it was. -/
theorem set (lists : library.Lists N n files) (found : files.get? id = some inode) {new : Inode}
    (sector : new.sector = inode.sector) (descriptor : new.descriptor = inode.descriptor)
    (isOpen : 0 < new.opens ↔ 0 < inode.opens) (counted : new.opens ≤ n) :
    library.Lists N n (files.set id new) := by
  apply lists.put (OpenFiles.get?_set found new)
  · intro s other
    show files.registry[s]? = some other ↔ _
    split
    next same => rw [same, lists.registered_iff found, sector, isOpen]
    next => rfl
  · rw [descriptor]
    exact lists.within id inode found
  · exact counted
  · intro stillOpen
    obtain ⟨file, member, isUnder⟩ := lists.live id inode found (isOpen.mp stillOpen)
    exact ⟨file, member, isUnder.1.trans sector.symm, isUnder.2.trans descriptor.symm⟩

theorem opened (lists : library.Lists N n files) (member : file ∈ library)
    (notOpen : files.registry[file.sector]? = none)
    (within : file.descriptor.start.toNat + file.descriptor.sectors ≤ N) :
    library.Lists N (n + 1) (files.opened file.sector file.descriptor) := by
  apply (lists.mono (Nat.le_succ n)).put (OpenFiles.get?_opened_eq files file.sector file.descriptor)
  · intro s other
    -- the new name is not one of those that were given out before
    have fresh : files.registry[s]? ≠ some ⟨files.inodes.size⟩ := by
      intro listed
      obtain ⟨inode, found, -⟩ := (lists.registered _ _).mp listed
      rw [OpenFiles.get?, Array.getElem?_eq_none (Nat.le_refl _)] at found
      cases found
    rw [OpenFiles.registry_opened]
    by_cases same : s = file.sector
    · subst same
      by_cases new : other = ⟨files.inodes.size⟩
      · simp [new]
      · simp [new, Ne.symm new, notOpen]
    · rw [if_neg same]
      split
      next new =>
        rw [new]
        simp [fresh, Ne.symm same]
      next => rfl
  · exact within
  · exact Nat.le_add_left ..
  · exact fun _ => ⟨file, member, rfl, rfl⟩

theorem closed (lists : library.Lists N n files) (found : files.get? id = some inode)
    (isOpen : 0 < inode.opens) : library.Lists N n (files.closed id inode) := by
  apply lists.put (OpenFiles.get?_closed found)
  · intro s other
    -- the sector was registered under the inode that is closed, and under no other one
    have listed := lists.registered_iff found s
    rw [OpenFiles.registry_closed]
    by_cases same : s = inode.sector
    · have listedHere := listed.mpr ⟨same.symm, isOpen⟩
      rw [if_pos same, listedHere]
      split
      next => simp
      next different => simp [Ne.symm different]
    · rw [if_neg same]
      split
      next self => simp [self, listed, Ne.symm same]
      next => rfl
  · exact lists.within id inode found
  · exact Nat.zero_le n
  · exact fun impossible => absurd impossible (Nat.lt_irrefl 0)

theorem visited (lists : library.Lists N n files) (member : file ∈ library)
    (notOpen : files.registry[file.sector]? = none)
    (within : file.descriptor.start.toNat + file.descriptor.sectors ≤ N) :
    library.Lists N (n + 1) (files.visited file.sector file.descriptor) :=
  (lists.opened member notOpen within).closed (OpenFiles.get?_opened ..) Nat.one_pos

end Lists

/-! ## Soundness -/

/-- The volume keeps the library, of which at most `n` files were opened since it was mounted;
`origin` is the map that it started with. -/
structure Sound {δ : Type} [BlockDevice δ] {N : Nat} (storage : Storage δ N) (origin : Bitmap)
    (n : Nat) (library : Library) (volume : Volume δ) : Prop where
  coherent : Cache.Coherent storage volume.cache
  lends : origin.Lends library.sectors volume.map
  stands : ∀ file ∈ library, file.Stands origin.capacity (volume.cache.view storage.sector)
  lists : library.Lists origin.capacity n volume.files

namespace Sound

variable {δ : Type} [BlockDevice δ] {N n m : Nat} {storage : Storage δ N} {origin map : Bitmap}
  {volume : Volume δ} {sectors : SectorNo → Sector} {files : OpenFiles}

theorem shows (sound : library.Sound storage origin n volume) :
    volume.Shows storage (volume.cache.view storage.sector) volume.map volume.files :=
  ⟨sound.coherent, rfl, rfl, rfl⟩

theorem of_shows (isShown : volume.Shows storage sectors map files)
    (lends : origin.Lends library.sectors map)
    (stands : ∀ file ∈ library, file.Stands origin.capacity sectors)
    (lists : library.Lists origin.capacity n files) : library.Sound storage origin n volume where
  coherent := isShown.coherent
  lends := by rwa [isShown.map]
  stands := by rwa [isShown.view]
  lists := by rwa [isShown.files]

theorem mono (sound : library.Sound storage origin n volume) (more : n ≤ m) :
    library.Sound storage origin m volume :=
  { sound with lists := sound.lists.mono more }

theorem mount (storage : Storage δ N) (origin : Bitmap) {device : δ}
    (serves : storage.Serves device) :
    Library.Sound storage origin 0 [] (.mount device origin) where
  coherent := (Volume.shows_mount storage serves origin).coherent
  lends := .nothing origin
  stands := nofun
  lists := .nothing [] _ _

end Sound

end Library

end Residency
