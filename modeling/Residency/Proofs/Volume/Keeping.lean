import Residency.Proofs.Volume.Library

/-!
# How a volume keeps its files

Each operation of a volume keeps its library sound, where `n` bounds how often a file was opened.

* `store_sound`: a file comes to the library, or nothing changes;
* `load_sound`, `openFile_sound` and `reopen_sound`: a live file is found, whether or not it is open;
* `close_sound`: a file that was removed leaves the library with its last opener;
* `readAt_sound` and `writeAt_sound`: an inode leads to the bytes of its file, and to no others.
-/

namespace Residency

/-- The file with the given bytes whose descriptor a volume shows in a sector. -/
def LiveFile.shownAt {δ : Type} [BlockDevice δ] {N : Nat} (storage : Storage δ N)
    (volume : Volume δ) (sector : SectorNo) (contents : List UInt8) : LiveFile where
  sector
  start := (Descriptor.decode (volume.cache.view storage.sector sector)).start
  contents

theorem LiveFile.shownAt_of_stored {δ : Type} [BlockDevice δ] {N : Nat} {storage : Storage δ N}
    {volume : Volume δ} {sectors : SectorNo → Sector} {map : Bitmap} {files : OpenFiles}
    {sector start : SectorNo} {data : List UInt8}
    (isShown : volume.Shows storage (stored sectors sector start data) map files) :
    LiveFile.shownAt storage volume sector data = { sector, start, contents := data } := by
  rw [LiveFile.shownAt, isShown.view, stored, if_pos rfl, Descriptor.decode_encode]
  rfl

namespace Library.Sound

variable {δ : Type} [BlockDevice δ] {N n : Nat} {storage : Storage δ N} {origin : Bitmap}
  {library : Library} {volume : Volume δ} {file : LiveFile} {id : InodeId} {inode : Inode}

section Bounds

variable (addressable : N ≤ UInt32.size) (roomy : origin.capacity ≤ N)
include addressable roomy

theorem capacity_le (sound : library.Sound storage origin n volume) :
    volume.map.capacity ≤ UInt32.size := by
  rw [sound.lends.capacity]
  exact Nat.le_trans roomy addressable

/-! ## Storing -/

section Storing

variable {sector start : SectorNo} {data : List UInt8} {map₁ map₂ : Bitmap}

omit addressable roomy in
/-- The sectors of a new file, the descriptor first and then the data, are lent together. -/
theorem lends_new (sound : library.Sound storage origin n volume)
    (first : volume.map.IsFreeRun sector.toNat 1)
    (map₁_eq : volume.map.flipRange sector.toNat 1 = map₁)
    (second : map₁.IsFreeRun start.toNat (sectorsFor data.length)) :
    origin.Lends (Library.sectors ({ sector, start, contents := data } :: library))
      (map₁.flipRange start.toNat (sectorsFor data.length)) := by
  subst map₁_eq
  exact ((sound.lends.take first).take second).perm List.perm_middle

/-- What was stored is a live file, and those that were live before stay so. -/
theorem add (sound : library.Sound storage origin n volume) {after : Volume δ}
    (small : data.length ≤ Descriptor.maxLength)
    (first : volume.map.IsFreeRun sector.toNat 1)
    (map₁_eq : volume.map.flipRange sector.toNat 1 = map₁)
    (second : map₁.IsFreeRun start.toNat (sectorsFor data.length))
    (apart : Apart sector start data.length)
    (isAfter : after.Shows storage
      (stored (volume.cache.view storage.sector) sector start data)
      (map₁.flipRange start.toNat (sectorsFor data.length))
      (volume.files.visited sector (.ofRun start (.ofNat data.length)))) :
    Library.Sound storage origin (n + 1)
      (.shownAt storage after sector data :: library) after := by
  have numbered := Nat.le_trans roomy addressable
  have capacity := sound.lends.capacity
  have lends := sound.lends_new first map₁_eq second
  have inside := first.1
  have within := second.1
  rw [← map₁_eq, Bitmap.capacity_flipRange] at within
  have stands : LiveFile.Stands { sector, start, contents := data } origin.capacity
      (stored (volume.cache.view storage.sector) sector start data) :=
    LiveFile.stands_stored small (by omega) (by omega) numbered apart
  rw [LiveFile.shownAt_of_stored isAfter]
  refine of_shows isAfter lends ?_ ?_
  · intro file member
    rcases List.mem_cons.mp member with rfl | old
    · exact stands
    · -- what was stored went into sectors that no other live file owns
      apply (sound.stands file old).congr numbered
      intro s owned
      apply LiveFile.stored_of_not_mem
      have disjoint := List.disjoint_of_nodup_append lends.distinct
      exact fun inNew => disjoint inNew (Library.mem_sectors old owned)
  · have unowned := (sound.lends.apart first (t := sector.toNat) (by simp)).1
    have lists : Library.Lists ({ sector, start, contents := data } :: library) origin.capacity n
        volume.files :=
      sound.lists.transfer fun file member _ _ => ⟨file, List.mem_cons_of_mem _ member, rfl, rfl⟩
    exact lists.visited (List.mem_cons_self ..) (sound.lists.notOpen unowned) stands.run_within

omit addressable roomy in
/-- A store that is refused leaves the volume as it was, but for the account. -/
theorem withCalls (sound : library.Sound storage origin n volume) (mapCalls : List MapCall) :
    library.Sound storage origin n ({ volume with mapCalls } : Volume δ) :=
  of_shows (sound.shows.withCalls mapCalls) sound.lends sound.stands sound.lists

theorem accepted_sound (sound : library.Sound storage origin n volume)
    (small : data.length ≤ Descriptor.maxLength)
    (found : volume.map.allocate 1 = (some sector, map₁))
    (first : volume.map.IsFreeRun sector.toNat 1)
    (map₁_eq : volume.map.flipRange sector.toNat 1 = map₁)
    (foundData : map₁.allocate (sectorsFor data.length) =
      (some start, map₁.flipRange start.toNat (sectorsFor data.length)))
    (second : map₁.IsFreeRun start.toNat (sectorsFor data.length)) :
    Step.Yields (Volume.store data) volume fun result after =>
      result = .ok sector ∧ (∀ file ∈ library, file.sector ≠ sector) ∧
        Library.Sound storage origin (n + 1)
          (.shownAt storage after sector data :: library) after := by
  have capacity := sound.lends.capacity
  have inside := first.1
  have within := second.1
  rw [← map₁_eq, Bitmap.capacity_flipRange] at within
  have unowned := (sound.lends.apart first (List.mem_singleton_self _)).1
  -- the sector of the descriptor is in use by the time at which the data gets its own
  have used := (sound.lends.take first).isUsed
    (List.mem_append_left _ (List.mem_singleton_self _))
  rw [map₁_eq] at used
  have apart := Apart.of_isFreeRun second used
  apply Step.Yields.imp (Volume.store_yields sound.shows addressable small found foundData
    (by omega) (by omega) apart (sound.lists.notOpen unowned))
  rintro _ after ⟨rfl, isAfter⟩
  refine ⟨rfl, ?_, sound.add addressable roomy small first map₁_eq second apart isAfter⟩
  rintro file member rfl
  exact unowned (Library.sector_mem_sectors member)

theorem store_sound (sound : library.Sound storage origin n volume) (data : List UInt8) :
    Step.Yields (Volume.store data) volume fun result after =>
      result = .error .noSpace ∧ library.Sound storage origin (n + 1) after ∨
        ∃ sector, result = .ok sector ∧ (∀ file ∈ library, file.sector ≠ sector) ∧
          Library.Sound storage origin (n + 1)
            (.shownAt storage after sector data :: library) after := by
  have numbered := sound.capacity_le addressable roomy
  have more := Nat.le_succ n
  rcases volume.map.allocate_runs numbered 1 with ⟨sector, found, first⟩ | full
  · set map₁ := volume.map.flipRange sector.toNat 1 with map₁_eq
    rw [← Bitmap.capacity_flipRange sector.toNat 1, ← map₁_eq] at numbered
    by_cases noRoom : Descriptor.maxLength < data.length ∨
        map₁.allocate (sectorsFor data.length) = (none, map₁)
    · apply Step.Yields.imp (Volume.store_refused found first noRoom)
      rintro _ _ ⟨rfl, mapCalls, rfl⟩
      exact Or.inl ⟨rfl, (sound.withCalls mapCalls).mono more⟩
    · obtain ⟨small, notFull⟩ := not_or.mp noRoom
      obtain ⟨start, foundData, second⟩ := (map₁.allocate_runs numbered _).resolve_right notFull
      exact Step.Yields.imp (sound.accepted_sound addressable roomy (Nat.not_lt.mp small) found first
        map₁_eq.symm foundData second) fun _ _ ended => Or.inr ⟨sector, ended⟩
  · apply Step.Yields.imp (Volume.store_refused_of_full full)
    rintro _ _ ⟨rfl, mapCalls, rfl⟩
    exact Or.inl ⟨rfl, (sound.withCalls mapCalls).mono more⟩

end Storing

/-! ## Finding files by their sectors -/

theorem load_sound (sound : library.Sound storage origin n volume) (fits : n + 1 < wordLimit)
    (member : file ∈ library) :
    Step.Yields (Volume.load file.sector) volume fun bytes after =>
      bytes = file.contents ∧ library.Sound storage origin (n + 1) after := by
  have stands := sound.stands file member
  have within := Nat.le_trans stands.run_within roomy
  have inside := Nat.lt_of_lt_of_le stands.inside roomy
  cases listed : volume.files.registry[file.sector]? with
  | none =>
    apply Step.Yields.imp (Volume.load_yields sound.shows addressable inside listed
      stands.described.symm within)
    intro _ after ended
    obtain ⟨rfl, isAfter⟩ := ended
    exact ⟨stands.all_bytes_eq, of_shows isAfter sound.lends sound.stands
      (sound.lists.visited member listed stands.run_within)⟩
  | some id =>
    obtain ⟨inode, found, isUnder, isOpen⟩ :=
      sound.lists.inode_of_registered sound.lends.distinct member listed
    have counted := sound.lists.counted id inode found
    apply Step.Yields.imp (Volume.load_again_yields sound.shows addressable listed found isOpen
      (by omega) isUnder.2.symm within)
    intro _ after ended
    obtain ⟨rfl, isAfter⟩ := ended
    exact ⟨stands.all_bytes_eq,
      (of_shows isAfter sound.lends sound.stands sound.lists).mono (Nat.le_succ n)⟩

omit addressable in
theorem openFile_sound (sound : library.Sound storage origin n volume) (fits : n + 1 < wordLimit)
    (member : file ∈ library) :
    Step.Yields (Volume.openFile file.sector) volume fun id after =>
      (∃ inode, after.inode? id = some inode ∧ file.IsUnder inode ∧ 0 < inode.opens) ∧
        library.Sound storage origin (n + 1) after := by
  have stands := sound.stands file member
  cases listed : volume.files.registry[file.sector]? with
  | none =>
    apply Step.Yields.imp (Volume.openFile_yields sound.shows
      (Nat.lt_of_lt_of_le stands.inside roomy) listed)
    intro _ after ended
    obtain ⟨rfl, isAfter⟩ := ended
    rw [stands.described] at isAfter
    refine ⟨⟨{ sector := file.sector, descriptor := file.descriptor }, ?_, ⟨rfl, rfl⟩,
      Nat.one_pos⟩, of_shows isAfter sound.lends sound.stands
      (sound.lists.opened member listed stands.run_within)⟩
    rw [Volume.inode?, isAfter.files]
    exact OpenFiles.get?_opened ..
  | some id =>
    obtain ⟨inode, found, isUnder, isOpen⟩ :=
      sound.lists.inode_of_registered sound.lends.distinct member listed
    have counted := sound.lists.counted id inode found
    apply Step.Yields.imp (Volume.openFile_again_yields sound.shows listed found (by omega))
    intro _ after ended
    obtain ⟨result_eq, isAfter⟩ := ended
    rw [result_eq]
    refine ⟨⟨{ inode with opens := inode.opens + 1 }, ?_, isUnder, Nat.succ_pos _⟩,
      of_shows isAfter sound.lends sound.stands ?_⟩
    · rw [Volume.inode?, isAfter.files, OpenFiles.get?_set found, if_pos rfl]
    · exact (sound.lists.mono (Nat.le_succ n)).set found rfl rfl (by simp [isOpen])
        (Nat.succ_le_succ counted)

end Bounds

/-! ## Openers -/

section Openers

variable (sound : library.Sound storage origin n volume) (found : volume.inode? id = some inode)
include sound found

/-- The counts of an inode are changed by one of its steps, and it stays open if it was. -/
theorem count {step : Step Inode Unit} {new : Inode} {m : Nat}
    (yields : Step.Yields step inode fun _ after => after = new)
    (sector : new.sector = inode.sector) (descriptor : new.descriptor = inode.descriptor)
    (isOpen : 0 < new.opens ↔ 0 < inode.opens) (counted : new.opens ≤ m) (more : n ≤ m) :
    Step.Yields (Volume.onInode id step) volume fun _ after =>
      library.Sound storage origin m after := by
  apply Step.Yields.imp (Volume.onInode_yields sound.shows found yields)
  intro _ after ended
  obtain ⟨_, rfl, isAfter⟩ := ended
  exact of_shows isAfter sound.lends sound.stands
    ((sound.lists.mono more).set found sector descriptor isOpen counted)

theorem reopen_sound (fits : n + 1 < wordLimit) (isOpen : 0 < inode.opens) :
    Step.Yields (Volume.reopen id) volume fun _ after =>
      library.Sound storage origin (n + 1) after := by
  have counted := sound.lists.counted id inode found
  exact sound.count found (Inode.addOpener_yields (by omega)) rfl rfl (by simp [isOpen])
    (Nat.succ_le_succ counted) (Nat.le_succ n)

theorem remove_sound :
    Step.Yields (Volume.remove id) volume fun _ after => library.Sound storage origin n after :=
  sound.count found Inode.remove_yields rfl rfl Iff.rfl (sound.lists.counted id inode found)
    (Nat.le_refl n)

theorem deny_sound (fits : n < wordLimit) (some_left : inode.denials < inode.opens) :
    Step.Yields (Volume.deny id) volume fun _ after => library.Sound storage origin n after := by
  have counted := sound.lists.counted id inode found
  exact sound.count found (Inode.deny_yields (by omega) some_left) rfl rfl Iff.rfl counted
    (Nat.le_refl n)

theorem allow_sound (denied : 0 < inode.denials) (bounded : inode.denials ≤ inode.opens) :
    Step.Yields (Volume.allow id) volume fun _ after => library.Sound storage origin n after :=
  sound.count found (Inode.allow_yields denied bounded) rfl rfl Iff.rfl
    (sound.lists.counted id inode found) (Nat.le_refl n)

/-- The last opener of a file that was removed closes it, and its sectors are given back. -/
theorem close_removed_sound (last : inode.opens = 1) (removed : inode.removed = true) :
    Step.Yields (Volume.close id) volume fun _ after =>
      (library.without inode.sector).Sound storage origin n after := by
  have isOpen : 0 < inode.opens := by omega
  obtain ⟨file, member, sector, descriptor⟩ := sound.lists.live id inode found isOpen
  have stands := sound.stands file member
  have capacity := sound.lends.capacity
  have within := stands.run_within
  have inside := stands.inside
  rw [descriptor] at within
  -- the sectors of the file come off what is lent, first the descriptor and then the data
  have lends : origin.Lends (List.range' inode.sector.toNat 1 ++
      (List.range' inode.descriptor.start.toNat inode.descriptor.sectors ++
        (library.without inode.sector).sectors)) volume.map := by
    rw [← sector, ← descriptor, stands.sectors_eq]
    exact sound.lends.perm (Library.sectors_perm_without sound.lends.distinct member)
  have between := lends.give (by rw [← sector]; omega)
  apply Step.Yields.imp (Volume.close_removed_yields sound.shows found last removed rfl
    (by rw [← sector]; omega) (lends.isUsed (by simp)) (by omega) fun t low high =>
      between.isUsed (List.mem_append_left _ (List.mem_range'_1.mpr ⟨low, high⟩)))
  intro _ after isAfter
  refine of_shows isAfter (between.give ?_) ?_ ?_
  · rw [Bitmap.capacity_flipRange]
    omega
  · exact fun other otherMember => sound.stands other (List.mem_of_mem_filter otherMember)
  · -- a file that is still open is another one, so it is still live
    apply (sound.lists.closed found isOpen).transfer
    intro other otherMember id listed
    rw [OpenFiles.registry_closed] at listed
    refine ⟨other, List.mem_filter.mpr ⟨otherMember, ?_⟩, rfl, rfl⟩
    by_contra same
    simp only [ne_eq, decide_not, Bool.not_eq_true', decide_eq_false_iff_not,
      Decidable.not_not] at same
    rw [if_pos same] at listed
    cases listed

theorem close_sound (isOpen : 0 < inode.opens) :
    Step.Yields (Volume.close id) volume fun _ after =>
      (if inode.opens = 1 ∧ inode.removed = true then library.without inode.sector
        else library).Sound storage origin n after := by
  by_cases last : inode.opens = 1
  · cases removed : inode.removed with
    | true => simpa [last] using sound.close_removed_sound found last removed
    | false =>
      rw [if_neg (by simp)]
      apply Step.Yields.imp (Volume.close_last_yields sound.shows found last removed)
      intro _ after isAfter
      exact of_shows isAfter sound.lends sound.stands (sound.lists.closed found isOpen)
  · have counted := sound.lists.counted id inode found
    rw [if_neg fun both => last both.1]
    apply Step.Yields.imp (Volume.close_early_yields sound.shows found (by omega))
    intro _ after isAfter
    exact of_shows isAfter sound.lends sound.stands
      (sound.lists.set found rfl rfl (by simp only; omega) (by simp only; omega))

/-! ## Reading and writing -/

section Contents

variable (addressable : N ≤ UInt32.size) (roomy : origin.capacity ≤ N)
include addressable roomy

theorem readAt_sound (position : Nat) (buffer : List UInt8) :
    Step.Yields (Volume.readAt id position buffer) volume fun result after =>
      (∀ file ∈ library, file.IsUnder inode →
        ∃ bytes, bytes = (file.contents.drop position).take buffer.length ∧
          result = (bytes.length, bytes ++ buffer.drop bytes.length)) ∧
      library.Sound storage origin n after := by
  have within := Nat.le_trans (sound.lists.within id inode found) roomy
  apply Step.Yields.imp
    (Volume.readAt_yields sound.shows found within addressable position buffer)
  intro _ after ended
  obtain ⟨⟨bytes, bytes_eq, rfl⟩, isAfter⟩ := ended
  refine ⟨?_, of_shows isAfter sound.lends sound.stands sound.lists⟩
  intro file member isUnder
  rw [← isUnder.2, (sound.stands file member).bytes_eq] at bytes_eq
  exact ⟨bytes, bytes_eq, rfl⟩

omit found in
theorem write_sound {after : Volume δ} {position : Nat} {data : List UInt8}
    (member : file ∈ library) (isUnder : file.IsUnder inode) {sectors : SectorNo → Sector}
    (spliced : file.descriptor.Spliced position
      (data.take (file.descriptor.granted position data.length))
      (volume.cache.view storage.sector) sectors)
    (isAfter : after.Shows storage sectors volume.map volume.files) :
    (library.written inode position data).Sound storage origin n after := by
  have distinct := sound.lends.distinct
  have numbered := Nat.le_trans roomy addressable
  refine of_shows isAfter ?_ ?_ ?_
  · rw [Library.sectors_written]
    exact sound.lends
  · intro changed changedMember
    obtain ⟨other, otherMember, rfl⟩ := List.mem_map.mp changedMember
    split
    next otherIsUnder =>
      have same : other = file :=
        Library.eq_of_sector distinct otherMember member (otherIsUnder.1.trans isUnder.1.symm)
      subst same
      exact (sound.stands other otherMember).spliced numbered
        (List.nodup_flatMap.mp distinct |>.1 other otherMember) spliced
    next notUnder =>
      -- the data of one file lies apart from all sectors of another one
      apply (sound.stands other otherMember).congr numbered
      intro s owned
      apply LiveFile.eq_of_spliced spliced
      rw [(sound.stands file member).sectors_eq]
      intro inData
      have inFile : s.toNat ∈ file.sectors :=
        List.mem_cons_of_mem _ (List.mem_range'_1.mpr inData)
      rw [Library.eq_of_mem_sectors distinct otherMember member owned inFile] at notUnder
      exact notUnder isUnder
  · exact sound.lists.transfer fun other otherMember _ _ => Library.mem_written otherMember

theorem writeAt_sound (held : 0 < inode.opens ∨ ∃ file ∈ library, file.IsUnder inode)
    (position : Nat) (data : List UInt8) :
    Step.Yields (Volume.writeAt id position data) volume fun count after =>
      (∀ file ∈ library, file.IsUnder inode → count =
        if 0 < inode.denials then 0 else min data.length (file.contents.length - position)) ∧
      (if 0 < inode.denials then library else library.written inode position data).Sound
        storage origin n after := by
  by_cases denied : 0 < inode.denials
  · simp only [if_pos denied]
    apply Step.Yields.imp
      (Volume.writeAt_denied_yields sound.shows found denied position data)
    intro _ after ended
    obtain ⟨rfl, isAfter⟩ := ended
    exact ⟨fun _ _ _ => rfl, of_shows isAfter sound.lends sound.stands sound.lists⟩
  · simp only [if_neg denied]
    obtain ⟨file, member, isUnder⟩ := held.elim (sound.lists.live id inode found) fun live => live
    have within := Nat.le_trans (sound.lists.within id inode found) roomy
    apply Step.Yields.imp (Volume.writeAt_yields sound.shows found (Nat.eq_zero_of_not_pos denied)
      within addressable position data)
    intro _ after ended
    obtain ⟨rfl, sectors, spliced, isAfter⟩ := ended
    rw [← isUnder.2] at spliced
    refine ⟨?_, sound.write_sound addressable roomy member isUnder spliced isAfter⟩
    intro other otherMember otherIsUnder
    rw [← otherIsUnder.2, Descriptor.granted, (sound.stands other otherMember).size]

end Contents

end Openers

/-! ## The cache -/

theorem flush_sound (sound : library.Sound storage origin n volume) :
    Step.Yields Volume.flush volume fun _ after => library.Sound storage origin n after := by
  apply Step.Yields.imp (Volume.flush_yields sound.shows)
  intro _ after ended
  exact of_shows ended.1 sound.lends sound.stands sound.lists

theorem remount_sound (sound : library.Sound storage origin n volume) :
    Step.Yields Volume.remount volume fun _ after => library.Sound storage origin n after := by
  apply Step.Yields.imp (Volume.remount_yields sound.shows)
  intro _ after isAfter
  exact of_shows isAfter sound.lends sound.stands (.nothing library _ _)

end Library.Sound

end Residency
