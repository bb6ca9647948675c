import Residency.Proofs.Volume.Files

/-!
# The openers of a file

What opening, closing and mounting again do to the table of open files, where a file may have
several openers.

* `openFile_again_yields`: a file that is open gets another opener;
* `close_early_yields`, `close_last_yields` and `close_removed_yields`: an opener goes, and with the
  last one the file leaves the registry and, if it was removed, gives back its sectors;
* `remount_yields`: no file is open any more, and nothing else has changed.
-/

namespace Residency

namespace Inode

variable {inode : Inode}

theorem addOpener_yields (fits : inode.opens + 1 < wordLimit) :
    Step.Yields addOpener inode fun _ after =>
      after = { inode with opens := inode.opens + 1 } := by
  simp only [addOpener, Step.ends_bind, Step.ends_get, Step.ends_addSizes, if_pos fits,
    Step.ends_modify]

theorem dropOpener_yields (isOpen : 0 < inode.opens) :
    Step.Yields dropOpener inode fun last after =>
      last = (inode.opens == 1) ∧ after = { inode with opens := inode.opens - 1 } := by
  simp only [dropOpener, Step.ends_bind, Step.ends_get, Step.ends_ensure, decide_eq_true isOpen,
    Step.ends_set, Step.ends_pure, if_true]
  exact ⟨trivial, trivial⟩

theorem deny_yields (fits : inode.opens < wordLimit) (some_left : inode.denials < inode.opens) :
    Step.Yields deny inode fun _ after =>
      after = { inode with denials := inode.denials + 1 } := by
  have small : inode.denials + 1 < wordLimit := Nat.lt_of_le_of_lt some_left fits
  simp only [deny, Step.ends_bind, Step.ends_get, Step.ends_addSizes, if_pos small,
    Step.ends_modify, Step.ends_ensure, decide_eq_true (Nat.succ_le_of_lt some_left), if_true]

theorem allow_yields (denied : 0 < inode.denials) (bounded : inode.denials ≤ inode.opens) :
    Step.Yields allow inode fun _ after =>
      after = { inode with denials := inode.denials - 1 } := by
  simp only [allow, Step.ends_bind, Step.ends_get, Step.ends_ensure, decide_eq_true denied,
    decide_eq_true bounded, Step.ends_set, if_true]

theorem remove_yields : Step.Yields remove inode fun _ after =>
    after = { inode with removed := true } :=
  (Step.ends_modify _).mpr rfl

end Inode

namespace OpenFiles

variable {files : OpenFiles} {id : InodeId} {inode : Inode}

theorem get?_set (found : files.get? id = some inode) (new : Inode) (other : InodeId) :
    (files.set id new).get? other = if other = id then some new else files.get? other := by
  obtain ⟨inside, -⟩ := Array.getElem?_eq_some_iff.mp found
  obtain ⟨index⟩ := id
  obtain ⟨place⟩ := other
  simp only [get?, set, Array.getElem?_setIfInBounds, InodeId.mk.injEq, eq_comm (a := index),
    inside, if_true]

theorem set_set (files : OpenFiles) (id : InodeId) (first second : Inode) :
    (files.set id first).set id second = files.set id second := by
  simp only [set, Array.setIfInBounds_setIfInBounds]

theorem get?_opened_eq (files : OpenFiles) (sector : SectorNo) (descriptor : Descriptor)
    (other : InodeId) :
    (files.opened sector descriptor).get? other =
      if other = ⟨files.inodes.size⟩ then some { sector, descriptor } else files.get? other := by
  obtain ⟨place⟩ := other
  simp only [get?, opened, Array.getElem?_push, InodeId.mk.injEq]

theorem registry_opened (files : OpenFiles) (sector : SectorNo) (descriptor : Descriptor)
    (other : SectorNo) :
    (files.opened sector descriptor).registry[other]? =
      if other = sector then some ⟨files.inodes.size⟩ else files.registry[other]? := by
  simp only [opened, Std.ExtTreeMap.getElem?_insert, Std.LawfulEqCmp.compare_eq_iff_eq,
    eq_comm (a := sector)]

theorem get?_closed (found : files.get? id = some inode) (other : InodeId) :
    (files.closed id inode).get? other =
      if other = id then some { inode with opens := 0 } else files.get? other :=
  get?_set found _ other

theorem registry_closed (files : OpenFiles) (id : InodeId) (inode : Inode) (other : SectorNo) :
    (files.closed id inode).registry[other]? =
      if other = inode.sector then none else files.registry[other]? := by
  simp only [closed, unregister, set, Std.ExtTreeMap.getElem?_erase,
    Std.LawfulEqCmp.compare_eq_iff_eq, eq_comm (a := inode.sector)]

end OpenFiles

namespace Volume

variable {δ : Type} [BlockDevice δ] {N : Nat} {storage : Storage δ N} {volume : Volume δ}
  {sectors : SectorNo → Sector} {map : Bitmap} {files : OpenFiles} {sector : SectorNo}
  {id : InodeId} {inode : Inode}

theorem openFile_again_yields (isShown : volume.Shows storage sectors map files)
    (isOpen : files.registry[sector]? = some id) (found : files.get? id = some inode)
    (fits : inode.opens + 1 < wordLimit) :
    Step.Yields (openFile sector) volume fun result after => result = id ∧
      after.Shows storage sectors map (files.set id { inode with opens := inode.opens + 1 }) := by
  simp only [openFile, Step.ends_bind, Step.ends_get, isShown.files, isOpen, Step.ends_pure]
  apply Step.Yields.imp (onInode_yields isShown found (Inode.addOpener_yields fits))
  intro _ after ended
  obtain ⟨_, rfl, isAfter⟩ := ended
  exact ⟨trivial, isAfter⟩

/-! ## Closing -/

/-- An opener closes a file that others have open. -/
theorem close_early_yields (isShown : volume.Shows storage sectors map files)
    (found : files.get? id = some inode) (others : 1 < inode.opens) :
    Step.Yields (close id) volume fun _ after =>
      after.Shows storage sectors map (files.set id { inode with opens := inode.opens - 1 }) := by
  apply Step.Yields.bind (onInode_yields isShown found (Inode.dropOpener_yields (by omega)))
  intro _ dropped ended
  obtain ⟨_, ⟨rfl, rfl⟩, isDropped⟩ := ended
  have notLast : ¬ (inode.opens == 1) = true := by
    rw [beq_iff_eq]
    omega
  rw [if_neg notLast]
  exact (Step.ends_pure _).mpr isDropped

/-- The last opener closes a file; what is left is to give back the sectors if it was removed. -/
theorem close_unregisters (isShown : volume.Shows storage sectors map files)
    (found : files.get? id = some inode) (last : inode.opens = 1) {done : Unit → Volume δ → Prop}
    (continues : ∀ between : Volume δ,
      between.Shows storage sectors map (files.closed id inode) →
      Step.Yields (do
        if inode.removed then
          release inode.sector 1
          release inode.descriptor.start inode.descriptor.sectors) between done) :
    Step.Yields (close id) volume done := by
  apply Step.Yields.bind (onInode_yields isShown found (Inode.dropOpener_yields (by omega)))
  intro _ dropped ended
  obtain ⟨_, ⟨rfl, rfl⟩, isDropped⟩ := ended
  rw [last] at isDropped
  -- the inode that is looked at after counting is the one that was put back
  have foundAgain : (files.set id { inode with opens := 0 }).get? id =
      some { inode with opens := 0 } := by
    rw [OpenFiles.get?_set found, if_pos rfl]
  rw [last, beq_self_eq_true, if_pos rfl]
  apply Step.Yields.bind (getInode_yields isDropped foundAgain)
  intro _ looked ended
  obtain ⟨rfl, isLooked⟩ := ended
  simp only [Step.ends_bind, Step.ends_modify]
  apply continues
  exact ⟨isLooked.coherent, isLooked.view, isLooked.map, by rw [isLooked.files]; rfl⟩

/-- The last opener of a file that was not removed closes it. -/
theorem close_last_yields (isShown : volume.Shows storage sectors map files)
    (found : files.get? id = some inode) (last : inode.opens = 1) (kept : inode.removed = false) :
    Step.Yields (close id) volume fun _ after =>
      after.Shows storage sectors map (files.closed id inode) := by
  apply close_unregisters isShown found last
  intro between isBetween
  rw [kept, if_neg Bool.false_ne_true]
  exact (Step.ends_pure _).mpr isBetween

/-- The last opener of a file that was removed closes it; `mapBetween` is the map in which its
descriptor is free already. -/
theorem close_removed_yields (isShown : volume.Shows storage sectors map files)
    (found : files.get? id = some inode) (last : inode.opens = 1) (removed : inode.removed = true)
    {mapBetween : Bitmap} (between_eq : map.flipRange inode.sector.toNat 1 = mapBetween)
    (descriptorInside : inode.sector.toNat + 1 ≤ map.capacity)
    (descriptorUsed : map.isUsed inode.sector.toNat = true)
    (dataInside : inode.descriptor.start.toNat + inode.descriptor.sectors ≤ map.capacity)
    (dataUsed : ∀ t, inode.descriptor.start.toNat ≤ t →
      t < inode.descriptor.start.toNat + inode.descriptor.sectors → mapBetween.isUsed t = true) :
    Step.Yields (close id) volume fun _ after => after.Shows storage sectors
      (mapBetween.flipRange inode.descriptor.start.toNat inode.descriptor.sectors)
      (files.closed id inode) := by
  subst between_eq
  have fits (start : SectorNo) {count : Nat} (small : count ≤ 2 ^ 22) :
      start.toNat + count < wordLimit :=
    Nat.lt_of_lt_of_le (Nat.add_lt_add_of_lt_of_le start.toNat_lt small) (by decide)
  apply close_unregisters isShown found last
  intro between isBetween
  rw [removed, if_pos rfl]
  apply Step.Yields.bind (release_yields isBetween descriptorInside (fits _ (by decide))
    fun t low high => by rw [show t = inode.sector.toNat by omega, descriptorUsed])
  intro _ released isReleased
  exact release_yields isReleased (by rw [Bitmap.capacity_flipRange]; exact dataInside)
    (fits _ inode.descriptor.sectors_le) dataUsed

/-! ## Mounting again -/

theorem remount_yields (isShown : volume.Shows storage sectors map files) :
    Step.Yields remount volume fun _ after => after.Shows storage sectors map {} := by
  simp only [remount, Step.ends_on]
  apply Step.Yields.imp isShown.coherent.flush_yields
  intro _ cache ended
  obtain ⟨coherent, -, device⟩ := ended
  -- what is on the device is all that a new cache shows
  obtain ⟨fresh, view⟩ := Cache.Coherent.fresh storage coherent.serves
  exact ⟨fresh, view.trans (device.trans isShown.view), isShown.map, rfl⟩

end Volume

end Residency
