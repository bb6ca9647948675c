import Residency.Proofs.Volume.Openers

/-!
# Calls on inodes

What one opener can do with an inode: open it, open it again, close it and remove it.

`InodeCall.Does` says what such a call does, and `InodeCall.Stops` why it can stop; by `call_ends`
there is nothing else.  Whichever call it was, one inode becomes another, or appears, and no other
one changes: `becomes_of_does` puts all calls in the form of `Becomes`.
-/

namespace Residency

/-- What an opener can do with inodes. -/
inductive InodeCall where
  | openFile (sector : SectorNo)
  | reopen (id : InodeId)
  | close (id : InodeId)
  | remove (id : InodeId)
deriving DecidableEq

/-- The requests to the map by which an inode that is given up loses its sectors, the latest
first. -/
def Inode.releases (inode : Inode) : List MapCall :=
  [.release inode.descriptor.start inode.descriptor.sectors, .release inode.sector 1]

/-- The same on the map itself. -/
def Inode.giveBack (inode : Inode) : Step Bitmap Unit := do
  Bitmap.release inode.sector 1
  Bitmap.release inode.descriptor.start inode.descriptor.sectors

variable {δ : Type}

/-! ## One inode -/

namespace Volume

section Inodes

variable {volume : Volume δ} {id : InodeId} {inode : Inode}

/-- The registry leads to the inodes that are open, to each under its own sector. -/
def Registers (volume : Volume δ) : Prop :=
  ∀ sector id, volume.files.registry[sector]? = some id ↔
    ∃ inode, volume.inode? id = some inode ∧ inode.sector = sector ∧ 0 < inode.opens

/-- One inode becomes `new`, or appears as that, and is given up if nobody has it open and it was
removed.  Nobody has another inode open under the same sector. -/
structure Becomes (volume after : Volume δ) (id : InodeId) (new : Inode) : Prop where
  inodes : ∀ other, after.inode? other = if other = id then some new else volume.inode? other
  registry : ∀ sector, after.files.registry[sector]? =
    if sector = new.sector then if 0 < new.opens then some id else none
    else volume.files.registry[sector]?
  before : ∀ inode, volume.inode? id = some inode → 0 < inode.opens ∧ inode.sector = new.sector
  alone : ∀ other inode, volume.inode? other = some inode → inode.sector = new.sector →
    0 < inode.opens → other = id
  mapCalls : after.mapCalls =
    (if new.opens = 0 ∧ new.removed = true then new.releases else []) ++ volume.mapCalls

theorem Registers.alone (registers : volume.Registers) {other : InodeId} {inode' : Inode}
    (found : volume.inode? id = some inode) (isOpen : 0 < inode.opens)
    (foundThere : volume.inode? other = some inode') (isOpenThere : 0 < inode'.opens)
    (same : inode'.sector = inode.sector) : other = id := by
  have here := (registers inode.sector id).mpr ⟨inode, found, rfl, isOpen⟩
  have there := (registers inode.sector other).mpr ⟨inode', foundThere, same, isOpenThere⟩
  exact Option.some.inj (there.symm.trans here)

section Becoming

variable (registers : volume.Registers)
include registers

theorem becomes_put (found : volume.inode? id = some inode) (isOpen : 0 < inode.opens)
    {new : Inode} (sector : new.sector = inode.sector) (stillOpen : 0 < new.opens) :
    volume.Becomes { volume with files := volume.files.set id new } id new where
  inodes := OpenFiles.get?_set found new
  registry other := by
    by_cases same : other = new.sector
    · rw [if_pos same, if_pos stillOpen]
      exact (registers other id).mpr ⟨inode, found, (same.trans sector).symm, isOpen⟩
    · exact (if_neg same).symm
  before other foundToo := by
    cases found.symm.trans foundToo
    exact ⟨isOpen, sector.symm⟩
  alone other inode' foundThere same isOpenThere :=
    registers.alone found isOpen foundThere isOpenThere (same.trans sector)
  mapCalls := by rw [if_neg fun gone => Nat.ne_of_gt stillOpen gone.1, List.nil_append]

theorem becomes_closed (found : volume.inode? id = some inode) (isOpen : 0 < inode.opens)
    (after : Volume δ) (files : after.files = volume.files.closed id inode)
    (mapCalls : after.mapCalls =
      (if inode.removed = true then inode.releases else []) ++ volume.mapCalls) :
    volume.Becomes after id { inode with opens := 0 } where
  inodes other := by
    rw [inode?, files]
    exact OpenFiles.get?_closed found other
  registry other := by
    rw [files]
    exact OpenFiles.registry_closed ..
  before other foundToo := by
    cases found.symm.trans foundToo
    exact ⟨isOpen, rfl⟩
  alone other inode' foundThere same isOpenThere :=
    registers.alone found isOpen foundThere isOpenThere same
  mapCalls := by
    rw [mapCalls]
    simp only [true_and]
    rfl

theorem becomes_new {sector : SectorNo} {descriptor : Descriptor}
    (notOpen : volume.files.registry[sector]? = none) (after : Volume δ)
    (files : after.files = volume.files.opened sector descriptor)
    (mapCalls : after.mapCalls = volume.mapCalls) :
    volume.Becomes after ⟨volume.files.inodes.size⟩ { sector, descriptor } where
  inodes other := by
    rw [inode?, files]
    exact OpenFiles.get?_opened_eq ..
  registry other := by
    rw [files]
    exact OpenFiles.registry_opened ..
  before inode found := by
    rw [inode?, OpenFiles.get?, Array.getElem?_size] at found
    cases found
  alone other inode found same isOpen := by
    rw [(registers sector other).mpr ⟨inode, found, same, isOpen⟩] at notOpen
    cases notOpen
  mapCalls := by rw [mapCalls, if_neg fun gone => Nat.one_ne_zero gone.1, List.nil_append]

end Becoming

end Inodes

end Volume

/-! ## Calls -/

variable [BlockDevice δ]

namespace InodeCall

/-- Makes a call; gives the inode that it was about. -/
def step : InodeCall → Step (Volume δ) InodeId
  | .openFile sector => Volume.openFile sector
  | .reopen id => do
    Volume.reopen id
    return id
  | .close id => do
    Volume.close id
    return id
  | .remove id => do
    Volume.remove id
    return id

def isOpening : InodeCall → Bool
  | .openFile _ | .reopen _ => true
  | .close _ | .remove _ => false

def isClosing : InodeCall → Bool
  | .close _ => true
  | .openFile _ | .reopen _ | .remove _ => false

/-- Nobody uses an inode that he has not open. -/
def Permitted (volume : Volume δ) : InodeCall → Prop
  | .openFile _ => True
  | .reopen id | .close id | .remove id => ∃ inode, volume.inode? id = some inode ∧ 0 < inode.opens

/-- What a call on an inode does. -/
inductive Does (volume after : Volume δ) : InodeCall → InodeId → Prop where
  /-- The sector is open: its inode gets another opener. -/
  | again {sector : SectorNo} {id : InodeId} {inode : Inode}
      (isOpen : volume.files.registry[sector]? = some id) (found : volume.inode? id = some inode)
      (same : after = { volume with
        files := volume.files.set id { inode with opens := inode.opens + 1 } }) :
      Does volume after (.openFile sector) id
  | new {sector : SectorNo} {descriptor : Descriptor}
      (notOpen : volume.files.registry[sector]? = none)
      (run : (Cache.readDescriptor sector).run volume.cache = .ok descriptor after.cache)
      (files : after.files = volume.files.opened sector descriptor)
      (map : after.map = volume.map) (mapCalls : after.mapCalls = volume.mapCalls) :
      Does volume after (.openFile sector) ⟨volume.files.inodes.size⟩
  | reopened {id : InodeId} {inode : Inode} (found : volume.inode? id = some inode)
      (same : after = { volume with
        files := volume.files.set id { inode with opens := inode.opens + 1 } }) :
      Does volume after (.reopen id) id
  | removed {id : InodeId} {inode : Inode} (found : volume.inode? id = some inode)
      (same : after = { volume with files := volume.files.set id { inode with removed := true } }) :
      Does volume after (.remove id) id
  | closedEarly {id : InodeId} {inode : Inode} (found : volume.inode? id = some inode)
      (others : 1 < inode.opens)
      (same : after = { volume with
        files := volume.files.set id { inode with opens := inode.opens - 1 } }) :
      Does volume after (.close id) id
  | closedLast {id : InodeId} {inode : Inode} (found : volume.inode? id = some inode)
      (last : inode.opens = 1) (kept : inode.removed = false)
      (same : after = { volume with files := volume.files.closed id inode }) :
      Does volume after (.close id) id
  /-- The last opener of an inode that was removed: its sectors go back to the map. -/
  | released {id : InodeId} {inode : Inode} {map : Bitmap} (found : volume.inode? id = some inode)
      (last : inode.opens = 1) (removed : inode.removed = true)
      (run : inode.giveBack.run volume.map = .ok () map)
      (same : after = { volume with
        map, files := volume.files.closed id inode, mapCalls := inode.releases ++ volume.mapCalls }) :
      Does volume after (.close id) id

/-- Why a call stops: a descriptor cannot be read, or the map does not take sectors back. -/
def Stops (volume : Volume δ) (fault : Fault) : InodeCall → Prop
  | .openFile sector => volume.files.registry[sector]? = none ∧
      ∃ cache, (Cache.readDescriptor sector).run volume.cache = .error fault cache
  | .close id => ∃ inode map, volume.inode? id = some inode ∧ inode.opens = 1 ∧
      inode.removed = true ∧ inode.giveBack.run volume.map = .error fault map
  | .reopen _ | .remove _ => False

end InodeCall

namespace Volume

section Calls

variable {volume : Volume δ} {id : InodeId} {inode : Inode}

omit [BlockDevice δ] in
theorem ends_onInode {α : Type} (found : volume.inode? id = some inode) (step : Step Inode α)
    {done : α → Volume δ → Prop} {stopped : Fault → Volume δ → Prop} :
    Step.Ends (onInode id step) volume done stopped ↔
      Step.Ends step inode
        (fun a after => done a { volume with files := volume.files.set id after })
        fun fault after => stopped fault { volume with files := volume.files.set id after } := by
  simp only [onInode, onFiles, Step.ends_on, OpenFiles.ends_onInode found]

omit [BlockDevice δ] in
theorem giveBack_ends (volume : Volume δ) (inode : Inode) :
    Step.Ends (do
        release inode.sector 1
        release inode.descriptor.start inode.descriptor.sectors) volume
      (fun _ after => ∃ map, inode.giveBack.run volume.map = .ok () map ∧
        after = { volume with map, mapCalls := inode.releases ++ volume.mapCalls })
      fun fault _ => ∃ map, inode.giveBack.run volume.map = .error fault map := by
  simp only [release, noteMapCall, onMap, Step.ends_bind, Step.ends_modify, Step.ends_on]
  apply (Step.ends_run _ _).imp
  · intro _ between first
    apply (Step.ends_run _ _).imp
    · intro _ map second
      exact ⟨map, (Step.run_bind_of_ok first).trans second, rfl⟩
    · intro _ map second
      exact ⟨map, (Step.run_bind_of_ok first).trans second⟩
  · intro _ map first
    exact ⟨map, Step.run_bind_of_error first⟩

theorem openFile_ends {sector : SectorNo} (notOpen : volume.files.registry[sector]? = none) :
    Step.Ends (openFile sector) volume
      (fun id after => (InodeCall.openFile sector).Does volume after id)
      fun fault after => (InodeCall.openFile sector).Stops volume fault ∧
        after.files = volume.files := by
  simp only [openFile, onCache, Step.ends_bind, Step.ends_get, notOpen, Step.ends_on]
  apply (Step.ends_run _ _).imp
  · intro descriptor cache run
    simp only [warn, onFiles, OpenFiles.add]
    split
    · simp only [Step.ends_on, Step.ends_modifyGet]
      exact .new notOpen run rfl rfl rfl
    · simp only [Step.ends_bind, Step.ends_modify, Step.ends_on, Step.ends_modifyGet]
      exact .new notOpen run rfl rfl rfl
  · intro fault cache run
    exact ⟨⟨notOpen, cache, run⟩, trivial⟩

theorem close_ends (found : volume.inode? id = some inode) (isOpen : 0 < inode.opens) :
    Step.Ends (close id) volume (fun _ after => (InodeCall.close id).Does volume after id)
      fun fault _ => (InodeCall.close id).Stops volume fault := by
  simp only [close, Step.ends_bind, ends_onInode found]
  apply Step.Yields.imp (Inode.dropOpener_yields isOpen)
  rintro _ _ ⟨rfl, rfl⟩
  by_cases last : inode.opens = 1
  · -- the inode that is looked at after counting is the one that was put back
    have foundAgain : inode? { volume with
        files := volume.files.set id { inode with opens := 0 } } id =
          some { inode with opens := 0 } := by
      rw [inode?, OpenFiles.get?_set found, if_pos rfl]
    rw [last, beq_self_eq_true, if_pos rfl]
    simp only [Step.ends_bind, ends_onInode foundAgain, Step.ends_get, Step.ends_modify,
      OpenFiles.set_set]
    by_cases removed : inode.removed = true
    · rw [if_pos removed]
      apply (giveBack_ends _ { inode with opens := 0 }).imp
      · rintro _ _ ⟨map, run, rfl⟩
        exact .released found last removed run rfl
      · rintro fault _ ⟨map, run⟩
        exact ⟨inode, map, found, last, removed, run⟩
    · rw [if_neg removed, Step.ends_pure]
      exact .closedLast found last (Bool.eq_false_iff.mpr removed) rfl
  · rw [if_neg (by rw [beq_iff_eq]; exact last), Step.ends_pure]
    exact .closedEarly found (by omega) rfl

theorem call_ends (registers : volume.Registers) {call : InodeCall}
    (permitted : call.Permitted volume)
    (fits : call.isOpening = true → ∀ id inode, volume.inode? id = some inode →
      inode.opens + 1 < wordLimit) :
    Step.Ends call.step volume (fun id after => call.Does volume after id)
      fun fault _ => call.Stops volume fault := by
  cases call with
  | openFile sector =>
    cases isOpen : volume.files.registry[sector]? with
    | none => exact (openFile_ends isOpen).imp (fun _ _ => id) fun _ _ => And.left
    | some id =>
      obtain ⟨inode, found, -, -⟩ := (registers sector id).mp isOpen
      simp only [InodeCall.step, openFile, Step.ends_bind, Step.ends_get, isOpen, Step.ends_pure,
        ends_onInode found]
      apply Step.Yields.imp (Inode.addOpener_yields (fits rfl id inode found))
      rintro _ _ rfl
      exact .again isOpen found rfl
  | reopen id =>
    obtain ⟨inode, found, -⟩ := permitted
    simp only [InodeCall.step, reopen, Step.ends_bind, Step.ends_pure, ends_onInode found]
    apply Step.Yields.imp (Inode.addOpener_yields (fits rfl id inode found))
    rintro _ _ rfl
    exact .reopened found rfl
  | close id =>
    obtain ⟨inode, found, isOpen⟩ := permitted
    simp only [InodeCall.step, Step.ends_bind, Step.ends_pure]
    exact close_ends found isOpen
  | remove id =>
    obtain ⟨inode, found, -⟩ := permitted
    simp only [InodeCall.step, remove, Step.ends_bind, Step.ends_pure, ends_onInode found]
    apply Step.Yields.imp Inode.remove_yields
    rintro _ _ rfl
    exact .removed found rfl

/-- Every call makes one inode become another, which has the openers and the mark that the call
gives it. -/
theorem becomes_of_does (registers : volume.Registers) {after : Volume δ} {call : InodeCall}
    (permitted : call.Permitted volume)
    (does : call.Does volume after id) :
    ∃ new, volume.Becomes after id new ∧
      new.opens + call.isClosing.toNat =
        (volume.inode? id).elim 0 Inode.opens + call.isOpening.toNat ∧
      (new.removed = true ↔
        call = .remove id ∨ ∃ inode, volume.inode? id = some inode ∧ inode.removed = true) := by
  cases does with
  | @again sector id inode isOpen found same =>
    obtain ⟨_, foundToo, -, isOpen⟩ := (registers sector id).mp isOpen
    cases found.symm.trans foundToo
    subst same
    refine ⟨_, becomes_put registers found isOpen rfl (Nat.succ_pos _), ?_, ?_⟩
    · simp [found, InodeCall.isClosing, InodeCall.isOpening]
    · simp [found]
  | new notOpen run files map mapCalls =>
    have missing : volume.inode? ⟨volume.files.inodes.size⟩ = none := Array.getElem?_size
    refine ⟨_, becomes_new registers notOpen after files mapCalls, ?_, ?_⟩
    · simp [missing, InodeCall.isClosing, InodeCall.isOpening]
    · simp [missing]
  | reopened found same =>
    obtain ⟨_, foundToo, isOpen⟩ := permitted
    cases found.symm.trans foundToo
    subst same
    refine ⟨_, becomes_put registers found isOpen rfl (Nat.succ_pos _), ?_, ?_⟩
    · simp [found, InodeCall.isClosing, InodeCall.isOpening]
    · simp [found]
  | removed found same =>
    obtain ⟨_, foundToo, isOpen⟩ := permitted
    cases found.symm.trans foundToo
    subst same
    refine ⟨_, becomes_put registers found isOpen rfl isOpen, ?_, ?_⟩
    · simp [found, InodeCall.isClosing, InodeCall.isOpening]
    · simp
  | closedEarly found others same =>
    subst same
    refine ⟨_, becomes_put registers found (Nat.lt_of_succ_lt others) rfl
      (Nat.sub_pos_of_lt others), ?_, ?_⟩
    · simp [found, InodeCall.isClosing, InodeCall.isOpening]
      omega
    · simp [found]
  | closedLast found last kept same =>
    subst same
    refine ⟨_, becomes_closed registers found (by omega) _ rfl (by simp [kept]), ?_, ?_⟩
    · simp [found, last, InodeCall.isClosing, InodeCall.isOpening]
    · simp [found]
  | released found last removed run same =>
    subst same
    refine ⟨_, becomes_closed registers found (by omega) _ rfl (by simp [removed]), ?_, ?_⟩
    · simp [found, last, InodeCall.isClosing, InodeCall.isOpening]
    · simp [found]

end Calls

end Volume

end Residency
