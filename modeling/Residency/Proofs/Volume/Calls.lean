import Residency.Proofs.Volume.Keeping

/-!
# Runs of calls on a volume

A `FileCall` is anything that can be asked of the files of a volume.  `Reaches` follows a run of
permitted calls from a volume on which no file was stored yet, and keeps account of the live files:
`Library.after` says which there are after a call, and with which bytes.

`call_yields` says that a permitted call ends without a fault, keeps the library sound and is
answered as `FileCall.Answered` says; `Reaches.sound` carries the first of these through a run.
-/

namespace Residency

inductive FileCall where
  | store (data : List UInt8)
  | load (sector : SectorNo)
  | openFile (sector : SectorNo)
  | reopen (id : InodeId)
  | close (id : InodeId)
  | remove (id : InodeId)
  | readAt (id : InodeId) (position : Nat) (buffer : List UInt8)
  | writeAt (id : InodeId) (position : Nat) (data : List UInt8)
  | deny (id : InodeId)
  | allow (id : InodeId)
  | flush
  | remount

inductive FileAnswer where
  | done
  | stored (result : Except NoSpace SectorNo)
  | loaded (bytes : List UInt8)
  | opened (id : InodeId)
  | read (count : Nat) (buffer : List UInt8)
  | written (count : Nat)

variable {δ : Type} [BlockDevice δ] {N : Nat}

namespace FileCall

def step : FileCall → Step (Volume δ) FileAnswer
  | .store data => return .stored (← Volume.store data)
  | .load sector => return .loaded (← Volume.load sector)
  | .openFile sector => return .opened (← Volume.openFile sector)
  | .reopen id => do
    Volume.reopen id
    return .done
  | .close id => do
    Volume.close id
    return .done
  | .remove id => do
    Volume.remove id
    return .done
  | .readAt id position buffer => do
    let (count, filled) ← Volume.readAt id position buffer
    return .read count filled
  | .writeAt id position data => return .written (← Volume.writeAt id position data)
  | .deny id => do
    Volume.deny id
    return .done
  | .allow id => do
    Volume.allow id
    return .done
  | .flush => do
    Volume.flush
    return .done
  | .remount => do
    Volume.remount
    return .done

/-- What a caller has to see to: files are opened by the sectors of live ones, nobody closes or
opens again a file that is not open, and writing is denied and allowed in turn.  `mayWrite` says
through which inodes he writes. -/
def Permitted (mayWrite : Library → Inode → Prop) (library : Library) (volume : Volume δ) :
    FileCall → Prop
  | .store _ | .flush | .remount => True
  | .load sector | .openFile sector => ∃ file ∈ library, file.sector = sector
  | .reopen id | .close id => ∃ inode, volume.inode? id = some inode ∧ 0 < inode.opens
  | .remove id | .readAt id _ _ => ∃ inode, volume.inode? id = some inode
  | .writeAt id _ _ => ∃ inode, volume.inode? id = some inode ∧ mayWrite library inode
  | .deny id => ∃ inode, volume.inode? id = some inode ∧ inode.denials < inode.opens
  | .allow id =>
    ∃ inode, volume.inode? id = some inode ∧ 0 < inode.denials ∧ inode.denials ≤ inode.opens

/-- What the answer has to be, and the volume after it. -/
def Answered (library : Library) (volume after : Volume δ) (answer : FileAnswer) :
    FileCall → Prop
  | .store _ => answer = .stored (.error .noSpace) ∨
      ∃ sector, answer = .stored (.ok sector) ∧ ∀ file ∈ library, file.sector ≠ sector
  | .load sector => ∀ file ∈ library, file.sector = sector → answer = .loaded file.contents
  | .openFile sector => ∃ id inode file, answer = .opened id ∧ after.inode? id = some inode ∧
      file ∈ library ∧ file.sector = sector ∧ file.IsUnder inode ∧ 0 < inode.opens
  | .readAt id position buffer => ∀ inode, volume.inode? id = some inode →
      ∀ file ∈ library, file.IsUnder inode →
        ∃ bytes, bytes = (file.contents.drop position).take buffer.length ∧
          answer = .read bytes.length (bytes ++ buffer.drop bytes.length)
  | .writeAt id position data => ∀ inode, volume.inode? id = some inode →
      ∀ file ∈ library, file.IsUnder inode → answer = .written
        (if 0 < inode.denials then 0 else min data.length (file.contents.length - position))
  | .reopen _ | .close _ | .remove _ | .deny _ | .allow _ | .flush | .remount => answer = .done

end FileCall

/-- The live files after a call. -/
def Library.after (storage : Storage δ N) (library : Library) (volume : Volume δ)
    (call : FileCall) (answer : FileAnswer) (after : Volume δ) : Library :=
  match call, answer with
  | .store data, .stored (.ok sector) => .shownAt storage after sector data :: library
  | .writeAt id position data, _ =>
    (volume.inode? id).elim library fun inode =>
      if 0 < inode.denials then library else library.written inode position data
  | .close id, _ =>
    (volume.inode? id).elim library fun inode =>
      if inode.opens = 1 ∧ inode.removed = true then library.without inode.sector else library
  | _, _ => library

/-- The volumes that runs of permitted calls lead to, with the number of the calls and the files
that are live by then. -/
inductive Reaches (storage : Storage δ N) (mayWrite : Library → Inode → Prop)
    (start : Volume δ) : Nat → Library → Volume δ → Prop where
  | start : Reaches storage mayWrite start 0 [] start
  | call {n : Nat} {library : Library} {volume after : Volume δ} {call : FileCall}
      {answer : FileAnswer} (reached : Reaches storage mayWrite start n library volume)
      (permitted : call.Permitted mayWrite library volume)
      (run : call.step.run volume = .ok answer after) :
      Reaches storage mayWrite start (n + 1) (library.after storage volume call answer after) after

section Extending

variable {n : Nat} {storage : Storage δ N} {library : Library} {start volume : Volume δ}
  {mayWrite : Library → Inode → Prop}

/-- A run goes on with a call of which it is known how it ends. -/
theorem Reaches.next (reached : Reaches storage mayWrite start n library volume) (call : FileCall)
    (permitted : call.Permitted mayWrite library volume) {done : FileAnswer → Volume δ → Prop}
    (yields : Step.Yields call.step volume done) :
    ∃ answer after, call.step.run volume = .ok answer after ∧
      Reaches storage mayWrite start (n + 1) (library.after storage volume call answer after) after ∧
        done answer after := by
  obtain ⟨answer, after, run, holds⟩ := yields.run
  exact ⟨answer, after, run, reached.call permitted run, holds⟩

/-- A run goes on by storing a file in the sectors that the map gives out. -/
theorem Reaches.store {sectors : SectorNo → Sector} {map map₁ map₂ : Bitmap} {files : OpenFiles}
    (reached : Reaches storage mayWrite start n library volume)
    (isShown : volume.Shows storage sectors map files) (addressable : N ≤ UInt32.size)
    (data : List UInt8) (sector place : SectorNo) (small : data.length ≤ Descriptor.maxLength)
    (first : map.allocate 1 = (some sector, map₁))
    (second : map₁.allocate (sectorsFor data.length) = (some place, map₂))
    (inside : sector.toNat < N) (within : place.toNat + sectorsFor data.length ≤ N)
    (apart : Apart sector place data.length) (notOpen : files.registry[sector]? = none) :
    ∃ after, Reaches storage mayWrite start (n + 1)
        ({ sector, start := place, contents := data } :: library) after ∧
      after.Shows storage (stored sectors sector place data) map₂
        (files.visited sector (.ofRun place (.ofNat data.length))) := by
  have yields : Step.Yields (FileCall.store data).step volume fun answer after =>
      answer = .stored (.ok sector) ∧ after.Shows storage (stored sectors sector place data) map₂
        (files.visited sector (.ofRun place (.ofNat data.length))) := by
    apply Step.Yields.bind (Volume.store_yields isShown addressable small first second inside within
      apart notOpen)
    rintro _ after ⟨rfl, isAfter⟩
    exact (Step.ends_pure _).mpr ⟨rfl, isAfter⟩
  obtain ⟨_, after, -, reaches, rfl, isAfter⟩ := reached.next (.store data) trivial yields
  refine ⟨after, ?_, isAfter⟩
  rw [← LiveFile.shownAt_of_stored isAfter]
  exact reaches

section Opening

variable {sectors : SectorNo → Sector} {map : Bitmap} {files : OpenFiles}
  (isShown : volume.Shows storage sectors map files)
include isShown

/-- A run goes on by opening a live file that is not open. -/
theorem Reaches.openFile {file : LiveFile}
    (reached : Reaches storage mayWrite start n library volume) (member : file ∈ library)
    (inside : file.sector.toNat < N)
    (described : Descriptor.decode (sectors file.sector) = file.descriptor)
    (notOpen : files.registry[file.sector]? = none) :
    ∃ after, Reaches storage mayWrite start (n + 1) library after ∧
      after.Shows storage sectors map (files.opened file.sector file.descriptor) ∧
      after.inode? ⟨files.inodes.size⟩ =
        some { sector := file.sector, descriptor := file.descriptor } := by
  have yields : Step.Yields (FileCall.openFile file.sector).step volume fun _ after =>
      after.Shows storage sectors map (files.opened file.sector file.descriptor) := by
    apply Step.Yields.bind (Volume.openFile_yields isShown inside notOpen)
    rintro _ after ⟨-, isAfter⟩
    rw [described] at isAfter
    exact (Step.ends_pure _).mpr isAfter
  obtain ⟨_, after, -, reaches, isAfter⟩ :=
    reached.next (.openFile file.sector) ⟨file, member, rfl⟩ yields
  refine ⟨after, reaches, isAfter, ?_⟩
  rw [Volume.inode?, isAfter.files]
  exact OpenFiles.get?_opened ..

/-- A call that turns one inode into another, as removing, denying and allowing do. -/
theorem FileCall.turn_yields (call : FileCall) {id : InodeId} {turn : Step Inode Unit}
    (step_eq : call.step = do
      Volume.onInode (δ := δ) id turn
      return FileAnswer.done)
    {inode new : Inode} (found : volume.inode? id = some inode)
    (turns : Step.Yields turn inode fun _ after => after = new) :
    Step.Yields call.step volume fun answer after =>
      answer = .done ∧ after.Shows storage sectors map (files.set id new) ∧
        after.inode? id = some new := by
  rw [Volume.inode?, isShown.files] at found
  rw [step_eq]
  apply Step.Yields.bind (Volume.onInode_yields isShown found turns)
  rintro _ after ⟨_, rfl, isAfter⟩
  refine (Step.ends_pure _).mpr ⟨rfl, isAfter, ?_⟩
  rw [Volume.inode?, isAfter.files, OpenFiles.get?_set found, if_pos rfl]

end Opening

end Extending

/-- An inode through which nothing but a live file is written: it is open, or else a file is live
that its descriptor describes. -/
def Library.Covers (library : Library) (inode : Inode) : Prop :=
  0 < inode.opens ∨ ∃ file ∈ library, file.IsUnder inode

section Runs

variable {n : Nat} {storage : Storage δ N} {origin : Bitmap} {library : Library}
  {volume : Volume δ} {mayWrite : Library → Inode → Prop}
  (addressable : N ≤ UInt32.size) (roomy : origin.capacity ≤ N)
  (guarded : ∀ library inode, mayWrite library inode → library.Covers inode)
include addressable roomy guarded

theorem FileCall.call_yields (sound : library.Sound storage origin n volume)
    (fits : n + 1 < wordLimit) {call : FileCall}
    (permitted : call.Permitted mayWrite library volume) :
    Step.Yields call.step volume fun answer after =>
      (library.after storage volume call answer after).Sound storage origin (n + 1) after ∧
        call.Answered library volume after answer := by
  have more := Nat.le_succ n
  cases call with
  | store data =>
    apply Step.Yields.bind (sound.store_sound addressable roomy data)
    rintro _ after (⟨rfl, soundAfter⟩ | ⟨sector, rfl, new, soundAfter⟩)
    · exact (Step.ends_pure _).mpr ⟨soundAfter, Or.inl rfl⟩
    · exact (Step.ends_pure _).mpr ⟨soundAfter, Or.inr ⟨sector, rfl, new⟩⟩
  | load sector =>
    obtain ⟨file, member, rfl⟩ := permitted
    apply Step.Yields.bind (sound.load_sound addressable roomy fits member)
    rintro _ after ⟨rfl, soundAfter⟩
    refine (Step.ends_pure _).mpr ⟨soundAfter, ?_⟩
    intro other otherMember same
    rw [Library.eq_of_sector sound.lends.distinct otherMember member same]
  | openFile sector =>
    obtain ⟨file, member, rfl⟩ := permitted
    apply Step.Yields.bind (sound.openFile_sound roomy fits member)
    rintro id after ⟨⟨inode, found, isUnder, isOpen⟩, soundAfter⟩
    exact (Step.ends_pure _).mpr
      ⟨soundAfter, id, inode, file, rfl, found, member, rfl, isUnder, isOpen⟩
  | reopen id =>
    obtain ⟨inode, found, isOpen⟩ := permitted
    apply Step.Yields.bind (sound.reopen_sound found fits isOpen)
    exact fun _ after soundAfter => (Step.ends_pure _).mpr ⟨soundAfter, rfl⟩
  | close id =>
    obtain ⟨inode, found, isOpen⟩ := permitted
    apply Step.Yields.bind (sound.close_sound found isOpen)
    intro _ after soundAfter
    simp only [Step.ends_pure, Library.after, found, Option.elim_some]
    exact ⟨soundAfter.mono more, rfl⟩
  | remove id =>
    obtain ⟨inode, found⟩ := permitted
    apply Step.Yields.bind (sound.remove_sound found)
    exact fun _ after soundAfter => (Step.ends_pure _).mpr ⟨soundAfter.mono more, rfl⟩
  | readAt id position buffer =>
    obtain ⟨inode, found⟩ := permitted
    apply Step.Yields.bind (sound.readAt_sound found addressable roomy position buffer)
    rintro ⟨count, filled⟩ after ⟨answered, soundAfter⟩
    refine (Step.ends_pure _).mpr ⟨soundAfter.mono more, ?_⟩
    intro other otherFound file member isUnder
    cases found.symm.trans otherFound
    obtain ⟨bytes, bytes_eq, result_eq⟩ := answered file member isUnder
    cases result_eq
    exact ⟨bytes, bytes_eq, rfl⟩
  | writeAt id position data =>
    obtain ⟨inode, found, may⟩ := permitted
    apply Step.Yields.bind
      (sound.writeAt_sound found addressable roomy (guarded library inode may) position data)
    rintro count after ⟨answered, soundAfter⟩
    simp only [Step.ends_pure, Library.after, found, Option.elim_some]
    refine ⟨soundAfter.mono more, ?_⟩
    intro other otherFound file member isUnder
    cases found.symm.trans otherFound
    rw [answered file member isUnder]
  | deny id =>
    obtain ⟨inode, found, some_left⟩ := permitted
    apply Step.Yields.bind (sound.deny_sound found (Nat.lt_of_succ_lt fits) some_left)
    exact fun _ after soundAfter => (Step.ends_pure _).mpr ⟨soundAfter.mono more, rfl⟩
  | allow id =>
    obtain ⟨inode, found, denied, bounded⟩ := permitted
    apply Step.Yields.bind (sound.allow_sound found denied bounded)
    exact fun _ after soundAfter => (Step.ends_pure _).mpr ⟨soundAfter.mono more, rfl⟩
  | flush =>
    apply Step.Yields.bind sound.flush_sound
    exact fun _ after soundAfter => (Step.ends_pure _).mpr ⟨soundAfter.mono more, rfl⟩
  | remount =>
    apply Step.Yields.bind sound.remount_sound
    exact fun _ after soundAfter => (Step.ends_pure _).mpr ⟨soundAfter.mono more, rfl⟩

theorem Reaches.sound {device : δ} (serves : storage.Serves device)
    (reaches : Reaches storage mayWrite (.mount device origin) n library volume)
    (fits : n < wordLimit) : library.Sound storage origin n volume := by
  induction reaches with
  | start => exact .mount storage origin serves
  | call reached permitted run inductionHypothesis =>
    have sound := inductionHypothesis (Nat.lt_of_succ_lt fits)
    exact (FileCall.call_yields addressable roomy guarded sound fits permitted).done_of_run run |>.1

end Runs

end Residency
