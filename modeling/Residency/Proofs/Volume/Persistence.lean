import Residency.Proofs.Volume.Calls

/-!
# Files as byte arrays

The live files of a volume are independent byte arrays: `files_persist`.  Each keeps the bytes that
it was stored with and that were written to it, whatever is done with other files, and also when the
volume is mounted again; these bytes are what is read of it.
-/

namespace Residency

variable {δ : Type} [BlockDevice δ] {N : Nat}

/-- Whether a call may change a file or end it: only the inode of the file leads to it. -/
def FileCall.Touches (volume : Volume δ) (file : LiveFile) : FileCall → Prop
  | .writeAt id _ _ | .close id => ∃ inode, volume.inode? id = some inode ∧ file.sector = inode.sector
  | _ => False

theorem Library.mem_after {storage : Storage δ N} {library : Library} {volume after : Volume δ}
    {file : LiveFile} (member : file ∈ library) {call : FileCall}
    (untouched : ¬ call.Touches volume file) (answer : FileAnswer) :
    file ∈ library.after storage volume call answer after := by
  cases call with
  | store data =>
    cases answer with
    | stored result =>
      cases result with
      | ok sector => exact List.mem_cons_of_mem _ member
      | error reason => exact member
    | done | loaded _ | opened _ | read _ _ | written _ => exact member
  | writeAt id position data =>
    simp only [Library.after]
    cases found : volume.inode? id with
    | none => exact member
    | some inode =>
      rw [Option.elim_some]
      split
      next => exact member
      next =>
        have other : ¬ file.IsUnder inode := fun isUnder => untouched ⟨inode, found, isUnder.1⟩
        exact List.mem_map.mpr ⟨file, member, if_neg other⟩
  | close id =>
    simp only [Library.after]
    cases found : volume.inode? id with
    | none => exact member
    | some inode =>
      rw [Option.elim_some]
      split
      next =>
        have other : file.sector ≠ inode.sector := fun same => untouched ⟨inode, found, same⟩
        exact List.mem_filter.mpr ⟨member, decide_eq_true other⟩
      next => exact member
  | load _ | openFile _ | reopen _ | remove _ | readAt _ _ _ | deny _ | allow _ | flush | remount =>
    exact member

/-- A new volume on which files are stored, opened, read, written and removed in any order, and
which is mounted again any number of times; files are opened while they are live and written while
they are open.  No call fails; the volume shows each live file with its bytes, and they are what
loading and reading give.  A call through the inode of one file leaves every other one as it is. -/
theorem Volume.files_persist (storage : Storage δ N) (addressable : N ≤ UInt32.size) {device : δ}
    (serves : storage.Serves device) {map : Bitmap} (roomy : map.capacity ≤ N) {n : Nat}
    {library : Library} {volume : Volume δ}
    (reaches : Reaches storage (fun _ inode => 0 < inode.opens) (.mount device map) n library volume)
    (short : n < 2 ^ 64) :
    (library.map LiveFile.sector).Nodup ∧
      (∀ file ∈ library, (List.range file.contents.length).map
        (file.descriptor.byteOf (volume.cache.view storage.sector)) = file.contents) ∧
      (∀ id inode, volume.inode? id = some inode → 0 < inode.opens →
        ∃ file ∈ library, file.IsUnder inode) ∧
      (n + 1 < 2 ^ 64 → ∀ call : FileCall,
        call.Permitted (fun _ inode => 0 < inode.opens) library volume →
          Step.Yields call.step volume fun answer after =>
            call.Answered library volume after answer ∧
              ∀ file ∈ library, ¬ call.Touches volume file →
                file ∈ library.after storage volume call answer after) := by
  have guarded (library : Library) (inode : Inode) (isOpen : 0 < inode.opens) :
      library.Covers inode := Or.inl isOpen
  have sound := reaches.sound addressable roomy guarded serves short
  refine ⟨?_, ?_, sound.lists.live, ?_⟩
  · exact Library.nodup_map_sector sound.lends.distinct
  · intro file member
    have stands := sound.stands file member
    rw [← stands.size]
    exact stands.all_bytes_eq
  · intro fits call permitted
    apply Step.Yields.imp (FileCall.call_yields addressable roomy guarded sound fits permitted)
    rintro answer after ⟨-, answered⟩
    exact ⟨answered, fun file member untouched => Library.mem_after member untouched answer⟩

/-- The first of two files on a disk of four sectors is open.  Its inode is the third one that was
made, after those of the two stores. -/
theorem Reaches.open_first_of_two : ∃ volume,
    Reaches (RamDisk.storage 4).toStorage (fun _ inode => 0 < inode.opens)
      (.mount { sectors := 4 } (.empty 4)) 3
      [{ sector := ⟨2⟩, start := ⟨3⟩, contents := [1, 2] },
        { sector := ⟨0⟩, start := ⟨1⟩, contents := [7, 8, 9] }] volume ∧
    Cache.Coherent (RamDisk.storage 4).toStorage volume.cache ∧
    volume.inode? ⟨2⟩ = some { sector := ⟨0⟩, descriptor := .ofRun ⟨1⟩ (.ofNat 3) } := by
  obtain ⟨one, reachesOne, isOne⟩ := (Reaches.start : Reaches (RamDisk.storage 4).toStorage
    (fun _ inode => 0 < inode.opens) (.mount { sectors := 4 } (.empty 4)) 0 [] _).store
    (Volume.shows_mount _ rfl _) (by decide) [7, 8, 9] ⟨0⟩ ⟨1⟩ (by decide) rfl rfl (by decide)
    (by decide) (by decide) Std.ExtTreeMap.getElem?_empty
  obtain ⟨both, reachesBoth, isBoth⟩ := reachesOne.store isOne (by decide) [1, 2] ⟨2⟩ ⟨3⟩
    (by decide) rfl rfl (by decide) (by decide) (by decide) rfl
  obtain ⟨volume, reaches, isOpened, found⟩ := reachesBoth.openFile isBoth
    (List.mem_cons_of_mem _ (List.mem_singleton_self _)) (by decide) (Descriptor.decode_encode _) rfl
  exact ⟨volume, reaches, isOpened.coherent, found⟩

/-- Two files on a disk of four sectors, of which the first one is open.  While its opener forbids
writing to it, nothing is written.  When he allows it again, two of three bytes are written, since
the file ends there.  Then the volume is mounted again, and both files are loaded. -/
theorem Volume.files_persist_on_four_sectors :
    let start : Volume RamDisk := .mount { sectors := 4 } (.empty 4)
    let first : LiveFile := { sector := ⟨0⟩, start := ⟨1⟩, contents := [7, 8, 9] }
    let second : LiveFile := { sector := ⟨2⟩, start := ⟨3⟩, contents := [1, 2] }
    (RamDisk.storage 4).Serves { sectors := 4 } ∧ ∃ opened denied allowed written volume,
      Reaches (RamDisk.storage 4).toStorage (fun _ inode => 0 < inode.opens) start 3
        [second, first] opened ∧
      (FileCall.deny ⟨2⟩).step.run opened = .ok .done denied ∧
      (∃ after, (FileCall.writeAt ⟨2⟩ 1 [5, 6, 4]).step.run denied = .ok (.written 0) after) ∧
      (FileCall.allow ⟨2⟩).step.run denied = .ok .done allowed ∧
      (FileCall.writeAt ⟨2⟩ 1 [5, 6, 4]).step.run allowed = .ok (.written 2) written ∧
      FileCall.remount.step.run written = .ok .done volume ∧
      (∃ after, (FileCall.load ⟨0⟩).step.run volume = .ok (.loaded [7, 5, 6]) after) ∧
      ∃ after, (FileCall.load ⟨2⟩).step.run volume = .ok (.loaded [1, 2]) after := by
  intro start first second
  have serves : (RamDisk.storage 4).Serves { sectors := 4 } := rfl
  have persists {n : Nat} {library : Library} {volume : Volume RamDisk}
      (reaches : Reaches (RamDisk.storage 4).toStorage (fun _ inode => 0 < inode.opens) start n
        library volume) (short : n + 1 < 2 ^ 64) (call : FileCall)
      (permitted : call.Permitted (fun _ inode => 0 < inode.opens) library volume) :=
    have ⟨_, _, _, next⟩ := Volume.files_persist _ (by decide) serves (by decide) reaches
      (Nat.lt_of_succ_lt short)
    reaches.next call permitted (next short call permitted)
  obtain ⟨opened, reachesOpened, coherent, foundOpened⟩ := Reaches.open_first_of_two
  have isOpened : opened.Shows (RamDisk.storage 4).toStorage _ _ _ := ⟨coherent, rfl, rfl, rfl⟩
  obtain ⟨_, denied, denies, reachesDenied, rfl, isDenied, foundDenied⟩ :=
    reachesOpened.next (.deny ⟨2⟩) ⟨_, foundOpened, by decide⟩ (FileCall.turn_yields isOpened _ rfl
      foundOpened (Inode.deny_yields (by decide) (by decide)))
  have member : first ∈ [second, first] := List.mem_cons_of_mem _ (List.mem_singleton_self _)
  obtain ⟨_, after, refused, -, answerRefused, -⟩ := persists reachesDenied (by decide)
    (.writeAt ⟨2⟩ 1 [5, 6, 4]) ⟨_, foundDenied, Nat.one_pos⟩
  cases answerRefused _ foundDenied first member ⟨rfl, rfl⟩
  obtain ⟨_, allowed, allows, reachesAllowed, rfl, -, found⟩ :=
    reachesDenied.next (.allow ⟨2⟩) ⟨_, foundDenied, by decide, by decide⟩ (FileCall.turn_yields
      isDenied _ rfl foundDenied (Inode.allow_yields (by decide) (by decide)))
  obtain ⟨_, written, writes, reachesWritten, answerWritten, -⟩ := persists reachesAllowed
    (by decide) (.writeAt ⟨2⟩ 1 [5, 6, 4]) ⟨_, found, Nat.one_pos⟩
  cases answerWritten _ found first member ⟨rfl, rfl⟩
  simp only [Library.after, found, Option.elim_some] at reachesWritten
  obtain ⟨_, volume, remounts, reaches, rfl, -⟩ :=
    persists reachesWritten (by decide) .remount trivial
  -- the first file has the bytes that were written, the second one is as it was stored
  have firstMember : { first with contents := [7, 5, 6] } ∈
      ([second, { first with contents := [7, 5, 6] }] : Library) :=
    List.mem_cons_of_mem _ (List.mem_singleton_self _)
  obtain ⟨_, afterFirst, loadsFirst, -, answerFirst, -⟩ := persists reaches (by decide) (.load ⟨0⟩)
    ⟨_, firstMember, rfl⟩
  cases answerFirst _ firstMember rfl
  obtain ⟨_, afterSecond, loadsSecond, -, answerSecond, -⟩ := persists reaches (by decide)
    (.load ⟨2⟩) ⟨_, List.mem_cons_self, rfl⟩
  cases answerSecond _ List.mem_cons_self rfl
  exact ⟨serves, opened, denied, allowed, written, volume, reachesOpened, denies,
    ⟨after, refused⟩, allows, writes, remounts, ⟨afterFirst, loadsFirst⟩, afterSecond, loadsSecond⟩

end Residency
