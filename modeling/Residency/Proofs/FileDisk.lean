import Residency.Device.FileDisk
import Residency.Proofs.HostFile
import Residency.Proofs.Step

/-!
# Disks on a growing file

Whatever file a disk starts on, it is an array of sectors that grows where it is written to, until
a sector is read that the file does not have in full.  That is the first call that fails, and the
last one that has any effect: `grows_until_a_read_falls_short`.

`overlaid` are the bytes of a file after some sectors have been written, `FileDisk.InService` and
`FileDisk.OutOfService` what a disk does before and after the first failure.
-/

namespace Residency

/-! ## Bytes under sectors -/

/-- How long a file of `size` bytes becomes when sectors are written. -/
def sizeCovering (size : Nat) (writes : List (SectorNo × Sector)) : Nat :=
  (writes.map fun (s, _) => (s.toNat + 1) * sectorSize).foldl max size

/-- The bytes, extended with zeros to cover each of the sectors, and overlaid with the sectors in
order. -/
def overlaid (bytes : List UInt8) (writes : List (SectorNo × Sector)) : List UInt8 :=
  writes.foldl (fun bytes (s, data) => overwrite bytes s.byteOffset data.bytes)
    (bytes ++ List.replicate (sizeCovering bytes.length writes - bytes.length) 0)

theorem le_sizeCovering (size : Nat) (writes : List (SectorNo × Sector)) :
    size ≤ sizeCovering size writes := by
  induction writes generalizing size with
  | nil => exact Nat.le_refl _
  | cons write rest inductionHypothesis =>
    exact Nat.le_trans (Nat.le_max_left ..) (inductionHypothesis _)

theorem overwrite_append {α : Type} {xs : List α} {offset : Nat} {data : List α}
    (inside : offset + data.length ≤ xs.length) (ys : List α) :
    overwrite (xs ++ ys) offset data = overwrite xs offset data ++ ys := by
  apply List.ext_getElem?
  intro position
  rw [getElem?_overwrite, List.getElem?_append, List.getElem?_append, length_overwrite,
    getElem?_overwrite, List.length_append]
  by_cases within : offset ≤ position ∧ position < offset + data.length
  · rw [if_pos ⟨by omega, within⟩, if_pos (by omega), if_pos ⟨by omega, within⟩]
  · rw [if_neg fun here => within here.2]
    split
    · rw [if_neg fun here => within here.2]
    · rfl

@[simp] theorem overlaid_nil (bytes : List UInt8) : overlaid bytes [] = bytes := by
  simp [overlaid, sizeCovering]

/-- Overlaying one sector after the other extends the bytes step by step. -/
theorem overlaid_cons (bytes : List UInt8) (s : SectorNo) (data : Sector)
    (rest : List (SectorNo × Sector)) :
    overlaid bytes ((s, data) :: rest) =
      overlaid (overwrite (bytes ++ List.replicate ((s.toNat + 1) * sectorSize - bytes.length) 0)
        (s.toNat * sectorSize) data.bytes) rest := by
  have width := data.length_bytes
  let first := bytes ++ List.replicate ((s.toNat + 1) * sectorSize - bytes.length) 0
  have length : first.length = max bytes.length ((s.toNat + 1) * sectorSize) := by
    simp only [first, List.length_append, List.length_replicate]
    omega
  have inside : s.toNat * sectorSize + data.bytes.length ≤ first.length := by
    rw [length, width]
    simp only [sectorSize]
    omega
  have size : sizeCovering bytes.length ((s, data) :: rest) = sizeCovering first.length rest := by
    rw [length]
    rfl
  -- the zeros for all sectors are those for the first one and those for the rest
  have zeros : bytes ++ List.replicate (sizeCovering first.length rest - bytes.length) 0 =
      first ++ List.replicate (sizeCovering first.length rest - first.length) 0 := by
    have covered := le_sizeCovering first.length rest
    rw [length] at covered ⊢
    simp only [first, List.append_assoc, List.replicate_append_replicate]
    congr 2
    omega
  rw [overlaid, size, zeros, List.foldl_cons, overlaid, length_overwrite]
  simp only [SectorNo.byteOffset]
  rw [overwrite_append inside]

/-! ## Calls -/

inductive DiskCall where
  | read (sector : SectorNo) (buffer : Sector)
  | write (sector : SectorNo) (data : Sector)

/-- A reading is answered with what is in its buffer then. -/
def DiskCall.step : DiskCall → Step FileDisk (Option Sector)
  | .read sector buffer =>
    Step.on (fun disk => (buffer, disk)) (fun (_, disk) _ => disk) do
      readBlock sector
      return some (← get).1
  | .write sector data => do
    writeBlock sector data
    return none

def DiskCall.written? : DiskCall → Option (SectorNo × Sector)
  | .read _ _ => none
  | .write sector data => some (sector, data)

/-- The sectors that are to be written, in order. -/
def writesOf (calls : List DiskCall) : List (SectorNo × Sector) :=
  calls.filterMap DiskCall.written?

namespace FileDisk

variable {disk : FileDisk}

/-- Makes calls one after the other, whether or not they fail. -/
def serve (disk : FileDisk) (calls : List DiskCall) :
    List (Except Fault (Option Sector)) × FileDisk :=
  Step.runAll (calls.map DiskCall.step) disk

section Serve

variable {call : DiskCall} {after : FileDisk}

theorem serve_cons_of_ok {answer : Option Sector} (run : call.step.run disk = .ok answer after)
    (rest : List DiskCall) :
    serve disk (call :: rest) = (.ok answer :: (serve after rest).1, (serve after rest).2) :=
  Step.runAll_cons_of_ok run _

theorem serve_cons_of_error {fault : Fault} (run : call.step.run disk = .error fault after)
    (rest : List DiskCall) :
    serve disk (call :: rest) = (.error fault :: (serve after rest).1, (serve after rest).2) :=
  Step.runAll_cons_of_error run _

theorem serve_append (disk : FileDisk) (calls later : List DiskCall) :
    serve disk (calls ++ later) =
      ((serve disk calls).1 ++ (serve (serve disk calls).2 later).1,
        (serve (serve disk calls).2 later).2) := by
  rw [serve, List.map_append, Step.runAll_append]
  rfl

end Serve

/-! ## Transfers -/

theorem write_yields (working : disk.poisoned = false) (s : SectorNo) (data : Sector) :
    Step.Yields (writeBlock s data) disk fun _ after =>
      after = { disk with file := disk.file.writeSector s.toNat data } := by
  simp [writeBlock, working]

/-- A reading fails where the file does not have the whole sector, and takes the disk out of
service by that. -/
theorem read_ends (working : disk.poisoned = false) (s : SectorNo) (buffer : Sector) :
    Step.Ends (readBlock s) (buffer, disk)
      (fun _ after => (s.toNat + 1) * sectorSize ≤ disk.file.bytes.length ∧
        after.1.bytes = (disk.file.bytes.drop (s.toNat * sectorSize)).take sectorSize ∧
        after.2 = disk)
      fun fault after => disk.file.bytes.length < (s.toNat + 1) * sectorSize ∧
        fault = .incompleteSector ∧ after.2 = { disk with poisoned := true } := by
  have found : disk.sector s = (disk.file.bytes.drop (s.toNat * sectorSize)).take sectorSize :=
    disk.file.piece_eq_slice s.toNat
  have length : (disk.sector s).length =
      min sectorSize (disk.file.bytes.length - s.toNat * sectorSize) := by
    rw [found, List.length_take, List.length_drop]
  by_cases whole : (s.toNat + 1) * sectorSize ≤ disk.file.bytes.length
  · have complete : (disk.sector s).length = sectorSize := by
      simp only [sectorSize] at *; omega
    have filled : (buffer.overwrite 0 (disk.sector s)).bytes = disk.sector s :=
      congrArg Block.bytes (buffer.overwrite_zero_bytes ⟨disk.sector s, complete⟩)
    have same : { disk with poisoned := false } = disk := by rw [← working]
    simp only [readBlock, Step.ends_bind, Step.ends_get, Step.ends_ensure, Step.ends_set, working,
      complete, beq_self_eq_true, Bool.not_false, Bool.not_true, if_true]
    exact ⟨whole, filled.trans found, same⟩
  · have incomplete : ((disk.sector s).length == sectorSize) = false := by
      rw [beq_eq_false_iff_ne]
      simp only [sectorSize] at *; omega
    simp only [readBlock, Step.ends_bind, Step.ends_get, Step.ends_ensure, Step.ends_set, working,
      incomplete, Bool.not_false, if_true, Bool.false_eq_true, if_false]
    exact ⟨Nat.not_le.mp whole, trivial, trivial⟩

theorem write_fails (poisoned : disk.poisoned = true) (s : SectorNo) (data : Sector) :
    Step.Ends (writeBlock s data) disk (fun _ _ => False)
      fun fault after => fault = .poisoned ∧ after = disk := by
  simp [writeBlock, poisoned]

theorem read_fails (poisoned : disk.poisoned = true) (s : SectorNo) (buffer : Sector) :
    Step.Ends (readBlock s) (buffer, disk) (fun _ _ => False)
      fun fault after => fault = .poisoned ∧ after = (buffer, disk) := by
  simp [readBlock, poisoned]

/-! ## Runs of calls -/

theorem call_fails (poisoned : disk.poisoned = true) (call : DiskCall) :
    call.step.run disk = .error .poisoned disk := by
  have ends : Step.Ends call.step disk (fun _ _ => False)
      fun fault after => fault = .poisoned ∧ after = disk := by
    cases call with
    | read s buffer =>
      rw [DiskCall.step, Step.ends_on, Step.ends_bind]
      apply (read_fails poisoned s buffer).imp
      · exact fun _ _ impossible => impossible.elim
      · rintro _ _ ⟨rfl, rfl⟩
        exact ⟨rfl, rfl⟩
    | write s data =>
      rw [DiskCall.step, Step.ends_bind]
      exact (write_fails poisoned s data).imp (fun _ _ impossible => impossible.elim) fun _ _ => id
  obtain ⟨_, _, run, rfl, rfl⟩ := ends.fault
  exact run

theorem serve_of_poisoned (poisoned : disk.poisoned = true) (calls : List DiskCall) :
    serve disk calls = (calls.map fun _ => .error .poisoned, disk) := by
  induction calls with
  | nil => rfl
  | cons call rest inductionHypothesis =>
    rw [serve_cons_of_error (call_fails poisoned call), inductionHypothesis]
    rfl

/-- A run of calls that all succeed. -/
structure AllSucceed (disk : FileDisk) (calls : List DiskCall) : Prop where
  answers : ∀ answer ∈ (serve disk calls).1, answer.isOk = true
  working : (serve disk calls).2.poisoned = false
  bytes : (serve disk calls).2.file.bytes = overlaid disk.file.bytes (writesOf calls)

/-- A call succeeds, and does its share of all that is to be written, or it reads a sector that the
file does not have in full. -/
theorem call_cases (working : disk.poisoned = false) (call : DiskCall) :
    (∃ answer between, call.step.run disk = .ok answer between ∧ between.poisoned = false ∧
        ∀ rest, overlaid disk.file.bytes (writesOf (call :: rest)) =
          overlaid between.file.bytes (writesOf rest)) ∨
      ∃ s buffer, call = .read s buffer ∧
        disk.file.bytes.length < (s.toNat + 1) * sectorSize ∧
        call.step.run disk = .error .incompleteSector { disk with poisoned := true } := by
  cases call with
  | read s buffer =>
    have ends : Step.Ends (DiskCall.read s buffer).step disk (fun _ after => after = disk)
        fun fault after => disk.file.bytes.length < (s.toNat + 1) * sectorSize ∧
          fault = .incompleteSector ∧ after = { disk with poisoned := true } := by
      rw [DiskCall.step, Step.ends_on, Step.ends_bind]
      apply (read_ends working s buffer).imp
      · rintro _ after ⟨-, -, same⟩
        simp only [Step.ends_bind, Step.ends_get, Step.ends_pure]
        exact same
      · exact fun _ _ ended => ended
    cases run : (DiskCall.read s buffer).step.run disk with
    | ok answer after =>
      cases ends.done_of_run run
      exact Or.inl ⟨answer, _, rfl, working, fun _ => rfl⟩
    | error fault after =>
      obtain ⟨short, rfl, rfl⟩ := ends.stopped_of_run run
      exact Or.inr ⟨s, buffer, rfl, short, rfl⟩
  | write s data =>
    have yields : Step.Yields (DiskCall.write s data).step disk fun _ after =>
        after = { disk with file := disk.file.writeSector s.toNat data } := by
      rw [DiskCall.step]
      exact (write_yields working s data).bind fun _ _ written => (Step.ends_pure _).mpr written
    obtain ⟨answer, _, run, rfl⟩ := yields.run
    refine Or.inl ⟨answer, _, run, working, fun rest => ?_⟩
    rw [disk.file.bytes_writeSector, ← disk.file.length_bytes]
    exact overlaid_cons ..

theorem AllSucceed.cons {call : DiskCall} {rest : List DiskCall} {answer : Option Sector}
    {between : FileDisk} (run : call.step.run disk = .ok answer between)
    (share : overlaid disk.file.bytes (writesOf (call :: rest)) =
      overlaid between.file.bytes (writesOf rest))
    (served : AllSucceed between rest) : AllSucceed disk (call :: rest) := by
  constructor
  · rw [serve_cons_of_ok run]
    exact List.forall_mem_cons.mpr ⟨rfl, served.answers⟩
  · rw [serve_cons_of_ok run]
    exact served.working
  · rw [serve_cons_of_ok run, share]
    exact served.bytes

/-- All calls succeed, or else those do that come before a reading of more than the file has. -/
theorem allSucceed_or_short (working : disk.poisoned = false) (calls : List DiskCall) :
    AllSucceed disk calls ∨ ∃ served s buffer later, calls = served ++ .read s buffer :: later ∧
      AllSucceed disk served ∧
      (serve disk served).2.file.bytes.length < (s.toNat + 1) * sectorSize ∧
      (DiskCall.read s buffer).step.run (serve disk served).2 =
        .error .incompleteSector { (serve disk served).2 with poisoned := true } := by
  induction calls generalizing disk with
  | nil => exact Or.inl ⟨nofun, working, (overlaid_nil _).symm⟩
  | cons call rest inductionHypothesis =>
    rcases call_cases working call with
      ⟨answer, between, run, working, share⟩ | ⟨s, buffer, rfl, short⟩
    · rcases inductionHypothesis working with
        all | ⟨served, s, buffer, later, rfl, before, short⟩
      · exact Or.inl (all.cons run (share _))
      · refine Or.inr ⟨call :: served, s, buffer, later, rfl, before.cons run (share _), ?_⟩
        rw [serve_cons_of_ok run]
        exact short
    · exact Or.inr ⟨[], s, buffer, rest, rfl, ⟨nofun, working, (overlaid_nil _).symm⟩, short⟩

/-! ## What a disk does -/

/-- A disk in service on a file with the given bytes writes everything and reads what is there. -/
structure InService (disk : FileDisk) (bytes : List UInt8) : Prop where
  bytes_eq : disk.file.bytes = bytes
  write : ∀ s data, Step.Yields (writeBlock s data) disk fun _ after =>
    after.file.bytes = overlaid bytes [(s, data)]
  read : ∀ s buffer, Step.Ends (readBlock s) (buffer, disk)
    (fun _ after => (s.toNat + 1) * sectorSize ≤ bytes.length ∧
      after.1.bytes = (bytes.drop (s.toNat * sectorSize)).take sectorSize ∧
      after.2.file.bytes = bytes)
    fun fault after => bytes.length < (s.toNat + 1) * sectorSize ∧ fault = .incompleteSector ∧
      after.2.file.bytes = bytes

/-- A disk out of service fails in whatever it is asked for, and nothing changes the file with the
given bytes any more. -/
structure OutOfService (disk : FileDisk) (bytes : List UInt8) : Prop where
  bytes_eq : disk.file.bytes = bytes
  write : ∀ s data, Step.Ends (writeBlock s data) disk (fun _ _ => False)
    fun fault after => fault = .poisoned ∧ after = disk
  read : ∀ s buffer, Step.Ends (readBlock s) (buffer, disk) (fun _ _ => False)
    fun fault after => fault = .poisoned ∧ after = (buffer, disk)

theorem AllSucceed.inService {calls : List DiskCall} (served : AllSucceed disk calls) :
    InService (serve disk calls).2 (overlaid disk.file.bytes (writesOf calls)) where
  bytes_eq := served.bytes
  write s data := by
    apply Step.Yields.imp (write_yields served.working s data)
    rintro _ _ rfl
    rw [HostFile.bytes_writeSector, ← HostFile.length_bytes, served.bytes, overlaid_cons,
      overlaid_nil]
  read s buffer := by
    rw [← served.bytes]
    apply (read_ends served.working s buffer).imp
    · rintro _ after ⟨whole, found, same⟩
      exact ⟨whole, found, by rw [same]⟩
    · rintro _ after ⟨short, fault, same⟩
      exact ⟨short, fault, by rw [same]⟩

/-- A disk on any file, after any run of calls, whether or not they failed.

If none has failed, the file is the one at the start, extended with zeros to cover each sector that
was written, and overlaid with these sectors in order; writing any sector succeeds; and reading one
gives the bytes of the file, or fails if these are not a whole sector.  Otherwise the first call
that failed was such a reading.  The file is still as it was then, all later calls have failed, and
so does whatever comes next. -/
theorem grows_until_a_read_falls_short (file : HostFile) (calls : List DiskCall) :
    let reached := serve { file } calls
    ((∀ answer ∈ reached.1, answer.isOk = true) ∧
        InService reached.2 (overlaid file.bytes (writesOf calls))) ∨
      ∃ served s buffer later, calls = served ++ .read s buffer :: later ∧
        (∀ answer ∈ (serve { file } served).1, answer.isOk = true) ∧
        (overlaid file.bytes (writesOf served)).length < (s.toNat + 1) * sectorSize ∧
        reached.1 = (serve { file } served).1 ++
          .error .incompleteSector :: later.map (fun _ => .error .poisoned) ∧
        OutOfService reached.2 (overlaid file.bytes (writesOf served)) := by
  intro reached
  have working : ({ file } : FileDisk).poisoned = false := rfl
  rcases allSucceed_or_short working calls with
    all | ⟨served, s, buffer, later, rfl, before, short, run⟩
  · exact Or.inl ⟨all.answers, all.inService⟩
  · let stopped : FileDisk := { (serve { file } served).2 with poisoned := true }
    have refused : serve stopped later = (later.map fun _ => .error .poisoned, stopped) :=
      serve_of_poisoned rfl later
    have reached_eq : reached = ((serve { file } served).1 ++
        .error .incompleteSector :: later.map (fun _ => .error .poisoned), stopped) := by
      show serve { file } (served ++ .read s buffer :: later) = _
      rw [serve_append, serve_cons_of_error run, refused]
    rw [before.bytes] at short
    refine Or.inr ⟨served, s, buffer, later, rfl, before.answers, short, ?_, ?_⟩
    · rw [reached_eq]
    · rw [reached_eq]
      exact ⟨before.bytes, write_fails rfl, read_fails rfl⟩

/-- A file of 700 bytes has no second sector until the third one is written.  From then on its second
sector is the 188 bytes that there are of it, and zeros. -/
theorem short_file_grows_over_a_hole :
    let file : HostFile := .ofBytes (.replicate 700 1)
    let grown := (serve { file } [.write ⟨2⟩ (.filled 7)]).2
    Step.Ends (readBlock ⟨1⟩) (.zero, ({ file } : FileDisk)) (fun _ _ => False)
        (fun fault _ => fault = .incompleteSector) ∧
      Step.Yields (readBlock ⟨1⟩) (.zero, grown) fun _ after =>
        after.1.bytes = .replicate 188 1 ++ .replicate 324 0 := by
  intro file grown
  have bytes : file.bytes = .replicate 700 1 := HostFile.bytes_ofBytes _
  constructor
  · rcases grows_until_a_read_falls_short file [] with ⟨-, inService⟩ | ⟨served, _, _, _, split, -⟩
    · rw [bytes] at inService
      apply (inService.read ⟨1⟩ .zero).imp
      · intro _ _ found
        exact absurd found.1 (by decide +kernel)
      · exact fun _ _ failed => failed.2.1
    · simp at split
  · rcases grows_until_a_read_falls_short file [.write ⟨2⟩ (.filled 7)] with
      ⟨-, inService⟩ | ⟨served, _, _, _, split, -⟩
    · rw [bytes] at inService
      apply (inService.read ⟨1⟩ .zero).imp
      · intro _ _ found
        exact found.2.1.trans (by decide +kernel)
      · intro _ _ failed
        exact absurd failed.1 (by decide +kernel)
    · -- nothing was read
      simp [List.cons_eq_append_iff] at split

end FileDisk

end Residency
