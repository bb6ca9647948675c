import Residency.Proofs.Volume.InodeCalls

/-!
# The life of an inode

An inode is made when its sector is opened, may be opened again, and is closed by its openers one
after the other.  `LifeCycle` follows the calls of openers who close and remove only what they have
open, whatever happens to the cache and to the map in between, and keeps their history.

`Follows` says what is true of a volume after a history, and `Follows.next` that a call keeps it so.
The result is `released_by_last_closer`: the sectors of an inode are given back once, by the last one
who closes it, if it was removed by then, and in no other case.
-/

namespace Residency

/-- Calls with the inodes that they were about, the latest first. -/
abbrev InodeHistory := List (InodeCall × InodeId)

namespace InodeHistory

/-- How many calls of a kind were about an inode. -/
def count (history : InodeHistory) (kind : InodeCall → Bool) (id : InodeId) : Nat :=
  history.countP fun event => kind event.1 && event.2 = id

variable {history : InodeHistory} {kind : InodeCall → Bool} {call : InodeCall} {id other : InodeId}

theorem count_cons_self :
    count ((call, id) :: history) kind id = history.count kind id + (kind call).toNat := by
  rw [count, count, List.countP_cons]
  cases kind call <;> simp

theorem count_cons_of_ne (different : other ≠ id) :
    count ((call, id) :: history) kind other = history.count kind other := by
  simp [count, Ne.symm different]

theorem count_le (history : InodeHistory) (kind : InodeCall → Bool) (id : InodeId) :
    history.count kind id ≤ history.countP (kind ·.1) := by
  apply List.countP_mono_left
  intro event _ both
  exact (Bool.and_eq_true_iff.mp both).1

theorem count_eq_zero (unknown : ∀ event ∈ history, event.2 ≠ id) : history.count kind id = 0 := by
  apply List.countP_eq_zero.mpr
  intro event member
  simp [unknown event member]

end InodeHistory

namespace Volume

variable {δ : Type}

/-- An inode that nobody has open any more and that was removed. -/
def IsGone (volume : Volume δ) (id : InodeId) : Prop :=
  ∃ inode, volume.inode? id = some inode ∧ inode.opens = 0 ∧ inode.removed = true

def releases (volume : Volume δ) (id : InodeId) : List MapCall :=
  (volume.inode? id).elim [] Inode.releases

/-- What is true of a volume after a history, if the account was `earlier` before it. -/
structure Follows (volume : Volume δ) (earlier : List MapCall) (history : InodeHistory) : Prop where
  registers : volume.Registers
  known : ∀ event ∈ history, ∃ inode, volume.inode? event.2 = some inode
  counted : ∀ id inode, volume.inode? id = some inode →
    inode.opens + history.count InodeCall.isClosing id = history.count InodeCall.isOpening id
  marked : ∀ id inode, volume.inode? id = some inode →
    (inode.removed = true ↔ (.remove id, id) ∈ history)
  /-- The inodes that are gone, each once, account for all that the map was asked for. -/
  released : ∃ gone : List InodeId, gone.Nodup ∧ (∀ id, id ∈ gone ↔ volume.IsGone id) ∧
    volume.mapCalls = gone.flatMap volume.releases ++ earlier

namespace Follows

variable {volume after : Volume δ} {earlier : List MapCall} {history : InodeHistory}
  {call : InodeCall} {id : InodeId} {new : Inode}

/-- As long as no inode was made there is nothing to account for. -/
theorem of_no_files (none : volume.files = {}) : volume.Follows volume.mapCalls [] := by
  have nothing (id : InodeId) : volume.inode? id = .none := by
    rw [inode?, none]
    rfl
  have noneKnown {id : InodeId} {p : Inode → Prop} :
      ¬ ∃ inode, volume.inode? id = some inode ∧ p inode := by
    rintro ⟨inode, found, -⟩
    cases (nothing id).symm.trans found
  refine ⟨fun sector id => ?_, fun _ member => absurd member List.not_mem_nil,
    fun id inode found => ?_, fun id inode found => ?_,
    [], List.nodup_nil, fun id => ?_, rfl⟩
  · rw [none]
    exact iff_of_false (by simp) noneKnown
  · cases (nothing id).symm.trans found
  · cases (nothing id).symm.trans found
  · exact iff_of_false List.not_mem_nil noneKnown

theorem registers_next (registers : volume.Registers) (becomes : volume.Becomes after id new) :
    after.Registers := by
  intro sector other
  rw [becomes.registry, becomes.inodes]
  by_cases under : sector = new.sector
  · subst under
    rw [if_pos rfl]
    by_cases same : other = id
    · subst same
      rw [if_pos rfl]
      constructor
      · intro listed
        split at listed
        next isOpen => exact ⟨new, rfl, rfl, isOpen⟩
        next => cases listed
      · rintro ⟨_, found, -, isOpen⟩
        cases found
        exact if_pos isOpen
    · rw [if_neg same]
      constructor
      · intro listed
        split at listed
        · exact absurd (Option.some.inj listed).symm same
        · cases listed
      · rintro ⟨inode, found, sameSector, isOpen⟩
        exact absurd (becomes.alone other inode found sameSector isOpen) same
  · rw [if_neg under, registers]
    by_cases same : other = id
    · subst same
      rw [if_pos rfl]
      constructor
      · rintro ⟨inode, found, rfl, -⟩
        exact absurd (becomes.before inode found).2 under
      · rintro ⟨_, found, sameSector, -⟩
        cases found
        exact absurd sameSector.symm under
    · rw [if_neg same]

theorem isGone_next (becomes : volume.Becomes after id new) (other : InodeId) :
    after.IsGone other ↔
      if other = id then new.opens = 0 ∧ new.removed = true else volume.IsGone other := by
  rw [IsGone, becomes.inodes]
  by_cases same : other = id
  · rw [if_pos same, if_pos same]
    constructor
    · rintro ⟨_, found, isGone⟩
      cases found
      exact isGone
    · exact fun isGone => ⟨new, rfl, isGone⟩
  · rw [if_neg same, if_neg same, IsGone]

theorem released_next (follows : volume.Follows earlier history)
    (becomes : volume.Becomes after id new) :
    ∃ gone : List InodeId, gone.Nodup ∧ (∀ other, other ∈ gone ↔ after.IsGone other) ∧
      after.mapCalls = gone.flatMap after.releases ++ earlier := by
  obtain ⟨gone, distinct, isGone, mapCalls⟩ := follows.released
  have notYet : id ∉ gone := by
    intro member
    obtain ⟨inode, found, closed, -⟩ := (isGone id).mp member
    exact absurd closed (Nat.ne_of_gt (becomes.before inode found).1)
  have same : gone.flatMap after.releases = gone.flatMap volume.releases := by
    rw [List.flatMap_def, List.flatMap_def]
    congr 1
    apply List.map_congr_left
    intro other member
    have different : other ≠ id := fun same => notYet (same ▸ member)
    rw [releases, becomes.inodes, if_neg different, releases]
  have others (other : InodeId) (different : other ≠ id) : other ∈ gone ↔ after.IsGone other := by
    rw [isGone_next becomes, if_neg different, isGone]
  by_cases now : new.opens = 0 ∧ new.removed = true
  · refine ⟨id :: gone, List.nodup_cons.mpr ⟨notYet, distinct⟩, fun other => ?_, ?_⟩
    · by_cases this : other = id
      · rw [isGone_next becomes, if_pos this, this]
        exact iff_of_true (List.mem_cons_self ..) now
      · rw [List.mem_cons, or_iff_right this, others other this]
    · have mine : after.releases id = new.releases := by
        rw [releases, becomes.inodes, if_pos rfl, Option.elim_some]
      rw [becomes.mapCalls, if_pos now, List.flatMap_cons, same, mine, mapCalls, List.append_assoc]
  · refine ⟨gone, distinct, fun other => ?_, ?_⟩
    · by_cases this : other = id
      · rw [isGone_next becomes, if_pos this, this]
        exact iff_of_false notYet now
      · exact others other this
    · rw [becomes.mapCalls, if_neg now, List.nil_append, same, mapCalls]

section Next

variable (follows : volume.Follows earlier history) (becomes : volume.Becomes after id new)
include follows

/-- No call was about an inode that is not there yet. -/
theorem unknown (missing : volume.inode? id = none) : ∀ event ∈ history, event.2 ≠ id := by
  intro event member same
  obtain ⟨inode, found⟩ := follows.known event member
  rw [same, missing] at found
  cases found

theorem opens_add_count (id : InodeId) :
    (volume.inode? id).elim 0 Inode.opens + history.count InodeCall.isClosing id =
      history.count InodeCall.isOpening id := by
  cases known : volume.inode? id with
  | none =>
    have unknown := follows.unknown known
    rw [InodeHistory.count_eq_zero unknown, InodeHistory.count_eq_zero unknown]
    rfl
  | some inode => exact follows.counted id inode known

theorem removed_iff_mem (id : InodeId) :
    (∃ inode, volume.inode? id = some inode ∧ inode.removed = true) ↔
      (.remove id, id) ∈ history := by
  constructor
  · rintro ⟨inode, found, removed⟩
    exact (follows.marked id inode found).mp removed
  · intro member
    obtain ⟨inode, found⟩ := follows.known _ member
    exact ⟨inode, found, (follows.marked id inode found).mpr member⟩

include becomes

/-- A call that makes one inode become another, with the openers and the mark that the call gives
it. -/
theorem next
    (opens : new.opens + call.isClosing.toNat =
      (volume.inode? id).elim 0 Inode.opens + call.isOpening.toNat)
    (removed : new.removed = true ↔
      call = .remove id ∨ ∃ inode, volume.inode? id = some inode ∧ inode.removed = true) :
    after.Follows earlier ((call, id) :: history) := by
  have changed : after.inode? id = some new := by rw [becomes.inodes, if_pos rfl]
  have kept {other : InodeId} (different : other ≠ id) :
      after.inode? other = volume.inode? other := by rw [becomes.inodes, if_neg different]
  refine ⟨registers_next follows.registers becomes, ?_, ?_, ?_, follows.released_next becomes⟩
  · intro event member
    by_cases same : event.2 = id
    · exact ⟨new, same ▸ changed⟩
    · rw [kept same]
      rcases List.mem_cons.mp member with rfl | earlier
      · exact absurd rfl same
      · exact follows.known event earlier
  · intro other inode found
    by_cases same : other = id
    · subst same
      cases changed.symm.trans found
      have before := follows.opens_add_count other
      rw [InodeHistory.count_cons_self, InodeHistory.count_cons_self]
      omega
    · rw [kept same] at found
      rw [InodeHistory.count_cons_of_ne same, InodeHistory.count_cons_of_ne same]
      exact follows.counted other inode found
  · intro other inode found
    by_cases same : other = id
    · subst same
      cases changed.symm.trans found
      rw [removed, follows.removed_iff_mem, List.mem_cons, Prod.mk.injEq, and_iff_left rfl, eq_comm]
    · rw [kept same] at found
      rw [List.mem_cons, Prod.mk.injEq, or_iff_right fun event => same event.2]
      exact follows.marked other inode found

end Next

end Follows

end Volume

/-! ## Runs -/

variable {δ : Type} [BlockDevice δ]

/-- The volumes that runs of permitted calls lead to, with their histories.  The cache and the map
may be used by others in between. -/
inductive LifeCycle (start : Volume δ) : InodeHistory → Volume δ → Prop where
  | start : LifeCycle start [] start
  | call {history : InodeHistory} {volume after : Volume δ} {call : InodeCall} {id : InodeId}
      (reached : LifeCycle start history volume) (permitted : call.Permitted volume)
      (run : call.step.run volume = .ok id after) : LifeCycle start ((call, id) :: history) after
  | elsewhere {history : InodeHistory} {volume : Volume δ}
      (reached : LifeCycle start history volume) (cache : Cache δ) (map : Bitmap) :
      LifeCycle start history { volume with cache, map }

namespace LifeCycle

variable {start volume : Volume δ} {history : InodeHistory}

/-- An inode has not more openers than there were calls to open one. -/
theorem call_ends (follows : volume.Follows start.mapCalls history) {call : InodeCall}
    (permitted : call.Permitted volume)
    (fits : call.isOpening = true → history.countP (·.1.isOpening) + 1 < wordLimit) :
    Step.Ends call.step volume (fun id after => call.Does volume after id)
      fun fault _ => call.Stops volume fault := by
  apply Volume.call_ends follows.registers permitted
  intro opening id inode found
  have counted := follows.counted id inode found
  have bounded := history.count_le InodeCall.isOpening id
  have := fits opening
  omega

theorem follows (reached : LifeCycle start history volume) (new : start.files = {})
    (few : history.countP (·.1.isOpening) < wordLimit) :
    volume.Follows start.mapCalls history := by
  induction reached with
  | start => exact .of_no_files new
  | @call history volume after call id reached permitted run inductionHypothesis =>
    rw [List.countP_cons] at few
    have follows := inductionHypothesis (by omega)
    have ends := call_ends follows permitted fun opening => by
      rw [if_pos opening] at few
      exact few
    obtain ⟨new, becomes, opens, removed⟩ :=
      Volume.becomes_of_does follows.registers permitted (ends.done_of_run run)
    exact follows.next becomes opens removed
  | elsewhere reached cache map inductionHypothesis =>
    obtain ⟨registers, known, counted, marked, released⟩ := inductionHypothesis few
    exact ⟨registers, known, counted, marked, released⟩

/-- A run goes on with a call of which it is known how it ends. -/
theorem next (reached : LifeCycle start history volume) (call : InodeCall)
    (permitted : call.Permitted volume) {done : InodeId → Volume δ → Prop}
    (yields : Step.Yields call.step volume done) :
    ∃ id after, LifeCycle start ((call, id) :: history) after ∧ done id after := by
  obtain ⟨id, after, run, holds⟩ := yields.run
  exact ⟨id, after, reached.call permitted run, holds⟩

end LifeCycle

/-- A volume without files, after any run of calls, of which fewer open an inode than a word can
count.  The registry has exactly the inodes that somebody has open, each under its own sector.  An
inode has as many openers as it was opened more often than closed, and is marked as removed if it
was removed.  The inodes that were removed and have no opener left account for all that the map was
asked for: for each of them the sector of its descriptor was given back once and its data after
that, and nothing was for any other.

A call from there on does what `InodeCall.Does` says.  Opening a sector that is open thus gives the
inode that it has and leaves the cache alone, and the map is asked by the last one who closes an
inode that was removed.  A call can only stop when a descriptor cannot be read or the map does not
take sectors back. -/
theorem released_by_last_closer {start volume : Volume δ} {history : InodeHistory}
    (new : start.files = {}) (reached : LifeCycle start history volume)
    (few : history.countP (·.1.isOpening) < wordLimit) :
    (∀ sector id, volume.files.registry[sector]? = some id ↔
        ∃ inode, volume.inode? id = some inode ∧ inode.sector = sector ∧ 0 < inode.opens) ∧
      (∀ id inode, volume.inode? id = some inode →
        inode.opens + history.count InodeCall.isClosing id =
            history.count InodeCall.isOpening id ∧
          (inode.removed = true ↔ (.remove id, id) ∈ history)) ∧
      (∃ gone : List InodeId, gone.Nodup ∧ (∀ id, id ∈ gone ↔ volume.IsGone id) ∧
        volume.mapCalls = gone.flatMap volume.releases ++ start.mapCalls) ∧
      ∀ call : InodeCall, call.Permitted volume →
        (call.isOpening = true → history.countP (·.1.isOpening) + 1 < wordLimit) →
        Step.Ends call.step volume (fun id after => call.Does volume after id)
          fun fault _ => call.Stops volume fault := by
  have follows := reached.follows new few
  refine ⟨follows.registers, fun id inode found => ?_, follows.released, fun call => ?_⟩
  · exact ⟨follows.counted id inode found, follows.marked id inode found⟩
  · exact LifeCycle.call_ends follows

/-- An empty file that is opened twice and removed then.  It is given up by the second one who closes
it. -/
theorem released_by_second_closer :
    let start : Volume RamDisk := .mount { sectors := 2 } { capacity := 2, words := #v[1] }
    let history : InodeHistory := [(.close ⟨0⟩, ⟨0⟩), (.close ⟨0⟩, ⟨0⟩), (.remove ⟨0⟩, ⟨0⟩),
      (.openFile ⟨0⟩, ⟨0⟩), (.openFile ⟨0⟩, ⟨0⟩)]
    start.files = {} ∧ history.countP (·.1.isOpening) < wordLimit ∧
      ∃ volume, LifeCycle start history volume ∧ volume.IsGone ⟨0⟩ ∧
        ∃ gone : List InodeId, gone.Nodup ∧ (∀ id, id ∈ gone ↔ volume.IsGone id) ∧
          volume.mapCalls = gone.flatMap volume.releases ++ start.mapCalls := by
  intro start history
  have few : history.countP (·.1.isOpening) < wordLimit := by decide
  have serves : (RamDisk.storage 2).Serves { sectors := 2 } := rfl
  have isStart := Volume.shows_mount (RamDisk.storage 2).toStorage serves start.map
  let inode : Inode := { sector := ⟨0⟩, descriptor := ⟨⟨0⟩, 0, 0⟩ }
  have described : Descriptor.decode ((RamDisk.storage 2).sector { sectors := 2 } ⟨0⟩) =
      inode.descriptor := by decide +kernel
  have found (files : OpenFiles) {old : Inode} (before : files.get? ⟨0⟩ = some old) (new : Inode) :
      (files.set ⟨0⟩ new).get? ⟨0⟩ = some new := by
    rw [OpenFiles.get?_set before, if_pos rfl]
  obtain ⟨_, opened, reaches, rfl, isOpened⟩ := LifeCycle.start.next (.openFile ⟨0⟩) trivial
    (Volume.openFile_yields isStart (by decide) Std.ExtTreeMap.getElem?_empty)
  rw [described] at isOpened
  have foundOpened := OpenFiles.get?_opened {} inode.sector inode.descriptor
  have listed : (OpenFiles.opened {} ⟨0⟩ inode.descriptor).registry[(⟨0⟩ : SectorNo)]? =
      some ⟨0⟩ := by
    rw [OpenFiles.registry_opened, if_pos rfl]
    rfl
  obtain ⟨_, again, reaches, rfl, isAgain⟩ := reaches.next (.openFile ⟨0⟩) trivial
    (Volume.openFile_again_yields isOpened listed foundOpened (by decide))
  have foundAgain := found _ foundOpened { inode with opens := 2 }
  obtain ⟨_, removed, reaches, rfl, _, _, rfl, isRemoved⟩ := reaches.next (.remove ⟨0⟩)
    ⟨_, by rw [Volume.inode?, isAgain.files]; exact foundAgain, by decide⟩
    ((Volume.onInode_yields isAgain foundAgain Inode.remove_yields).returning _)
  have foundRemoved := found _ foundAgain { inode with opens := 2, removed := true }
  obtain ⟨_, closed, reaches, rfl, _, isClosed⟩ := reaches.next (.close ⟨0⟩)
    ⟨_, by rw [Volume.inode?, isRemoved.files]; exact foundRemoved, by decide⟩
    ((Volume.close_early_yields isRemoved foundRemoved (by decide)).returning _)
  have foundClosed := found _ foundRemoved { inode with opens := 1, removed := true }
  obtain ⟨_, volume, reaches, rfl, _, isGone⟩ := reaches.next (.close ⟨0⟩)
    ⟨_, by rw [Volume.inode?, isClosed.files]; exact foundClosed, by decide⟩
    ((Volume.close_removed_yields isClosed foundClosed rfl rfl rfl (by decide) (by decide)
      (by decide) (by decide)).returning _)
  refine ⟨rfl, few, volume, reaches, ⟨{ inode with opens := 0, removed := true }, ?_, rfl, rfl⟩,
    (released_by_last_closer rfl reaches few).2.2.1⟩
  rw [Volume.inode?, isGone.files]
  exact found _ foundClosed _

end Residency
