import Residency.Proofs.Volume.Handles

/-!
# Denials

An opener of an inode may forbid writing to it, and has to allow it again before he closes the inode.
The inode itself only counts: its openers, and the denials among them.  `HandleCall.Turns` is what a
call makes of the inode that it is about.

`denials_within_opens`: there are no more denials than openers as long as nobody closes an inode of
which all openers forbid writing; and the first call that does so leaves a denial too many.
`stranded_denial` is a run with such a call, after which writing cannot be allowed any more.
-/

namespace Residency

variable {δ : Type}

/-! ## What a call makes of its inode -/

namespace HandleCall

/-- A call turns the inode that it is about, if there was one before, into another. -/
inductive Turns (id : InodeId) : HandleCall → Option Inode → Inode → Prop where
  | opened {sector : SectorNo} {descriptor : Descriptor} :
      Turns id (.inode (.openFile sector)) none { sector, descriptor }
  | again {sector : SectorNo} {inode : Inode} :
      Turns id (.inode (.openFile sector)) (some inode) { inode with opens := inode.opens + 1 }
  | reopened {inode : Inode} :
      Turns id (.inode (.reopen id)) (some inode) { inode with opens := inode.opens + 1 }
  | closed {inode : Inode} (isOpen : 0 < inode.opens) :
      Turns id (.inode (.close id)) (some inode) { inode with opens := inode.opens - 1 }
  | removed {inode : Inode} :
      Turns id (.inode (.remove id)) (some inode) { inode with removed := true }
  | denied {inode : Inode} (someLeft : inode.denials < inode.opens) :
      Turns id (.deny id) (some inode) { inode with denials := inode.denials + 1 }
  | allowed {inode : Inode} (denied : 0 < inode.denials)
      (bounded : inode.denials ≤ inode.opens) :
      Turns id (.allow id) (some inode) { inode with denials := inode.denials - 1 }

/-- One inode is turned into another, or is new, and the others stay as they are. -/
theorem Does.turns [BlockDevice δ] {volume after : Volume δ} {call : HandleCall} {id : InodeId}
    (does : call.Does volume after id) :
    ∃ new, call.Turns id (volume.inode? id) new ∧
      ∀ other, after.inode? other = if other = id then some new else volume.inode? other := by
  cases does with
  | denied found someLeft same =>
    subst same
    exact ⟨_, found ▸ .denied someLeft, OpenFiles.get?_set found _⟩
  | allowed found denied bounded same =>
    subst same
    exact ⟨_, found ▸ .allowed denied bounded, OpenFiles.get?_set found _⟩
  | inode does =>
    cases does with
    | again listed found same =>
      subst same
      exact ⟨_, found ▸ .again, OpenFiles.get?_set found _⟩
    | @new sector descriptor notOpen run files map mapCalls =>
      have missing : volume.inode? ⟨volume.files.inodes.size⟩ = none := Array.getElem?_size
      refine ⟨{ sector, descriptor }, missing ▸ .opened, ?_⟩
      intro other
      rw [Volume.inode?, files]
      exact OpenFiles.get?_opened_eq ..
    | reopened found same =>
      subst same
      exact ⟨_, found ▸ .reopened, OpenFiles.get?_set found _⟩
    | removed found same =>
      subst same
      exact ⟨_, found ▸ .removed, OpenFiles.get?_set found _⟩
    | closedEarly found others same =>
      subst same
      exact ⟨_, found ▸ .closed (by omega), OpenFiles.get?_set found _⟩
    | closedLast found last kept same =>
      -- the one opener goes, so that none is left
      subst same
      refine ⟨_, by rw [found]; exact .closed (by omega), ?_⟩
      rw [last]
      exact OpenFiles.get?_closed found
    | released found last removed run same =>
      subst same
      refine ⟨_, by rw [found]; exact .closed (by omega), ?_⟩
      rw [last]
      exact OpenFiles.get?_closed found

variable [BlockDevice δ] {volume : Volume δ} {id : InodeId} {inode : Inode}

theorem deny_yields (found : volume.inode? id = some inode) (fits : inode.opens < wordLimit)
    (someLeft : inode.denials < inode.opens) :
    Step.Yields (deny id).step volume fun result after =>
      result = id ∧ after.inode? id = some { inode with denials := inode.denials + 1 } := by
  simp only [step, Volume.deny, Step.ends_bind, Step.ends_pure, Volume.ends_onInode found]
  apply Step.Yields.imp (Inode.deny_yields fits someLeft)
  rintro _ _ rfl
  exact ⟨trivial, (OpenFiles.get?_set found _ id).trans (if_pos rfl)⟩

theorem allow_yields (found : volume.inode? id = some inode) (denied : 0 < inode.denials)
    (bounded : inode.denials ≤ inode.opens) :
    Step.Yields (allow id).step volume fun result after =>
      result = id ∧ after.inode? id = some { inode with denials := inode.denials - 1 } := by
  simp only [step, Volume.allow, Step.ends_bind, Step.ends_pure, Volume.ends_onInode found]
  apply Step.Yields.imp (Inode.allow_yields denied bounded)
  rintro _ _ rfl
  exact ⟨trivial, (OpenFiles.get?_set found _ id).trans (if_pos rfl)⟩

/-- Closing an inode that was not removed has nothing to give back to the map. -/
theorem close_yields (found : volume.inode? id = some inode) (isOpen : 0 < inode.opens)
    (kept : inode.removed = false) :
    Step.Yields (HandleCall.inode (.close id)).step volume fun result after =>
      result = id ∧ after.inode? id = some { inode with opens := inode.opens - 1 } := by
  simp only [step, InodeCall.step, Step.ends_bind, Step.ends_pure]
  apply (Volume.close_ends found isOpen).imp
  · intro _ after does
    obtain ⟨new, turns, inodes⟩ := (Does.inode does).turns
    rw [found] at turns
    cases turns with
    | closed => exact ⟨trivial, (inodes id).trans (if_pos rfl)⟩
  · -- what could fail is giving sectors back, and the inode keeps its own
    rintro fault _ ⟨inode', map, foundToo, last, removed, run⟩
    cases found.symm.trans foundToo
    rw [kept] at removed
    cases removed

end HandleCall

/-! ## Denials without openers -/

/-- Whether a call closes an inode of which all openers forbid writing. -/
def HandleCall.Strands (volume : Volume δ) : HandleCall → Prop
  | .inode (.close id) => ∃ inode, volume.inode? id = some inode ∧ inode.opens = inode.denials
  | _ => False

/-- Whether a call opens again and closes only what somebody has open. -/
def HandleCall.OnLive (volume : Volume δ) : HandleCall → Prop
  | .inode (.reopen id) | .inode (.close id) =>
    ∃ inode, volume.inode? id = some inode ∧ 0 < inode.opens
  | _ => True

namespace Volume

variable {volume after : Volume δ} {id : InodeId}

def DenialsWithinOpens (volume : Volume δ) : Prop :=
  ∀ id inode, volume.inode? id = some inode → inode.denials ≤ inode.opens

theorem DenialsWithinOpens.of_no_files (none : volume.files = {}) : volume.DenialsWithinOpens := by
  intro id inode found
  rw [inode?, none] at found
  cases found

variable [BlockDevice δ] {call : HandleCall}

theorem DenialsWithinOpens.of_does (within : volume.DenialsWithinOpens)
    (does : call.Does volume after id) (spared : ¬ call.Strands volume) :
    after.DenialsWithinOpens := by
  obtain ⟨new, turns, inodes⟩ := does.turns
  intro other inode foundAfter
  rw [inodes] at foundAfter
  by_cases same : other = id
  · rw [if_pos same] at foundAfter
    cases foundAfter
    generalize found : volume.inode? id = before at turns
    -- only closing takes an opener away, and here there is one to take who forbids nothing
    cases turns with
    | opened => exact Nat.zero_le _
    | again => exact Nat.le_succ_of_le (within id _ found)
    | reopened => exact Nat.le_succ_of_le (within id _ found)
    | @removed inode => exact within id inode found
    | denied someLeft => exact someLeft
    | allowed denied bounded => exact Nat.le_trans (Nat.sub_le ..) bounded
    | @closed inode isOpen =>
      have bounded := within id inode found
      have someSilent : inode.opens ≠ inode.denials := fun equal => spared ⟨inode, found, equal⟩
      show inode.denials ≤ inode.opens - 1
      omega
  · rw [if_neg same] at foundAfter
    exact within other inode foundAfter

/-- The last opener who did not forbid writing is gone, or there was none before. -/
theorem exceeds_of_strands (does : call.Does volume after id) (strands : call.Strands volume) :
    ¬ after.DenialsWithinOpens := by
  intro within
  obtain ⟨new, turns, inodes⟩ := does.turns
  generalize found : volume.inode? id = before at turns
  cases turns with
  | opened | again | reopened | removed | denied | allowed => exact strands
  | @closed inode isOpen =>
    obtain ⟨inode', foundToo, equal⟩ := strands
    cases found.symm.trans foundToo
    have bounded : inode.denials ≤ inode.opens - 1 :=
      within id _ ((inodes id).trans (if_pos rfl))
    omega

end Volume

variable [BlockDevice δ]

/-- A volume without files, after any run of calls through whatever handles of which none closes an
inode of which all openers forbid writing.  No inode has more denials than openers.

A call from there on that gives a result keeps this so just if it does not break the rule. -/
theorem denials_within_opens {start volume : Volume δ} {history : List (HandleCall × InodeId)}
    (new : start.files = {})
    (reached : HandleRun (fun volume call => ¬ call.Strands volume) start history volume) :
    (∀ id inode, volume.inode? id = some inode → inode.denials ≤ inode.opens) ∧
      ∀ (call : HandleCall) id after, call.step.run volume = .ok id after →
        (after.DenialsWithinOpens ↔ ¬ call.Strands volume) := by
  have within : volume.DenialsWithinOpens := by
    refine reached.invariant Volume.DenialsWithinOpens (.of_no_files new) ?_ ?_
    · exact fun volume after call id within spared does => within.of_does does spared
    · exact fun volume cache map within => within
  refine ⟨within, ?_⟩
  intro call id after run
  have does := HandleCall.does_of_run run
  constructor
  · exact fun kept strands => Volume.exceeds_of_strands does strands kept
  · exact fun spared => within.of_does does spared

/-! ## An opener who closes without allowing again -/

/-- A sector of zeros that is opened twice has one inode with two openers. -/
theorem Volume.opened_twice :
    let start : Volume RamDisk := .mount { sectors := 1 } (.empty 1)
    ∃ opened shared, (openFile ⟨0⟩).run start = .ok ⟨0⟩ opened ∧
      (openFile ⟨0⟩).run opened = .ok ⟨0⟩ shared ∧ shared.inode? ⟨0⟩ = some (.ofZeros 2) := by
  intro start
  have serves : (RamDisk.storage 1).Serves { sectors := 1 } := rfl
  have isStart := shows_mount (RamDisk.storage 1).toStorage serves (.empty 1)
  have inside : (⟨0⟩ : SectorNo).toNat < 1 := by decide
  obtain ⟨_, opened, first, rfl, isOpened⟩ :=
    (openFile_yields isStart inside Std.ExtTreeMap.getElem?_empty).run
  have listed : (OpenFiles.opened {} ⟨0⟩ (.decode .zero)).registry[(⟨0⟩ : SectorNo)]? =
      some ⟨0⟩ := (OpenFiles.registry_opened ..).trans (if_pos rfl)
  have found := OpenFiles.get?_opened {} ⟨0⟩ (.decode .zero)
  obtain ⟨_, shared, second, rfl, isShared⟩ :=
    (openFile_again_yields isOpened listed found (by decide)).run
  refine ⟨opened, shared, first, second, ?_⟩
  rw [inode?, isShared.files]
  exact (OpenFiles.get?_set found _ _).trans (if_pos rfl)

/-- One of two openers forbids writing. -/
theorem HandleRun.denied_once :
    let start : Volume RamDisk := .mount { sectors := 1 } (.empty 1)
    ∃ volume, HandleRun (fun volume call => call.OnLive volume ∧ ¬ call.Strands volume) start
        [(.deny ⟨0⟩, ⟨0⟩), (.inode (.openFile ⟨0⟩), ⟨0⟩), (.inode (.openFile ⟨0⟩), ⟨0⟩)] volume ∧
      volume.inode? ⟨0⟩ = some { Inode.ofZeros 2 with denials := 1 } := by
  intro start
  obtain ⟨opened, shared, first, second, foundShared⟩ := Volume.opened_twice
  have begun : HandleRun (fun volume call => call.OnLive volume ∧ ¬ call.Strands volume) start []
      start := .start
  -- opening breaks neither part of the rule
  have heeds (volume : Volume RamDisk) : HandleCall.OnLive volume (.inode (.openFile ⟨0⟩)) ∧
      ¬ HandleCall.Strands volume (.inode (.openFile ⟨0⟩)) := ⟨trivial, fun strands => strands⟩
  have reaches := (begun.call (heeds start) first).call (heeds opened) second
  obtain ⟨_, volume, reaches, rfl, found⟩ := reaches.next (.deny ⟨0⟩)
    ⟨trivial, fun strands => strands⟩
    (HandleCall.deny_yields foundShared (by decide) (by decide))
  exact ⟨volume, reaches, found⟩

/-- Of two openers one forbids writing and one closes.  As many openers as denials are left, and if
the other one closes as well then it is a denial too many. -/
theorem denials_within_opens_until_the_last_closes :
    let start : Volume RamDisk := .mount { sectors := 1 } (.empty 1)
    start.files = {} ∧ ∃ volume inode, HandleRun (fun volume call => ¬ call.Strands volume) start
        [(.inode (.close ⟨0⟩), ⟨0⟩), (.deny ⟨0⟩, ⟨0⟩), (.inode (.openFile ⟨0⟩), ⟨0⟩),
          (.inode (.openFile ⟨0⟩), ⟨0⟩)] volume ∧
      volume.inode? ⟨0⟩ = some inode ∧ inode.opens = 1 ∧ inode.denials = 1 ∧
      ∃ after, (HandleCall.inode (.close ⟨0⟩)).step.run volume = .ok ⟨0⟩ after ∧
        ¬ after.DenialsWithinOpens := by
  intro start
  obtain ⟨between, reaches, foundBetween⟩ := HandleRun.denied_once
  have spared : ¬ (HandleCall.inode (.close ⟨0⟩)).Strands between := by
    rintro ⟨inode, found, equal⟩
    cases foundBetween.symm.trans found
    cases equal
  obtain ⟨_, volume, reaches, rfl, found⟩ :=
    (reaches.mono fun _ _ heeded => heeded.2).next (.inode (.close ⟨0⟩)) spared
      (HandleCall.close_yields foundBetween (by decide) rfl)
  obtain ⟨-, next⟩ := denials_within_opens rfl reaches
  obtain ⟨_, after, run, rfl, -⟩ := (HandleCall.close_yields found (by decide) rfl).run
  refine ⟨rfl, volume, _, reaches, found, rfl, rfl, after, run, ?_⟩
  intro within
  exact (next _ _ _ run).mp within ⟨_, found, rfl⟩

/-- Both openers forbid writing, and one of them closes.  The other one cannot allow writing any
more. -/
theorem stranded_denial :
    let start : Volume RamDisk := .mount { sectors := 1 } (.empty 1)
    start.files = {} ∧ ∃ volume inode, HandleRun (fun volume call => call.OnLive volume) start
        [(.inode (.close ⟨0⟩), ⟨0⟩), (.deny ⟨0⟩, ⟨0⟩), (.deny ⟨0⟩, ⟨0⟩),
          (.inode (.openFile ⟨0⟩), ⟨0⟩), (.inode (.openFile ⟨0⟩), ⟨0⟩)] volume ∧
      volume.inode? ⟨0⟩ = some inode ∧ inode.opens < inode.denials ∧
      ∃ after, (HandleCall.allow ⟨0⟩).step.run volume = .error .denialsExceedOpens after := by
  intro start
  obtain ⟨once, reaches, foundOnce⟩ := HandleRun.denied_once
  obtain ⟨_, twice, reaches, rfl, foundTwice⟩ :=
    (reaches.mono fun _ _ heeded => heeded.1).next (.deny ⟨0⟩) trivial
      (HandleCall.deny_yields foundOnce (by decide) (by decide))
  obtain ⟨_, volume, reaches, rfl, found⟩ := reaches.next (.inode (.close ⟨0⟩))
    ⟨_, foundTwice, by decide⟩ (HandleCall.close_yields foundTwice (by decide) rfl)
  have stops : Step.Ends (HandleCall.allow ⟨0⟩).step volume (fun _ _ => False)
      fun fault _ => fault = .denialsExceedOpens := by
    simp only [HandleCall.step, Volume.allow, Step.ends_bind, Step.ends_pure,
      Volume.ends_onInode found, Inode.allow, Step.ends_get, Step.ends_ensure, Step.ends_set]
    decide
  obtain ⟨_, after, run, rfl⟩ := stops.fault
  exact ⟨rfl, volume, _, reaches, found, by decide, after, run⟩

end Residency
