import Residency.Proofs.Volume.LifeCycle

/-!
# Handles

A handle of an inode may be kept after the inode was closed, and anything may be asked through it.
`HandleCall` is what can be asked, `HandleCall.Does` what a call does that gives a result, and
`HandleRun` follows runs of such calls in which the callers heed some rule.

`one_live_inode_for_each_sector`: as long as nobody opens an inode again which nobody has open, the
inodes that somebody has open are those in the registry, one for each sector; and the first call
that breaks the rule breaks this as well.  `two_live_inodes` is a run with such a call, after which
two inodes of one sector are open.
-/

namespace Residency

/-- What can be asked through a handle of an inode. -/
inductive HandleCall where
  | inode (call : InodeCall)
  | deny (id : InodeId)
  | allow (id : InodeId)
deriving DecidableEq

/-! ## One inode -/

namespace Inode

variable {inode : Inode}

theorem addOpener_ends : Step.Ends addOpener inode
    (fun _ after => inode.opens + 1 < wordLimit ∧
      after = { inode with opens := inode.opens + 1 })
    fun _ after => after = inode := by
  simp only [addOpener, Step.ends_bind, Step.ends_get, Step.ends_addSizes, Step.ends_modify]
  split
  next fits => exact ⟨fits, trivial⟩
  next => trivial

theorem deny_ends : Step.Ends deny inode
    (fun _ after => inode.denials < inode.opens ∧
      after = { inode with denials := inode.denials + 1 })
    fun _ _ => True := by
  simp only [deny, Step.ends_bind, Step.ends_get, Step.ends_addSizes, Step.ends_modify,
    Step.ends_ensure, decide_eq_true_eq]
  split
  · split
    next someLeft => exact ⟨someLeft, trivial⟩
    next => trivial
  · trivial

theorem allow_ends : Step.Ends allow inode
    (fun _ after => 0 < inode.denials ∧ inode.denials ≤ inode.opens ∧
      after = { inode with denials := inode.denials - 1 })
    fun _ _ => True := by
  simp only [allow, Step.ends_bind, Step.ends_get, Step.ends_ensure, decide_eq_true_eq,
    Step.ends_set]
  split
  next denied =>
    split
    next bounded => exact ⟨denied, bounded, trivial⟩
    next => trivial
  next => trivial

end Inode

variable {δ : Type}

/-! ## The inodes that somebody has open -/

namespace Volume

variable {volume : Volume δ} {id : InodeId} {inode : Inode}

/-- The inodes that somebody has open are those that the registry holds for their sectors. -/
def LiveAreRegistered (volume : Volume δ) : Prop :=
  ∀ id inode, volume.inode? id = some inode → 0 < inode.opens →
    volume.files.registry[inode.sector]? = some id

theorem LiveAreRegistered.unique (registered : volume.LiveAreRegistered) {other : InodeId}
    {inode' : Inode} (found : volume.inode? id = some inode) (isOpen : 0 < inode.opens)
    (foundThere : volume.inode? other = some inode') (isOpenThere : 0 < inode'.opens)
    (same : inode.sector = inode'.sector) : id = other := by
  have here := registered id inode found isOpen
  have there := registered other inode' foundThere isOpenThere
  rw [same, there] at here
  exact (Option.some.inj here).symm

theorem Registers.liveAreRegistered (registers : volume.Registers) : volume.LiveAreRegistered :=
  fun id inode found isOpen => (registers inode.sector id).mpr ⟨inode, found, rfl, isOpen⟩

theorem Registers.of_no_files (none : volume.files = {}) : volume.Registers :=
  (Follows.of_no_files none).registers

/-- An inode may change as long as it is open under the same sector as before, or not open. -/
theorem Registers.set (registers : volume.Registers) (found : volume.inode? id = some inode)
    {new : Inode} (sector : new.sector = inode.sector) (live : 0 < new.opens ↔ 0 < inode.opens) :
    Registers { volume with files := volume.files.set id new } := by
  intro place other
  have inodes : inode? { volume with files := volume.files.set id new } other =
      if other = id then some new else volume.inode? other := OpenFiles.get?_set found new other
  rw [inodes]
  refine (registers place other).trans ?_
  by_cases same : other = id
  · subst same
    rw [if_pos rfl, found]
    simp only [Option.some.injEq, exists_eq_left', sector, live]
  · rw [if_neg same]

/-! ## Calls that give a result -/

/-- A step on an inode gives a result only if there is the inode. -/
theorem onInode_ends {α : Type} {step : Step Inode α} {done : α → Volume δ → Prop}
    {stopped : Fault → Volume δ → Prop} (missing : stopped .unknownInode volume)
    (ends : ∀ inode, volume.inode? id = some inode → Step.Ends step inode
      (fun a new => done a { volume with files := volume.files.set id new })
      fun fault new => stopped fault { volume with files := volume.files.set id new }) :
    Step.Ends (onInode id step) volume done stopped := by
  cases found : volume.inode? id with
  | some inode => exact (ends_onInode found step).mpr (ends inode found)
  | none =>
    have notFound : volume.files.get? id = none := found
    simp only [onInode, onFiles, OpenFiles.onInode, Step.ends_on, Step.ends_bind, Step.ends_getThe,
      notFound]
    exact (Step.ends_throw _).mpr missing

/-- An inode gets another opener, or nothing changes for any inode. -/
theorem addOpener_ends (volume : Volume δ) (id : InodeId) :
    Step.Ends (onInode id Inode.addOpener) volume
      (fun _ after => ∃ inode, volume.inode? id = some inode ∧ inode.opens + 1 < wordLimit ∧
        after = { volume with
          files := volume.files.set id { inode with opens := inode.opens + 1 } })
      fun _ after => after.files = volume.files := by
  apply onInode_ends rfl
  intro inode found
  refine Inode.addOpener_ends.imp ?_ ?_
  · rintro _ _ ⟨fits, rfl⟩
    exact ⟨inode, found, fits, rfl⟩
  · rintro _ _ rfl
    exact OpenFiles.set_self found

end Volume

/-- Whether a call opens an inode again that nobody has open. -/
def HandleCall.Wakes (volume : Volume δ) : HandleCall → Prop
  | .inode (.reopen id) => ∃ inode, volume.inode? id = some inode ∧ inode.opens = 0
  | _ => False

variable [BlockDevice δ]

theorem InodeCall.ends_does (call : InodeCall) (volume : Volume δ) :
    Step.Ends call.step volume (fun id after => call.Does volume after id) fun _ _ => True := by
  cases call with
  | openFile sector =>
    cases isOpen : volume.files.registry[sector]? with
    | none => exact (Volume.openFile_ends isOpen).imp (fun _ _ => id) fun _ _ _ => trivial
    | some id =>
      simp only [step, Volume.openFile, Step.ends_bind, Step.ends_get, isOpen, Step.ends_pure]
      refine (volume.addOpener_ends id).imp ?_ fun _ _ _ => trivial
      rintro _ _ ⟨inode, found, -, same⟩
      exact .again isOpen found same
  | reopen id =>
    simp only [step, Volume.reopen, Step.ends_bind, Step.ends_pure]
    refine (volume.addOpener_ends id).imp ?_ fun _ _ _ => trivial
    rintro _ _ ⟨inode, found, -, same⟩
    exact .reopened found same
  | close id =>
    simp only [step, Step.ends_bind, Step.ends_pure]
    by_cases live : ∃ inode, volume.inode? id = some inode ∧ 0 < inode.opens
    · obtain ⟨inode, found, isOpen⟩ := live
      exact (Volume.close_ends found isOpen).imp (fun _ _ does => does) fun _ _ _ => trivial
    · -- closing what nobody has open stops before it changes anything
      simp only [Volume.close, Step.ends_bind]
      apply Volume.onInode_ends trivial
      intro inode found
      have closed : ¬ 0 < inode.opens := fun isOpen => live ⟨inode, found, isOpen⟩
      simp [Inode.dropOpener, closed]
  | remove id =>
    simp only [step, Volume.remove, Step.ends_bind, Step.ends_pure]
    apply Volume.onInode_ends trivial
    intro inode found
    apply Step.Yields.imp Inode.remove_yields
    rintro _ _ rfl
    exact .removed found rfl

namespace HandleCall

/-- Makes a call; gives the inode that it was about. -/
def step : HandleCall → Step (Volume δ) InodeId
  | .inode call => call.step
  | .deny id => do
    Volume.deny id
    return id
  | .allow id => do
    Volume.allow id
    return id

/-- What a call does that gives a result. -/
inductive Does (volume after : Volume δ) : HandleCall → InodeId → Prop where
  | inode {call : InodeCall} {id : InodeId} (does : call.Does volume after id) :
      Does volume after (.inode call) id
  | denied {id : InodeId} {inode : Inode} (found : volume.inode? id = some inode)
      (someLeft : inode.denials < inode.opens)
      (same : after = { volume with
        files := volume.files.set id { inode with denials := inode.denials + 1 } }) :
      Does volume after (.deny id) id
  | allowed {id : InodeId} {inode : Inode} (found : volume.inode? id = some inode)
      (denied : 0 < inode.denials) (bounded : inode.denials ≤ inode.opens)
      (same : after = { volume with
        files := volume.files.set id { inode with denials := inode.denials - 1 } }) :
      Does volume after (.allow id) id

theorem does_of_run {call : HandleCall} {volume after : Volume δ} {id : InodeId}
    (run : call.step.run volume = .ok id after) : call.Does volume after id := by
  have ends : Step.Ends call.step volume (fun id after => call.Does volume after id)
      fun _ _ => True := by
    cases call with
    | inode call => exact (call.ends_does volume).imp (fun _ _ => .inode) fun _ _ _ => trivial
    | deny id =>
      simp only [step, Volume.deny, Step.ends_bind, Step.ends_pure]
      apply Volume.onInode_ends trivial
      intro inode found
      refine Inode.deny_ends.imp ?_ fun _ _ _ => trivial
      rintro _ _ ⟨someLeft, rfl⟩
      exact .denied found someLeft rfl
    | allow id =>
      simp only [step, Volume.allow, Step.ends_bind, Step.ends_pure]
      apply Volume.onInode_ends trivial
      intro inode found
      refine Inode.allow_ends.imp ?_ fun _ _ _ => trivial
      rintro _ _ ⟨denied, bounded, rfl⟩
      exact .allowed found denied bounded rfl
  exact ends.done_of_run run

end HandleCall

/-! ## Runs -/

/-- The volumes that runs of calls lead to in which the callers heed a rule, with the calls and the
inodes that they were about, the latest first.  The cache and the map may be used by others in
between. -/
inductive HandleRun (rule : Volume δ → HandleCall → Prop) (start : Volume δ) :
    List (HandleCall × InodeId) → Volume δ → Prop where
  | start : HandleRun rule start [] start
  | call {history : List (HandleCall × InodeId)} {volume after : Volume δ} {call : HandleCall}
      {id : InodeId} (reached : HandleRun rule start history volume) (heeded : rule volume call)
      (run : call.step.run volume = .ok id after) :
      HandleRun rule start ((call, id) :: history) after
  | elsewhere {history : List (HandleCall × InodeId)} {volume : Volume δ}
      (reached : HandleRun rule start history volume) (cache : Cache δ) (map : Bitmap) :
      HandleRun rule start history { volume with cache, map }

namespace HandleRun

variable {rule rule' : Volume δ → HandleCall → Prop} {start volume : Volume δ}
  {history : List (HandleCall × InodeId)}

theorem invariant (holds : Volume δ → Prop) (atFirst : holds start)
    (kept : ∀ volume after call id, holds volume → rule volume call →
      HandleCall.Does volume after call id → holds after)
    (elsewhere : ∀ volume cache map, holds volume → holds { volume with cache, map })
    (reached : HandleRun rule start history volume) : holds volume := by
  induction reached with
  | start => exact atFirst
  | call _ heeded run inductionHypothesis =>
    exact kept _ _ _ _ inductionHypothesis heeded (HandleCall.does_of_run run)
  | elsewhere _ cache map inductionHypothesis => exact elsewhere _ cache map inductionHypothesis

/-- A run goes on with a call of which it is known how it ends. -/
theorem next (reached : HandleRun rule start history volume) (call : HandleCall)
    (heeded : rule volume call) {done : InodeId → Volume δ → Prop}
    (yields : Step.Yields call.step volume done) :
    ∃ id after, HandleRun rule start ((call, id) :: history) after ∧ done id after := by
  obtain ⟨id, after, run, holds⟩ := yields.run
  exact ⟨id, after, reached.call heeded run, holds⟩

theorem mono (weaker : ∀ volume call, rule volume call → rule' volume call)
    (reached : HandleRun rule start history volume) : HandleRun rule' start history volume := by
  induction reached with
  | start => exact .start
  | call _ heeded run inductionHypothesis =>
    exact inductionHypothesis.call (weaker _ _ heeded) run
  | elsewhere _ cache map inductionHypothesis => exact inductionHypothesis.elsewhere cache map

end HandleRun

/-! ## One inode for each sector -/

namespace Volume

variable {volume after : Volume δ} {id : InodeId} {inode : Inode}

/-- What a call does that does not open an inode again which nobody has open. -/
theorem Registers.of_does (registers : volume.Registers) {call : HandleCall}
    (does : call.Does volume after id) (sleeps : ¬ call.Wakes volume) : after.Registers := by
  cases does with
  | denied found someLeft same =>
    subst same
    exact registers.set found rfl Iff.rfl
  | allowed found denied bounded same =>
    subst same
    exact registers.set found rfl Iff.rfl
  | inode does =>
    cases does with
    | again listed found same =>
      -- what the registry lists is open, so it only gets another opener
      obtain ⟨inode, foundToo, -, isOpen⟩ := (registers _ _).mp listed
      cases found.symm.trans foundToo
      subst same
      exact registers.set found rfl (iff_of_true (Nat.succ_pos _) isOpen)
    | new notOpen run files map mapCalls =>
      exact Follows.registers_next registers (becomes_new registers notOpen after files mapCalls)
    | @reopened _ inode found same =>
      have isOpen : 0 < inode.opens :=
        Nat.pos_of_ne_zero fun closed => sleeps ⟨inode, found, closed⟩
      subst same
      exact registers.set found rfl (iff_of_true (Nat.succ_pos _) isOpen)
    | removed found same =>
      subst same
      exact registers.set found rfl Iff.rfl
    | closedEarly found others same =>
      subst same
      exact registers.set found rfl (iff_of_true (Nat.sub_pos_of_lt others) (by omega))
    | closedLast found last kept same =>
      subst same
      exact Follows.registers_next registers
        (becomes_closed registers found (by omega) _ rfl (by simp [kept]))
    | released found last removed run same =>
      subst same
      exact Follows.registers_next registers
        (becomes_closed registers found (by omega) _ rfl (by simp [removed]))

/-- An inode that nobody has open is not in the registry, and opening it again does not put it
there. -/
theorem Registers.not_registered_of_wakes (registers : volume.Registers) {call : HandleCall}
    (does : call.Does volume after id) (wakes : call.Wakes volume) : ¬ after.LiveAreRegistered := by
  intro registered
  cases does with
  | denied => exact wakes
  | allowed => exact wakes
  | inode does =>
    cases does with
    | @reopened id inode found same =>
      obtain ⟨closed, foundToo, noOpener⟩ := wakes
      cases found.symm.trans foundToo
      subst same
      let woken : Inode := { inode with opens := inode.opens + 1 }
      have foundAfter : inode? { volume with files := volume.files.set id woken } id =
          some woken := by
        rw [inode?, OpenFiles.get?_set found, if_pos rfl]
      -- the registry is the same as before, and would have listed it while nobody had it open
      have listed : volume.files.registry[inode.sector]? = some id :=
        registered id woken foundAfter (Nat.succ_pos _)
      obtain ⟨inode', foundThere, -, isOpen⟩ := (registers _ _).mp listed
      cases found.symm.trans foundThere
      exact absurd noOpener (Nat.ne_of_gt isOpen)
    | again | new | removed | closedEarly | closedLast | released => exact wakes

end Volume

/-- A volume without files, after any run of calls through whatever handles of which none opens an
inode again that nobody has open.  No two inodes with openers are of the same sector, and each of
them is the one that the registry holds for its sector.

A call from there on that gives a result keeps this so just if it does not break the rule. -/
theorem one_live_inode_for_each_sector {start volume : Volume δ}
    {history : List (HandleCall × InodeId)} (new : start.files = {})
    (reached : HandleRun (fun volume call => ¬ call.Wakes volume) start history volume) :
    (∀ id other inode inode', volume.inode? id = some inode → volume.inode? other = some inode' →
        0 < inode.opens → 0 < inode'.opens → inode.sector = inode'.sector → id = other) ∧
      (∀ id inode, volume.inode? id = some inode → 0 < inode.opens →
        volume.files.registry[inode.sector]? = some id) ∧
      ∀ (call : HandleCall) id after, call.step.run volume = .ok id after →
        (after.LiveAreRegistered ↔ ¬ call.Wakes volume) := by
  have registers : volume.Registers := by
    refine reached.invariant Volume.Registers (.of_no_files new) ?_ ?_
    · exact fun volume after call id registers sleeps does => registers.of_does does sleeps
    · exact fun volume cache map registers => registers
  have registered := registers.liveAreRegistered
  refine ⟨fun id other inode inode' found foundThere isOpen isOpenThere same =>
    registered.unique found isOpen foundThere isOpenThere same, registered, ?_⟩
  intro call id after run
  have does := HandleCall.does_of_run run
  constructor
  · exact fun kept wakes => registers.not_registered_of_wakes does wakes kept
  · exact fun sleeps => (registers.of_does does sleeps).liveAreRegistered

/-! ## A sector that is opened anew -/

/-- The inode of a sector of zeros, with as many openers. -/
def Inode.ofZeros (opens : Nat) : Inode :=
  { sector := ⟨0⟩, descriptor := .decode .zero, opens }

/-- A sector that is opened, closed and opened anew has another inode then. -/
theorem HandleRun.opened_anew :
    let start : Volume RamDisk := .mount { sectors := 1 } (.empty 1)
    ∃ volume, HandleRun (fun volume call => ¬ call.Wakes volume) start
        [(.inode (.openFile ⟨0⟩), ⟨1⟩), (.inode (.close ⟨0⟩), ⟨0⟩),
          (.inode (.openFile ⟨0⟩), ⟨0⟩)] volume ∧
      volume.inode? ⟨0⟩ = some (.ofZeros 0) ∧ volume.inode? ⟨1⟩ = some (.ofZeros 1) := by
  intro start
  have serves : (RamDisk.storage 1).Serves { sectors := 1 } := rfl
  have isStart := Volume.shows_mount (RamDisk.storage 1).toStorage serves (.empty 1)
  have begun : HandleRun (fun volume call => ¬ call.Wakes volume) start [] start := .start
  obtain ⟨_, opened, reaches, rfl, isOpened⟩ := begun.next (.inode (.openFile ⟨0⟩)) id
    (Volume.openFile_yields isStart (by decide) Std.ExtTreeMap.getElem?_empty)
  have foundOpened := OpenFiles.get?_opened {} ⟨0⟩ (.decode .zero)
  obtain ⟨_, closed, reaches, rfl, _, isClosed⟩ := reaches.next (.inode (.close ⟨0⟩)) id
    ((Volume.close_last_yields isOpened foundOpened rfl rfl).returning _)
  -- the last opener took the first inode out of the registry, so the sector gets a second one
  have notOpen : ((OpenFiles.opened {} ⟨0⟩ (.decode .zero)).closed ⟨0⟩
      (.ofZeros 1)).registry[(⟨0⟩ : SectorNo)]? = none :=
    (OpenFiles.registry_closed ..).trans (if_pos rfl)
  obtain ⟨_, volume, reaches, rfl, isAnew⟩ := reaches.next (.inode (.openFile ⟨0⟩)) id
    (Volume.openFile_yields isClosed (by decide) notOpen)
  refine ⟨volume, reaches, ?_, ?_⟩
  · rw [Volume.inode?, isAnew.files]
    rfl
  · rw [Volume.inode?, isAnew.files]
    rfl

/-- Of a sector that is opened, closed and opened anew, the second inode is the one that is live. -/
theorem one_live_inode_after_opening_anew :
    let start : Volume RamDisk := .mount { sectors := 1 } (.empty 1)
    start.files = {} ∧ ∃ volume, HandleRun (fun volume call => ¬ call.Wakes volume) start
        [(.inode (.openFile ⟨0⟩), ⟨1⟩), (.inode (.close ⟨0⟩), ⟨0⟩),
          (.inode (.openFile ⟨0⟩), ⟨0⟩)] volume ∧
      volume.files.registry[(⟨0⟩ : SectorNo)]? = some ⟨1⟩ ∧
      ∀ id inode, volume.inode? id = some inode → 0 < inode.opens → inode.sector = ⟨0⟩ →
        id = ⟨1⟩ := by
  intro start
  obtain ⟨volume, reaches, -, foundAnew⟩ := HandleRun.opened_anew
  obtain ⟨unique, registered, -⟩ := one_live_inode_for_each_sector rfl reaches
  refine ⟨rfl, volume, reaches, registered _ _ foundAnew Nat.one_pos, ?_⟩
  intro id inode found isOpen sector
  exact unique _ _ _ _ found foundAnew isOpen Nat.one_pos sector

/-- The first inode of the sector is opened again through a handle that was kept.  Both inodes of the
sector have an opener then. -/
theorem two_live_inodes :
    let start : Volume RamDisk := .mount { sectors := 1 } (.empty 1)
    start.files = {} ∧ ∃ volume first second, HandleRun (fun _ _ => True) start
        [(.inode (.reopen ⟨0⟩), ⟨0⟩), (.inode (.openFile ⟨0⟩), ⟨1⟩), (.inode (.close ⟨0⟩), ⟨0⟩),
          (.inode (.openFile ⟨0⟩), ⟨0⟩)] volume ∧
      volume.inode? ⟨0⟩ = some first ∧ volume.inode? ⟨1⟩ = some second ∧
      0 < first.opens ∧ 0 < second.opens ∧ first.sector = second.sector := by
  intro start
  obtain ⟨between, reaches, found, foundAnew⟩ := HandleRun.opened_anew
  have reopening : Step.Yields (HandleCall.inode (.reopen ⟨0⟩)).step between fun id after =>
      id = ⟨0⟩ ∧ after = { between with files := between.files.set ⟨0⟩ (.ofZeros 1) } := by
    simp only [HandleCall.step, InodeCall.step, Volume.reopen, Step.ends_bind, Step.ends_pure,
      Volume.ends_onInode found]
    apply Step.Yields.imp (Inode.addOpener_yields (by decide))
    rintro _ _ rfl
    exact ⟨trivial, rfl⟩
  obtain ⟨_, volume, reaches, rfl, rfl⟩ :=
    (reaches.mono fun _ _ _ => trivial).next (.inode (.reopen ⟨0⟩)) trivial reopening
  refine ⟨rfl, _, .ofZeros 1, .ofZeros 1, reaches, ?_, ?_, Nat.one_pos, Nat.one_pos, rfl⟩
  · rw [Volume.inode?, OpenFiles.get?_set found, if_pos rfl]
  · rw [Volume.inode?, OpenFiles.get?_set found, if_neg (by decide)]
    exact foundAnew

end Residency
