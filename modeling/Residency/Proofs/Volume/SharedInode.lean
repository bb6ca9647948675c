import Mathlib.Data.Finset.Card
import Residency.Proofs.Volume.Denials

/-!
# Inodes with several openers

The rule for those who share an inode is that each of them forbids writing once at most, and allows
it again before he closes the inode.  `SharedRun` follows the openers of one inode who keep to it,
each by name, whatever is asked of other inodes in between.

`Inode.Tallies` says that the inode counts its openers and those of them who forbid writing, and
`SharedRun.tallied` that it always does.  The result is `one_denial_for_each_denier`: nothing that an
opener may ask for fails, and what is written reaches the cache just if no opener forbids it.
-/

namespace Residency

variable {δ : Type}

theorem one_lt_wordLimit : 1 < wordLimit := by decide

/-! ## Opening and writing -/

namespace Volume

variable {volume : Volume δ} {id : InodeId} {inode : Inode}

theorem getInode_run (found : volume.inode? id = some inode) :
    (onInode id get).run volume = .ok inode volume := by
  have yields : Step.Yields (onInode id get) volume fun result after =>
      result = inode ∧ after = volume := by
    simp only [ends_onInode found, Step.ends_get, OpenFiles.set_self found]
    exact ⟨trivial, trivial⟩
  obtain ⟨_, _, run, rfl, rfl⟩ := yields.run
  exact run

variable [BlockDevice δ]

/-- A sector that is not open gets an inode with one opener. -/
theorem openFile_new {sector : SectorNo} (notOpen : volume.files.registry[sector]? = none) :
    Step.Ends (openFile sector) volume
      (fun id after => ∃ descriptor, after.inode? id = some { sector, descriptor })
      fun _ after => after.files = volume.files := by
  apply (openFile_ends notOpen).imp
  · intro id after does
    cases does with
    | again isOpen => cases notOpen.symm.trans isOpen
    | @new _ descriptor _ _ files =>
      refine ⟨descriptor, ?_⟩
      rw [inode?, files]
      exact OpenFiles.get?_opened ..
  · exact fun _ _ => And.right

/-- The inode that was opened has no more openers than a word can count.  If opening stops then it
leaves all inodes as they are. -/
theorem opening_ends (call : InodeCall) (opening : call.isOpening = true) (volume : Volume δ) :
    Step.Ends call.step volume
      (fun id after => ∃ inode, after.inode? id = some inode ∧ inode.opens < wordLimit)
      fun _ after => after.files = volume.files := by
  have another (id : InodeId) : Step.Ends (onInode id Inode.addOpener) volume
      (fun _ after => ∃ inode, after.inode? id = some inode ∧ inode.opens < wordLimit)
      fun _ after => after.files = volume.files := by
    apply (addOpener_ends volume id).imp
    · rintro _ _ ⟨inode, found, fits, rfl⟩
      exact ⟨_, (OpenFiles.get?_set found _ id).trans (if_pos rfl), fits⟩
    · exact fun _ _ same => same
  cases call with
  | reopen id =>
    simp only [InodeCall.step, reopen, Step.ends_bind, Step.ends_pure]
    exact another id
  | openFile sector =>
    cases isOpen : volume.files.registry[sector]? with
    | some id =>
      simp only [InodeCall.step, openFile, Step.ends_bind, Step.ends_get, isOpen, Step.ends_pure]
      exact another id
    | none =>
      apply (openFile_new isOpen).imp
      · intro id after ended
        obtain ⟨descriptor, found⟩ := ended
        exact ⟨_, found, one_lt_wordLimit⟩
      · exact fun _ _ same => same
  | close id => cases opening
  | remove id => cases opening

/-- What is written reaches the cache, or nothing happens at all. -/
theorem writeAt_run (found : volume.inode? id = some inode) (position : Nat) (data : List UInt8) :
    (writeAt id position data).run volume =
      if 0 < inode.denials then .ok 0 volume
      else (onCache (Cache.writeFile inode.descriptor position data.length data)).run volume := by
  rw [writeAt, Step.run_bind_of_ok (getInode_run found)]
  split <;> rfl

theorem writeAt_ends (found : volume.inode? id = some inode) (position : Nat)
    (data : List UInt8) :
    Step.Ends (writeAt id position data) volume (fun _ after => after.files = volume.files)
      fun _ after => after.files = volume.files := by
  simp only [writeAt, onCache, Step.ends_bind, ends_onInode found, Step.ends_get,
    OpenFiles.set_self found]
  split
  · exact (Step.ends_pure _).mpr rfl
  · rw [Step.ends_on]
    -- whatever the cache does, the open files are no part of it
    exact (Step.ends_run _ _).imp (fun _ _ _ => rfl) fun _ _ _ => rfl

end Volume

/-! ## Openers who keep to the rule -/

/-- Those who have an inode open, and those of them who forbid writing. -/
structure Openers (ω : Type) where
  all : Finset ω
  denying : Finset ω
  denying_subset : denying ⊆ all

/-- What an opener of an inode asks for. -/
inductive OpenerCall (ω : Type) where
  | openFile (who : ω)
  | reopen (who : ω)
  | close (who : ω)
  | deny (who : ω)
  | allow (who : ω)

variable {ω : Type}

namespace OpenerCall

/-- The call as the volume gets it, which does not see who asks. -/
def on (sector : SectorNo) (id : InodeId) : OpenerCall ω → HandleCall
  | .openFile _ => .inode (.openFile sector)
  | .reopen _ => .inode (.reopen id)
  | .close _ => .inode (.close id)
  | .deny _ => .deny id
  | .allow _ => .allow id

def IsOpening : OpenerCall ω → Prop
  | .openFile _ | .reopen _ => True
  | .close _ | .deny _ | .allow _ => False

/-- The rule: each opener forbids writing once at most, and allows it again before he closes. -/
def Permitted (openers : Openers ω) : OpenerCall ω → Prop
  | .openFile who | .reopen who => who ∉ openers.all
  | .close who | .deny who => who ∈ openers.all ∧ who ∉ openers.denying
  | .allow who => who ∈ openers.denying

instance [DecidableEq ω] (openers : Openers ω) :
    (call : OpenerCall ω) → Decidable (call.Permitted openers)
  | .openFile who | .reopen who => inferInstanceAs (Decidable (who ∉ openers.all))
  | .close who | .deny who =>
    inferInstanceAs (Decidable (who ∈ openers.all ∧ who ∉ openers.denying))
  | .allow who => inferInstanceAs (Decidable (who ∈ openers.denying))

end OpenerCall

/-- An inode counts its openers and those of them who forbid writing. -/
structure Inode.Tallies (inode : Inode) (openers : Openers ω) : Prop where
  opens : inode.opens = openers.all.card
  denials : inode.denials = openers.denying.card
  kept : inode.removed = false
  fits : inode.opens < wordLimit

namespace Inode.Tallies

variable {inode : Inode} {openers : Openers ω} {call : OpenerCall ω} {sector : SectorNo}
  {id : InodeId}

/-- An opener who does not forbid writing is one more than those who do. -/
theorem denials_lt_opens (tallies : inode.Tallies openers) {who : ω} (isOpen : who ∈ openers.all)
    (silent : who ∉ openers.denying) : inode.denials < inode.opens := by
  rw [tallies.denials, tallies.opens]
  apply Finset.card_lt_card
  exact (Finset.ssubset_iff_of_subset openers.denying_subset).mpr ⟨who, isOpen, silent⟩

variable [BlockDevice δ]

/-- What an opener asks for may not stop unless he opens the inode. -/
theorem call_yields (tallies : inode.Tallies openers) {volume : Volume δ}
    (found : volume.inode? id = some inode) (permitted : call.Permitted openers)
    (notOpening : ¬ call.IsOpening) :
    Step.Yields (call.on sector id).step volume fun result _ => result = id := by
  cases call with
  | openFile who | reopen who => exact (notOpening trivial).elim
  | close who =>
    have isOpen := Nat.zero_lt_of_lt (tallies.denials_lt_opens permitted.1 permitted.2)
    exact (HandleCall.close_yields found isOpen tallies.kept).imp fun _ _ => And.left
  | deny who =>
    have someLeft := tallies.denials_lt_opens permitted.1 permitted.2
    exact (HandleCall.deny_yields found tallies.fits someLeft).imp fun _ _ => And.left
  | allow who =>
    have denied : 0 < inode.denials := by
      rw [tallies.denials]
      exact Finset.card_pos.mpr ⟨who, permitted⟩
    have bounded : inode.denials ≤ inode.opens := by
      rw [tallies.denials, tallies.opens]
      exact Finset.card_le_card openers.denying_subset
    exact (HandleCall.allow_yields found denied bounded).imp fun _ _ => And.left

end Inode.Tallies

variable [BlockDevice δ]

/-- A call that opens either gives an inode whose openers fit a word, or it leaves all inodes as they
are. -/
theorem OpenerCall.ends_of_opening {call : OpenerCall ω} (opening : call.IsOpening)
    (sector : SectorNo) (id : InodeId) (volume : Volume δ) :
    Step.Ends (call.on sector id).step volume
      (fun id after => ∃ inode, after.inode? id = some inode ∧ inode.opens < wordLimit)
      fun _ after => after.files = volume.files := by
  cases call with
  | openFile who => exact Volume.opening_ends (.openFile sector) rfl volume
  | reopen who => exact Volume.opening_ends (.reopen id) rfl volume
  | close who | deny who | allow who => exact opening.elim

/-! ## Runs -/

variable [DecidableEq ω]

/-- The openers after a call. -/
def Openers.after (openers : Openers ω) :
    (call : OpenerCall ω) → call.Permitted openers → Openers ω
  | .openFile who, _ | .reopen who, _ =>
    { all := insert who openers.all
      denying := openers.denying
      denying_subset := openers.denying_subset.trans (Finset.subset_insert ..) }
  | .close who, permitted =>
    { all := openers.all.erase who
      denying := openers.denying
      denying_subset := Finset.subset_erase.mpr ⟨openers.denying_subset, permitted.2⟩ }
  | .deny who, permitted =>
    { openers with
      denying := insert who openers.denying
      denying_subset := Finset.insert_subset permitted.1 openers.denying_subset }
  | .allow who, _ =>
    { openers with
      denying := openers.denying.erase who
      denying_subset := (Finset.erase_subset ..).trans openers.denying_subset }

/-- The volumes that lie on runs of the openers of one inode, from its first opening on.  Writes may
be asked for by anybody, and anything may happen in between that leaves the inode alone. -/
inductive SharedRun (sector : SectorNo) (id : InodeId) : Openers ω → Volume δ → Prop where
  | opened {volume after : Volume δ} (who : ω) (notOpen : volume.files.registry[sector]? = none)
      (run : (Volume.openFile sector).run volume = .ok id after) :
      SharedRun sector id ⟨{who}, ∅, Finset.empty_subset _⟩ after
  | call {openers : Openers ω} {volume after : Volume δ}
      (reached : SharedRun sector id openers volume) (call : OpenerCall ω)
      (permitted : call.Permitted openers)
      (run : (call.on sector id).step.run volume = .ok id after) :
      SharedRun sector id (openers.after call permitted) after
  | stopped {openers : Openers ω} {volume after : Volume δ} {fault : Fault}
      (reached : SharedRun sector id openers volume) (call : OpenerCall ω)
      (permitted : call.Permitted openers)
      (run : (call.on sector id).step.run volume = .error fault after) :
      SharedRun sector id openers after
  | write {openers : Openers ω} {volume after : Volume δ} {written : Nat}
      (reached : SharedRun sector id openers volume) (position : Nat) (data : List UInt8)
      (run : (Volume.writeAt id position data).run volume = .ok written after) :
      SharedRun sector id openers after
  | writeStopped {openers : Openers ω} {volume after : Volume δ} {fault : Fault}
      (reached : SharedRun sector id openers volume) (position : Nat) (data : List UInt8)
      (run : (Volume.writeAt id position data).run volume = .error fault after) :
      SharedRun sector id openers after
  | elsewhere {openers : Openers ω} {volume after : Volume δ}
      (reached : SharedRun sector id openers volume) (same : after.inode? id = volume.inode? id) :
      SharedRun sector id openers after

/-- What a call makes of an inode is what it makes of the openers. -/
theorem Inode.Tallies.of_turns {inode new : Inode} {openers : Openers ω} {call : OpenerCall ω}
    {sector : SectorNo} {id : InodeId} (tallies : inode.Tallies openers)
    (permitted : call.Permitted openers)
    (turns : (call.on sector id).Turns id (some inode) new)
    (fits : call.IsOpening → new.opens < wordLimit) :
    new.Tallies (openers.after call permitted) := by
  -- who opens was not among the openers, and who closes was; so it is with denials
  cases call with
  | openFile who | reopen who =>
    cases turns
    refine ⟨?_, tallies.denials, tallies.kept, fits trivial⟩
    rw [tallies.opens]
    exact (Finset.card_insert_of_notMem permitted).symm
  | close who =>
    cases turns
    refine ⟨?_, tallies.denials, tallies.kept, Nat.lt_of_le_of_lt (Nat.sub_le ..) tallies.fits⟩
    rw [tallies.opens]
    exact (Finset.card_erase_of_mem permitted.1).symm
  | deny who =>
    cases turns
    refine ⟨tallies.opens, ?_, tallies.kept, tallies.fits⟩
    rw [tallies.denials]
    exact (Finset.card_insert_of_notMem permitted.2).symm
  | allow who =>
    cases turns
    refine ⟨tallies.opens, ?_, tallies.kept, tallies.fits⟩
    rw [tallies.denials]
    exact (Finset.card_erase_of_mem permitted).symm

namespace SharedRun

variable {sector : SectorNo} {id : InodeId} {openers : Openers ω} {volume : Volume δ}

theorem tallied (reached : SharedRun sector id openers volume) :
    ∃ inode, volume.inode? id = some inode ∧ inode.Tallies openers := by
  induction reached with
  | @opened volume after who notOpen run =>
    obtain ⟨descriptor, found⟩ := (Volume.openFile_new notOpen).done_of_run run
    exact ⟨_, found, (Finset.card_singleton who).symm, Finset.card_empty.symm, rfl,
      one_lt_wordLimit⟩
  | @call openers volume after reached call permitted run inductionHypothesis =>
    obtain ⟨inode, found, tallies⟩ := inductionHypothesis
    obtain ⟨new, turns, inodes⟩ := (HandleCall.does_of_run run).turns
    rw [found] at turns
    have foundNew : after.inode? id = some new := (inodes id).trans (if_pos rfl)
    refine ⟨new, foundNew, tallies.of_turns permitted turns ?_⟩
    intro opening
    obtain ⟨inode', foundToo, fits⟩ :=
      (OpenerCall.ends_of_opening opening sector id volume).done_of_run run
    cases foundNew.symm.trans foundToo
    exact fits
  | @stopped openers volume after fault reached call permitted run inductionHypothesis =>
    obtain ⟨inode, found, tallies⟩ := inductionHypothesis
    -- a call that stopped was an opening, and those leave the inodes alone
    by_cases opening : call.IsOpening
    · have same := (OpenerCall.ends_of_opening opening sector id volume).stopped_of_run run
      refine ⟨inode, ?_, tallies⟩
      rw [Volume.inode?, same]
      exact found
    · exact ((tallies.call_yields found permitted opening).stopped_of_run run).elim
  | write reached position data run inductionHypothesis =>
    obtain ⟨inode, found, tallies⟩ := inductionHypothesis
    have same := (Volume.writeAt_ends found position data).done_of_run run
    exact ⟨inode, (congrArg (OpenFiles.get? · id) same).trans found, tallies⟩
  | writeStopped reached position data run inductionHypothesis =>
    obtain ⟨inode, found, tallies⟩ := inductionHypothesis
    have same := (Volume.writeAt_ends found position data).stopped_of_run run
    exact ⟨inode, (congrArg (OpenFiles.get? · id) same).trans found, tallies⟩
  | elsewhere reached same inductionHypothesis =>
    rw [same]
    exact inductionHypothesis

/-- A run goes on with whatever an opener may ask for who does not open the inode. -/
theorem next (reached : SharedRun sector id openers volume) (call : OpenerCall ω)
    (permitted : call.Permitted openers) (notOpening : ¬ call.IsOpening) :
    ∃ after, (call.on sector id).step.run volume = .ok id after ∧
      SharedRun sector id (openers.after call permitted) after := by
  obtain ⟨inode, found, tallies⟩ := reached.tallied
  obtain ⟨result, after, run, same⟩ := (tallies.call_yields found permitted notOpening).run
  rw [same] at run
  exact ⟨after, run, reached.call call permitted run⟩

end SharedRun

/-- The openers of an inode who keep to the rule, at any time.  What they ask for does not stop unless
they open the inode.  The inode has as many openers as there are and as many denials as openers who
forbid writing.

What anybody writes is refused, and nothing at all changes, if there is such an opener.  Otherwise
it reaches the cache, and if the cache is coherent then the bytes of the file are replaced as far as
it goes. -/
theorem one_denial_for_each_denier {sector : SectorNo} {id : InodeId} {openers : Openers ω}
    {volume : Volume δ} (reached : SharedRun sector id openers volume) :
    ∃ inode, volume.inode? id = some inode ∧
      inode.opens = openers.all.card ∧ inode.denials = openers.denying.card ∧
      (∀ call : OpenerCall ω, call.Permitted openers → ¬ call.IsOpening →
        ∃ after, (call.on sector id).step.run volume = .ok id after) ∧
      (∀ position data, (Volume.writeAt id position data).run volume =
        if openers.denying.Nonempty then .ok 0 volume
        else (Volume.onCache
          (Cache.writeFile inode.descriptor position data.length data)).run volume) ∧
      ∀ {N : Nat} (storage : Storage δ N) sectors map, openers.denying = ∅ →
        volume.Shows storage sectors map volume.files →
        inode.descriptor.start.toNat + inode.descriptor.sectors ≤ N → N ≤ UInt32.size →
        ∀ position data, Step.Yields (Volume.writeAt id position data) volume fun written after =>
          written = inode.descriptor.granted position data.length ∧
            ∃ sectorsAfter, inode.descriptor.Spliced position
                (data.take (inode.descriptor.granted position data.length)) sectors sectorsAfter ∧
              after.Shows storage sectorsAfter map volume.files := by
  obtain ⟨inode, found, tallies⟩ := reached.tallied
  have denied : 0 < inode.denials ↔ openers.denying.Nonempty := by
    rw [tallies.denials]
    exact Finset.card_pos
  refine ⟨inode, found, tallies.opens, tallies.denials, ?_, ?_, ?_⟩
  · intro call permitted notOpening
    obtain ⟨after, run, -⟩ := reached.next call permitted notOpening
    exact ⟨after, run⟩
  · intro position data
    rw [Volume.writeAt_run found]
    simp only [denied]
  · intro N storage sectors map nobody isShown within addressable position data
    have allowed : inode.denials = 0 := by
      rw [tallies.denials, nobody]
      exact Finset.card_empty
    exact Volume.writeAt_yields isShown found allowed within addressable position data

/-- The second of two openers forbids writing, and then allows it again. -/
theorem one_denial_until_it_is_allowed :
    ∃ (openers silent : Openers Nat) (denied allowed : Volume RamDisk),
      SharedRun ⟨0⟩ ⟨0⟩ openers denied ∧ openers.all = {0, 1} ∧ openers.denying = {1} ∧
      (∀ position data, (Volume.writeAt ⟨0⟩ position data).run denied = .ok 0 denied) ∧
      ((OpenerCall.allow 1).on ⟨0⟩ ⟨0⟩).step.run denied = .ok ⟨0⟩ allowed ∧
      SharedRun ⟨0⟩ ⟨0⟩ silent allowed ∧ silent.all = {0, 1} ∧ silent.denying = ∅ ∧
      ∃ inode, allowed.inode? ⟨0⟩ = some inode ∧ inode.opens = 2 ∧ inode.denials = 0 := by
  obtain ⟨opened, shared, first, second, -⟩ := Volume.opened_twice
  have reaches : SharedRun ⟨0⟩ ⟨0⟩ ⟨{0}, ∅, Finset.empty_subset _⟩ opened :=
    .opened 0 Std.ExtTreeMap.getElem?_empty first
  have joined := reaches.call (.openFile 1) (by decide) second
  obtain ⟨denied, -, denies⟩ := joined.next (.deny 1) (by decide) fun opening => opening
  obtain ⟨_, -, -, -, goesOn, refused, -⟩ := one_denial_for_each_denier denies
  obtain ⟨allowed, run⟩ := goesOn (.allow 1) (by decide) fun opening => opening
  have allows := denies.call (.allow 1) (by decide) run
  obtain ⟨inode, found, opens, denials, -⟩ := one_denial_for_each_denier allows
  refine ⟨_, _, denied, allowed, denies, by decide, by decide, ?_, run, allows, by decide,
    by decide, inode, found, opens.trans (by decide), denials.trans (by decide)⟩
  intro position data
  exact (refused position data).trans (if_pos (by decide))

end Residency
