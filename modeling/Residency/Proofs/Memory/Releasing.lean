import Residency.Proofs.Memory.Safety

/-!
# Releasing references

A page stays in the frame table as long as one of its entries has not been released, and goes back
to the allocator once: `each_reference_is_dropped_once`.

`FrameTable.Drops` says what is left of a table when entries were taken off the frame of one page.
It speaks of which entries these were, and not of their order or of how often they were released;
nor does it say in which order the frame has those that are left, since that does depend on the
order of the releases.
Of a single release it follows from `Sound.release_cases`, of releases after one another from
`Drops.append`.
-/

namespace Residency

namespace FrameTable

variable {table between after : FrameTable} {page : PhysPage} {entry : EntryAddr}
  {gone gone' : List EntryAddr}

/-- Nothing is changed, but something may be warned about. -/
def Ignores (table after : FrameTable) : Prop :=
  ∃ warning, after = table.warn warning

/-- The entries of `gone` were taken off the frame of a page, which has the others in some order.  If
there are any, the page stays where it was; it goes back to the allocator with the last one. -/
structure Drops (table : FrameTable) (page : PhysPage) (gone : List EntryAddr)
    (after : FrameTable) : Prop where
  references : (after.references page).Perm ((table.references page).filter (· ∉ gone))
  resident : after.isResident page = true ↔ after.references page ≠ []
  others : ∀ other, other ≠ page → after.frame? other = table.frame? other
  allocator : after.allocator =
    if table.references page ≠ [] ∧ after.references page = [] then
      { table.allocator with recycled := page :: table.allocator.recycled }
    else table.allocator

/-- A page goes back to the allocator, and its frame is gone. -/
structure GivesBack (table : FrameTable) (page : PhysPage) (after : FrameTable) : Prop where
  frames : after.frames = table.frames.erase page
  allocator : after.allocator =
    { table.allocator with recycled := page :: table.allocator.recycled }

theorem Sound.isResident_iff (sound : table.Sound) :
    table.isResident page = true ↔ table.references page ≠ [] := by
  rw [sound.tracks.resident, sound.tracks.lent_iff]
  exact ⟨fun ⟨_, listed⟩ => List.ne_nil_of_mem listed, List.exists_mem_of_ne_nil _⟩

theorem references_setFrame (frame : Frame) :
    (table.setFrame frame).references frame.page = frame.entries :=
  references_of_frame (by rw [frame?_setFrame, if_pos rfl])

/-! ## One release -/

/-- Entries that a frame does not have are not missed. -/
theorem Sound.drops_ignored (sound : table.Sound) (absent : ∀ entry ∈ gone,
    entry ∉ table.references page) (warning : FrameWarning) :
    table.Drops page gone (table.warn warning) where
  references := by
    refine .of_eq (List.filter_eq_self.mpr fun entry listed => ?_).symm
    exact decide_eq_true fun isGone => absent entry isGone listed
  resident := sound.isResident_iff
  others _ _ := rfl
  allocator := (if_neg fun emptied => emptied.1 emptied.2).symm

/-- A frame has each entry once, so that an entry that is taken off it is gone. -/
theorem Sound.perm_filter_of_remove? (sound : table.Sound) {frame rest : Frame}
    (found : table.frame? page = some frame) (removed : frame.remove? entry = some rest) :
    rest.entries.Perm ((table.references page).filter (· ∉ [entry])) := by
  obtain ⟨-, -, others⟩ := Frame.remove?_eq_some removed
  have erased : frame.entries.erase entry = frame.entries.filter (· ∉ [entry]) := by
    rw [(sound.tracks.distinct found).erase_eq_filter]
    apply List.filter_congr
    intro other _
    simp [bne, beq_eq_decide]
  rw [references_of_frame found, ← erased]
  exact others

theorem Releases.drops (sound : table.Sound) {mapped : Option PhysPage} (maps : mapped = some page)
    (released : table.Releases mapped entry after) : table.Drops page [entry] after := by
  cases released with
  | ignored absent warning =>
    refine sound.drops_ignored (fun other isGone => ?_) warning
    rw [List.mem_singleton.mp isGone]
    exact absent page maps
  | @shortened found frame rest mapped isFrame removed left =>
    cases maps.symm.trans mapped
    have filed : rest.page = page :=
      (Frame.remove?_eq_some removed).2.1.trans (sound.tracks.filed isFrame)
    have shortened : (table.setFrame rest).references page = rest.entries := by
      rw [← filed]
      exact references_setFrame rest
    refine ⟨?_, ?_, fun other apart => ?_, ?_⟩
    · rw [shortened]
      exact sound.perm_filter_of_remove? isFrame removed
    · refine iff_of_true (FrameTable.isResident_iff.mpr ?_) (by rw [shortened]; exact left)
      exact ⟨_, by rw [frame?_setFrame, filed, if_pos rfl]⟩
    · rw [frame?_setFrame, filed, if_neg apart]
    · rw [if_neg fun emptied => left (shortened ▸ emptied.2)]
      rfl
  | @freed found frame rest mapped isFrame removed last =>
    cases maps.symm.trans mapped
    -- without a frame, the page has neither entries nor a place in the table
    have missing : (table.eraseFrame page).frame? page = none := by
      rw [frame?_eraseFrame, if_pos rfl]
    have emptied : (table.eraseFrame page).references page = [] := references_of_none missing
    have had : table.references page ≠ [] := by
      rw [references_of_frame isFrame]
      exact List.ne_nil_of_mem (Frame.remove?_eq_some removed).1
    refine ⟨?_, ?_, fun other apart => ?_, (if_pos ⟨had, emptied⟩).symm⟩
    · have others := sound.perm_filter_of_remove? isFrame removed
      rw [last] at others
      exact (List.Perm.of_eq emptied).trans others
    · refine iff_of_false (fun resident => ?_) (not_not.mpr emptied)
      obtain ⟨_, stays⟩ := FrameTable.isResident_iff.mp resident
      exact nomatch missing.symm.trans stays
    · exact (frame?_eraseFrame other).trans (if_neg apart)

/-- An entry that the page it maps does not have in its frame is ignored. -/
theorem Releases.ignores {mapped : Option PhysPage} (released : table.Releases mapped entry after)
    (absent : ∀ page, mapped = some page → entry ∉ table.references page) :
    table.Ignores after := by
  cases released with
  | ignored _ warning => exact ⟨warning, rfl⟩
  | shortened maps found removed _ | freed maps found removed _ =>
    have listed := (Frame.remove?_eq_some removed).1
    exact absurd (references_of_frame found ▸ listed) (absent _ maps)

theorem Drops.mem_references (drops : table.Drops page gone after) :
    entry ∈ after.references page ↔ entry ∈ table.references page ∧ entry ∉ gone := by
  rw [drops.references.mem_iff, List.mem_filter, decide_eq_true_iff]

theorem Drops.not_mem (drops : table.Drops page gone after) (isGone : entry ∈ gone) :
    entry ∉ after.references page :=
  fun listed => (drops.mem_references.mp listed).2 isGone

/-- A frame that has no entry gets none by losing some. -/
theorem Drops.references_eq_nil (drops : table.Drops page gone after)
    (empty : table.references page = []) : after.references page = [] := by
  rw [List.eq_nil_iff_forall_not_mem]
  intro entry listed
  have before := (drops.mem_references.mp listed).1
  rw [empty] at before
  cases before

/-- What has been released is not there any more. -/
theorem Sound.release_twice (sound : table.Sound) (pages : PageTable) (entry : EntryAddr) :
    Step.Yields (release pages entry) table fun _ after =>
      (match pages.pageOf entry with
        | some page => table.Drops page [entry] after ∧
            (entry ∉ table.references page → table.Ignores after)
        | none => table.Ignores after) ∧
      Step.Yields (release pages entry) after fun _ again => after.Ignores again := by
  apply Step.Yields.imp ((sound.release_yields pages entry).and (sound.release_cases pages entry))
  rintro _ after ⟨becomes, released⟩
  have again (absent : ∀ page, pages.pageOf entry = some page → entry ∉ after.references page) :
      Step.Yields (release pages entry) after fun _ again => after.Ignores again :=
    Step.Yields.imp (becomes.sound.release_cases pages entry) fun _ _ releasedAgain =>
      releasedAgain.ignores absent
  cases maps : pages.pageOf entry with
  | none => exact ⟨released.ignores (by simp [maps]), again (by simp [maps])⟩
  | some page =>
    have drops := released.drops sound maps
    refine ⟨⟨drops, fun absent => released.ignores ?_⟩, again ?_⟩
    · rintro _ isMapped
      cases maps.symm.trans isMapped
      exact absent
    · rintro _ isMapped
      cases maps.symm.trans isMapped
      exact drops.not_mem (List.mem_singleton_self entry)

/-! ## Releases after one another -/

/-- Emptying a frame happens in the first run or in the second one, but not in both. -/
theorem Drops.append (first : table.Drops page gone between)
    (second : between.Drops page gone' after) : table.Drops page (gone ++ gone') after where
  references := by
    apply (second.references.trans (first.references.filter _)).trans
    rw [List.filter_filter]
    apply List.Perm.of_eq
    apply List.filter_congr
    intro entry _
    simp [Bool.and_comm]
  resident := second.resident
  others other apart := (second.others other apart).trans (first.others other apart)
  allocator := by
    rw [second.allocator, first.allocator]
    -- the frame had no entry, lost all of them in the first run, or is left to the second one
    by_cases had : table.references page = []
    · have none_left := first.references_eq_nil had
      rw [if_neg fun emptied => emptied.1 none_left, if_neg fun emptied => emptied.1 had,
        if_neg fun emptied => emptied.1 had]
    · by_cases none_left : between.references page = []
      · have still := second.references_eq_nil none_left
        rw [if_neg fun emptied => emptied.1 none_left, if_pos ⟨had, none_left⟩,
          if_pos ⟨had, still⟩]
      · simp only [had, none_left, ne_eq, not_false_eq_true, true_and, if_false]

/-- The page is still in the table as long as one of its entries has not gone. -/
theorem Drops.stays (drops : table.Drops page gone after)
    (left : ∃ entry ∈ table.references page, entry ∉ gone) :
    after.isResident page = true ∧ after.allocator = table.allocator := by
  obtain ⟨entry, listed, notGone⟩ := left
  have still : after.references page ≠ [] :=
    List.ne_nil_of_mem (drops.mem_references.mpr ⟨listed, notGone⟩)
  refine ⟨drops.resident.mpr still, ?_⟩
  rw [drops.allocator, if_neg fun emptied => still emptied.2]

/-- When all entries of a page have gone, nothing tells in which order they went. -/
theorem Drops.givesBack (drops : table.Drops page gone after) (had : table.references page ≠ [])
    (all : ∀ entry ∈ table.references page, entry ∈ gone) : table.GivesBack page after := by
  have emptied : after.references page = [] := by
    rw [List.eq_nil_iff_forall_not_mem]
    intro entry listed
    obtain ⟨before, notGone⟩ := drops.mem_references.mp listed
    exact notGone (all entry before)
  refine ⟨Std.ExtTreeMap.ext_getElem? fun other => ?_, ?_⟩
  · show after.frame? other = (table.eraseFrame page).frame? other
    rw [frame?_eraseFrame]
    by_cases same : other = page
    · subst same
      rw [if_pos rfl, ← Option.not_isSome_iff_eq_none, Option.isSome_iff_exists,
        ← FrameTable.isResident_iff, drops.resident]
      exact not_not.mpr emptied
    · rw [if_neg same, drops.others other same]
  · rw [drops.allocator, if_pos ⟨had, emptied⟩]

end FrameTable

/-! ## Releases among other calls -/

namespace MappedMemory

variable {ι : Type} {memory : MappedMemory ι} {page : PhysPage}

/-- A release leaves every page table as it is, and the frame table sound. -/
theorem release_yields {done : FrameTable → Prop} (sound : memory.frames.Sound) (table : ι)
    (entry : EntryAddr)
    (releases : Step.Yields (FrameTable.release (memory.tables table) entry) memory.frames
      fun _ frames => done frames) :
    Step.Yields (release table entry) memory fun _ after =>
      after.tables = memory.tables ∧ after.frames.Sound ∧ done after.frames := by
  simp only [release, Step.ends_bind, Step.ends_get, Step.ends_on]
  apply Step.Yields.imp ((sound.release_yields (memory.tables table) entry).and releases)
  exact fun _ _ ended => ⟨trivial, ended.1.sound, ended.2⟩

variable [DecidableEq ι]

/-- The calls that release entries, each of which is looked up in a page table. -/
def releaseCalls (releases : List (ι × EntryAddr)) : List (MemoryCall ι) :=
  releases.map fun (table, entry) => .release table entry

/-- All of the entries map the page, each in the page table with which it is released. -/
def AllMap (memory : MappedMemory ι) (releases : List (ι × EntryAddr)) (page : PhysPage) : Prop :=
  ∀ release ∈ releases, (memory.tables release.1).pageOf release.2 = some page

/-- Entries that map the page are released one after the other, whether or not they are in its
frame, and as often as one likes. -/
theorem serve_releaseCalls (sound : memory.frames.Sound) {releases : List (ι × EntryAddr)}
    (map : memory.AllMap releases page) :
    (memory.serve (releaseCalls releases)).1 = releases.map (fun _ => .ok .released) ∧
      (memory.serve (releaseCalls releases)).2.tables = memory.tables ∧
      memory.frames.Drops page (releases.map Prod.snd)
        (memory.serve (releaseCalls releases)).2.frames := by
  induction releases generalizing memory with
  | nil =>
    have none_gone : ∀ entry ∈ ([] : List EntryAddr), entry ∉ memory.frames.references page := nofun
    have same := sound.drops_ignored none_gone (.dropped 0)
    exact ⟨rfl, rfl, same.references, same.resident, same.others, same.allocator⟩
  | cons first rest inductionHypothesis =>
    obtain ⟨table, entry⟩ := first
    have maps : (memory.tables table).pageOf entry = some page :=
      map (table, entry) (List.mem_cons_self ..)
    obtain ⟨_, after, run, tables, soundAfter, drops⟩ :=
      (release_yields sound table entry (Step.Yields.imp (sound.release_cases _ entry)
        fun _ _ released => released.drops sound maps)).run
    have ran : (MemoryCall.release table entry).step.run memory = .ok .released after :=
      Step.run_bind_of_ok run
    have served : memory.serve (releaseCalls ((table, entry) :: rest)) =
        (.ok .released :: (after.serve (releaseCalls rest)).1,
          (after.serve (releaseCalls rest)).2) :=
      Step.runAll_cons_of_ok ran _
    -- the tables are as before, so that the entries that are left still map the page
    obtain ⟨answers, tablesRest, dropsRest⟩ := inductionHypothesis soundAfter
      fun release listed => tables ▸ map release (List.mem_cons_of_mem _ listed)
    rw [served]
    exact ⟨congrArg _ answers, tablesRest.trans tables, drops.append dropsRest⟩

/-- A new frame table, over an allocator that nobody else uses, after any run of calls.  Whatever
entry is released, and with whatever page table, it goes off the frame of the page that it maps if
it is there; the page goes back just when the frame has no other entry; and no other frame changes.
If it is not there, or if it maps nothing, nothing changes, so that releasing it again does nothing
more.

Of a page that is in the table, entries that still map it may be released through any page tables,
in any order and as often as one likes.  The page stays in the table as long as one of its entries
has not been released, and the allocator does not change; when all have been, no frame of the page
is left, it is back at the allocator once, and nothing else has changed. -/
theorem each_reference_is_dropped_once {start stop : PhysPage} {allocator : PageAllocator}
    (made : PageAllocator.ofRange start stop = .ok allocator) (tables : ι → PageTable)
    (before : List (MemoryCall ι)) :
    let reached := (serve { frames := { allocator }, tables } before).2
    (∀ pages entry, Step.Yields (FrameTable.release pages entry) reached.frames fun _ after =>
        (match pages.pageOf entry with
          | some page => reached.frames.Drops page [entry] after ∧
              (entry ∉ reached.frames.references page → reached.frames.Ignores after)
          | none => reached.frames.Ignores after) ∧
        Step.Yields (FrameTable.release pages entry) after fun _ again => after.Ignores again) ∧
      (∀ table entry, Step.Yields (release table entry) reached fun _ after =>
        after.tables = reached.tables) ∧
      ∀ page (releases : List (ι × EntryAddr)), reached.frames.isResident page = true →
        reached.AllMap releases page →
        let served := reached.serve (releaseCalls releases)
        let after := served.2
        served.1 = releases.map (fun _ => .ok .released) ∧ after.tables = reached.tables ∧
          reached.frames.Drops page (releases.map Prod.snd) after.frames ∧
          ((∃ entry ∈ reached.frames.references page, entry ∉ releases.map Prod.snd) →
            after.frames.isResident page = true ∧
              after.frames.allocator = reached.frames.allocator) ∧
          ((∀ entry ∈ reached.frames.references page, entry ∈ releases.map Prod.snd) →
            reached.frames.GivesBack page after.frames) := by
  intro reached
  have sound : reached.frames.Sound := serve_sound (FrameTable.sound_ofRange made).1 before
  refine ⟨fun pages entry => ?_, fun table entry => ?_, fun page releases resident map => ?_⟩
  · exact sound.release_twice pages entry
  · exact Step.Yields.imp (release_yields sound table entry
      (sound.release_yields (reached.tables table) entry)) fun _ _ => And.left
  · obtain ⟨answers, sameTables, drops⟩ := serve_releaseCalls sound map
    exact ⟨answers, sameTables, drops, drops.stays,
      drops.givesBack (sound.isResident_iff.mp resident)⟩

/-- A page that two tables share, with three entries.  The first one is released twice, and the last
one takes its place in the frame; the page goes back with the others. -/
theorem shared_page_is_dropped_once :
    let allocator : PageAllocator := { start := ⟨5⟩, fresh := ⟨5⟩, stop := ⟨7⟩ }
    let tables (table : Bool) : PageTable := { root := if table then ⟨9⟩ else ⟨10⟩ }
    let before := [.acquire true {} ⟨0⟩ true, .share false ⟨511⟩ ⟨5⟩ false, .share true ⟨3⟩ ⟨5⟩ true]
    let reached := (serve { frames := { allocator }, tables } before).2
    let first := [(true, ⟨0x9000⟩), (true, ⟨0x9000⟩)]
    let releases := first ++ [(false, ⟨0xaff8⟩), (true, ⟨0x9018⟩)]
    (PageAllocator.ofRange ⟨5⟩ ⟨7⟩ = .ok allocator ∧ reached.frames.isResident ⟨5⟩ = true ∧
        reached.AllMap releases ⟨5⟩ ∧
        ∀ entry ∈ reached.frames.references ⟨5⟩, entry ∈ releases.map Prod.snd) ∧
      reached.frames.references ⟨5⟩ = [⟨0x9000⟩, ⟨0xaff8⟩, ⟨0x9018⟩] ∧
      (reached.serve (releaseCalls first)).2.frames.references ⟨5⟩ = [⟨0x9018⟩, ⟨0xaff8⟩] ∧
      reached.frames.GivesBack ⟨5⟩ (reached.serve (releaseCalls releases)).2.frames := by
  intro allocator tables before reached first releases
  have made : PageAllocator.ofRange ⟨5⟩ ⟨7⟩ = .ok allocator :=
    PageAllocator.ofRange_eq_ok_iff.mpr ⟨by decide, by decide, rfl⟩
  have resident : reached.frames.isResident ⟨5⟩ = true := by decide +kernel
  have map : reached.AllMap releases ⟨5⟩ := by
    rw [AllMap]
    decide +kernel
  have all : ∀ entry ∈ reached.frames.references ⟨5⟩, entry ∈ releases.map Prod.snd := by
    decide +kernel
  obtain ⟨-, -, dropped⟩ := each_reference_is_dropped_once made tables before
  have isReached : (serve { frames := { allocator }, tables } before).2 = reached := rfl
  rw [isReached] at dropped
  obtain ⟨-, -, -, -, givesBack⟩ := dropped ⟨5⟩ releases resident map
  exact ⟨⟨made, resident, map, all⟩, by decide +kernel, by decide +kernel, givesBack all⟩

end MappedMemory

end Residency
