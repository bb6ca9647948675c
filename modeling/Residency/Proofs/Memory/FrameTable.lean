import Mathlib.Data.List.Perm.Basic
import Residency.Memory.FrameTable
import Residency.Proofs.Memory.PageAllocator
import Residency.Proofs.Memory.PageTable

/-!
# Frames and the pages that are out

What the operations of a `FrameTable` do to the entries that its frames have.

* `FrameTable.Tracks` says of a table that the pages with a frame are given ones, and that each
  frame is as it should be; a table is `FrameTable.Sound` when the pages with a frame are those that
  the allocator has out;
* `FrameTable.Becomes` says what is left after an operation: a sound table over the same range of
  pages, and which entries its frames have;
* `Sound.acquire_ends`, `Sound.share_yields` and `Sound.release_yields` say what each operation
  becomes, whatever page table it is used with;
* `Sound.release_cases` says in which ways a release ends, and exactly what it leaves.

A frame that loses an entry has the others in another order (`swapRemove_perm_eraseIdx`), of which
nothing here speaks.
-/

namespace Residency

/-! ## Taking off an entry -/

/-- What is removed is the element at the index, and the others may change places. -/
theorem swapRemove_perm_eraseIdx {α : Type} {elements : List α} {index : Nat}
    (inside : index < elements.length) :
    (swapRemove elements index).Perm (elements.eraseIdx index) := by
  obtain ⟨front, last, rfl⟩ := (List.eq_nil_or_concat' elements).resolve_left
    (List.ne_nil_of_length_pos (Nat.zero_lt_of_lt inside))
  simp only [swapRemove, List.getLast?_concat]
  by_cases before : index < front.length
  · -- the last element goes to the place that is free now
    rw [List.set_append_left _ _ before, List.dropLast_concat,
      List.eraseIdx_append_of_lt_length before]
    exact (List.set_perm_cons_eraseIdx before last).trans (List.perm_append_singleton last _).symm
  · -- the last element is the one that is removed
    rw [List.length_append, List.length_singleton] at inside
    obtain rfl : index = front.length := by omega
    rw [List.eraseIdx_append_of_length_le (Nat.le_refl _), Nat.sub_self]
    simp

example : swapRemove [1, 2, 3, 4] 1 = [1, 4, 3] := by decide

namespace Frame

variable {frame rest : Frame} {entry : EntryAddr}

theorem remove?_eq_none_iff : frame.remove? entry = none ↔ entry ∉ frame.entries := by
  rw [remove?, Option.map_eq_none_iff, List.idxOf?_eq_none_iff]

/-- The frame had the entry, and has its other entries from now on. -/
theorem remove?_eq_some (removed : frame.remove? entry = some rest) :
    entry ∈ frame.entries ∧ rest.page = frame.page ∧
      rest.entries.Perm (frame.entries.erase entry) := by
  obtain ⟨index, isIndex, rfl⟩ := Option.map_eq_some_iff.mp removed
  obtain ⟨inside, stands, -⟩ := List.idxOf?_eq_some_iff.mp isIndex
  have erased : frame.entries.erase entry = frame.entries.eraseIdx index := by
    rw [List.erase_eq_eraseIdx, isIndex]
  exact ⟨stands ▸ List.getElem_mem inside, rfl, erased ▸ swapRemove_perm_eraseIdx inside⟩

end Frame

namespace FrameTable

variable {table : FrameTable} {lent : PhysPage → Prop} {page : PhysPage} {entry : EntryAddr}

/-! ## Frames -/

theorem frame?_setFrame (frame : Frame) (other : PhysPage) :
    (table.setFrame frame).frame? other =
      if other = frame.page then some frame else table.frame? other := by
  simp only [frame?, setFrame, Std.ExtTreeMap.getElem?_insert, Std.compare_eq_iff_eq,
    eq_comm (a := frame.page)]

theorem frame?_eraseFrame (other : PhysPage) :
    (table.eraseFrame page).frame? other = if other = page then none else table.frame? other := by
  simp only [frame?, eraseFrame, Std.ExtTreeMap.getElem?_erase, Std.compare_eq_iff_eq,
    eq_comm (a := page)]

theorem isResident_iff :
    table.isResident page = true ↔ ∃ frame, table.frame? page = some frame := by
  rw [isResident, Std.ExtTreeMap.contains_eq_isSome_getElem?, Option.isSome_iff_exists, frame?]

theorem references_of_frame {frame : Frame} (found : table.frame? page = some frame) :
    table.references page = frame.entries := by
  rw [references, found]

theorem references_of_none (missing : table.frame? page = none) : table.references page = [] := by
  rw [references, missing]

/-- The pages with a frame are those of `lent`.  Each frame is filed under its own page and has
entries, each of them once. -/
structure Tracks (table : FrameTable) (lent : PhysPage → Prop) : Prop where
  resident : ∀ page, table.isResident page = true ↔ lent page
  filed : ∀ {page frame}, table.frame? page = some frame → frame.page = page
  used : ∀ {page frame}, table.frame? page = some frame → frame.entries ≠ []
  distinct : ∀ {page frame}, table.frame? page = some frame → frame.entries.Nodup

namespace Tracks

theorem references_nodup (tracks : table.Tracks lent) (page : PhysPage) :
    (table.references page).Nodup := by
  cases found : table.frame? page with
  | none => rw [references_of_none found]; exact List.nodup_nil
  | some frame => rw [references_of_frame found]; exact tracks.distinct found

theorem lent_iff (tracks : table.Tracks lent) (page : PhysPage) :
    lent page ↔ ∃ entry, entry ∈ table.references page := by
  rw [← tracks.resident, isResident_iff]
  constructor
  · rintro ⟨frame, found⟩
    rw [references_of_frame found]
    exact List.exists_mem_of_ne_nil _ (tracks.used found)
  · rintro ⟨entry, listed⟩
    cases found : table.frame? page with
    | none => rw [references_of_none found] at listed; cases listed
    | some frame => exact ⟨frame, rfl⟩

/-- Setting a frame in which each entry stands once. -/
theorem setFrame (tracks : table.Tracks lent) {frame : Frame} (used : frame.entries ≠ [])
    (distinct : frame.entries.Nodup) :
    (table.setFrame frame).Tracks fun other => other = frame.page ∨ lent other := by
  -- a frame of the new table is the one that was set, or it was there before
  have cases {other : PhysPage} {found : Frame}
      (isFrame : (table.setFrame frame).frame? other = some found) :
      other = frame.page ∧ found = frame ∨ table.frame? other = some found := by
    rw [frame?_setFrame] at isFrame
    split at isFrame
    next same => exact Or.inl ⟨same, (Option.some.inj isFrame).symm⟩
    next => exact Or.inr isFrame
  constructor
  · intro other
    rw [← tracks.resident, isResident_iff, isResident_iff]
    simp only [frame?_setFrame]
    by_cases same : other = frame.page <;> simp [same]
  · intro other found isFrame
    rcases cases isFrame with ⟨rfl, rfl⟩ | before
    · rfl
    · exact tracks.filed before
  · intro other found isFrame
    rcases cases isFrame with ⟨rfl, rfl⟩ | before
    · exact used
    · exact tracks.used before
  · intro other found isFrame
    rcases cases isFrame with ⟨rfl, rfl⟩ | before
    · exact distinct
    · exact tracks.distinct before

theorem eraseFrame (tracks : table.Tracks lent) (page : PhysPage) :
    (table.eraseFrame page).Tracks fun other => other ≠ page ∧ lent other := by
  have before {other : PhysPage} {found : Frame}
      (isFrame : (table.eraseFrame page).frame? other = some found) :
      table.frame? other = some found := by
    rw [frame?_eraseFrame] at isFrame
    split at isFrame
    next => cases isFrame
    next => exact isFrame
  constructor
  · intro other
    rw [← tracks.resident, isResident_iff, isResident_iff]
    simp only [frame?_eraseFrame]
    by_cases same : other = page <;> simp [same]
  · exact fun isFrame => tracks.filed (before isFrame)
  · exact fun isFrame => tracks.used (before isFrame)
  · exact fun isFrame => tracks.distinct (before isFrame)

theorem track (tracks : table.Tracks lent) (page : PhysPage) (entry : EntryAddr) :
    (table.track page entry).Tracks fun other => other = page ∨ lent other := by
  rw [FrameTable.track]
  by_cases listed : (table.references page).contains entry = true
  · rw [if_pos listed]
    have isLent : lent page :=
      (tracks.lent_iff page).mpr ⟨entry, List.contains_iff_mem.mp listed⟩
    refine ⟨fun other => ?_, tracks.filed, tracks.used, tracks.distinct⟩
    rw [tracks.resident, iff_or_self]
    rintro rfl
    exact isLent
  · rw [if_neg listed]
    have absent : entry ∉ table.references page := fun inside =>
      listed (List.contains_iff_mem.mpr inside)
    apply tracks.setFrame (by simp)
    exact List.nodup_append_comm.mp
      (List.nodup_cons.mpr ⟨absent, tracks.references_nodup page⟩)

end Tracks

theorem mem_references_setFrame {frame : Frame} {other : PhysPage} :
    entry ∈ (table.setFrame frame).references other ↔
      if other = frame.page then entry ∈ frame.entries else entry ∈ table.references other := by
  simp only [references, frame?_setFrame]
  by_cases same : other = frame.page
  · rw [if_pos same, if_pos same]
  · rw [if_neg same, if_neg same]

theorem mem_references_eraseFrame {other : PhysPage} :
    entry ∈ (table.eraseFrame page).references other ↔
      other ≠ page ∧ entry ∈ table.references other := by
  simp only [references, frame?_eraseFrame]
  by_cases same : other = page
  · simp [same]
  · simp [same]

theorem mem_references_track {entry added : EntryAddr} {other : PhysPage} :
    entry ∈ (table.track page added).references other ↔
      entry ∈ table.references other ∨ other = page ∧ entry = added := by
  rw [track]
  by_cases listed : (table.references page).contains added = true
  · rw [if_pos listed, iff_self_or]
    rintro ⟨rfl, rfl⟩
    exact List.contains_iff_mem.mp listed
  · rw [if_neg listed, mem_references_setFrame]
    by_cases same : other = page
    · simp [same]
    · simp [same]

/-! ## Sound tables -/

/-- The pages with a frame are those that the allocator has out. -/
structure Sound (table : FrameTable) : Prop where
  allocator : table.allocator.Sound
  tracks : table.Tracks fun page => table.allocator.isOut page = true

/-- What an operation leaves of a table: it is sound, over the same range of pages, and has the
entries of `listed`. -/
structure Becomes (table after : FrameTable) (listed : PhysPage → EntryAddr → Prop) : Prop where
  sound : after.Sound
  sameRange : table.allocator.SameRange after.allocator
  listed : ∀ page entry, entry ∈ after.references page ↔ listed page entry

/-- The entries stay as they are. -/
abbrev Stays (table after : FrameTable) : Prop :=
  table.Becomes after fun page entry => entry ∈ table.references page

theorem Sound.stays (sound : table.Sound) : table.Stays table :=
  ⟨sound, ⟨rfl, rfl⟩, fun _ _ => Iff.rfl⟩

theorem Sound.stays_warn (sound : table.Sound) (warning : FrameWarning) :
    table.Stays (table.warn warning) :=
  ⟨⟨sound.allocator, ⟨sound.tracks.resident, sound.tracks.filed, sound.tracks.used,
    sound.tracks.distinct⟩⟩, ⟨rfl, rfl⟩, fun _ _ => Iff.rfl⟩

/-- A table of no frames is sound over a new allocator. -/
theorem sound_ofRange {start stop : PhysPage} {allocator : PageAllocator}
    (made : PageAllocator.ofRange start stop = .ok allocator) :
    Sound { allocator } ∧ ∀ page, references { allocator } page = [] := by
  obtain ⟨sound, none_out⟩ := PageAllocator.sound_ofRange made
  have empty (page : PhysPage) : frame? { allocator } page = none := by simp [frame?]
  refine ⟨⟨sound, ?_, ?_, ?_, ?_⟩, fun page => references_of_none (empty page)⟩
  · intro page
    rw [isResident_iff, empty, none_out]
    simp
  all_goals
    intro page frame found
    rw [empty] at found
    cases found

/-- The frames are as many as the pages that are out. -/
theorem Sound.size_eq_allocated (sound : table.Sound) :
    table.size = table.allocator.allocated := by
  rw [size, ← Std.ExtTreeMap.length_keys]
  apply sound.allocator.length_eq_allocated Std.ExtTreeMap.nodup_keys
  intro page
  rw [Std.ExtTreeMap.mem_keys, ← Std.ExtTreeMap.contains_iff_mem]
  exact sound.tracks.resident page

/-! ## Releasing -/

/-- What releasing an entry does that maps `mapped`. -/
inductive Releases (table : FrameTable) (mapped : Option PhysPage) (entry : EntryAddr) :
    FrameTable → Prop where
  /-- No page that the entry maps has it in its frame. -/
  | ignored (absent : ∀ page, mapped = some page → entry ∉ table.references page)
      (warning : FrameWarning) : Releases table mapped entry (table.warn warning)
  | shortened {page : PhysPage} {frame rest : Frame} (maps : mapped = some page)
      (found : table.frame? page = some frame) (removed : frame.remove? entry = some rest)
      (left : rest.entries ≠ []) : Releases table mapped entry (table.setFrame rest)
  /-- It was the last entry, and the page goes back. -/
  | freed {page : PhysPage} {frame rest : Frame} (maps : mapped = some page)
      (found : table.frame? page = some frame) (removed : frame.remove? entry = some rest)
      (last : rest.entries = []) :
      Releases table mapped entry { table.eraseFrame page with allocator := { table.allocator with
        recycled := page :: table.allocator.recycled } }

/-- The entries that a table has, but for one that is taken off a page. -/
def Without (table : FrameTable) (page? : Option PhysPage) (entry : EntryAddr) :
    PhysPage → EntryAddr → Prop :=
  fun page other => other ∈ table.references page ∧ ¬ (page? = some page ∧ other = entry)

namespace Sound

theorem becomes_warn (sound : table.Sound) {page? : Option PhysPage}
    (absent : ∀ page, page? = some page → entry ∉ table.references page)
    (warning : FrameWarning) : table.Becomes (table.warn warning) (table.Without page? entry) := by
  obtain ⟨soundAfter, sameRange, -⟩ := sound.stays_warn warning
  refine ⟨soundAfter, sameRange, fun page other => ?_⟩
  show other ∈ table.references page ↔ _
  rw [Without, iff_self_and]
  rintro listed ⟨maps, rfl⟩
  exact absent page maps listed

variable {frame rest : Frame}

theorem isOut_of_frame (sound : table.Sound) (found : table.frame? page = some frame) :
    table.allocator.isOut page = true :=
  (sound.tracks.resident page).mp (isResident_iff.mpr ⟨frame, found⟩)

theorem becomes_fewer (sound : table.Sound) (found : table.frame? page = some frame)
    (removed : frame.remove? entry = some rest) (left : rest.entries ≠ []) :
    table.Becomes (table.setFrame rest) (table.Without (some page) entry) := by
  obtain ⟨-, samePage, others⟩ := Frame.remove?_eq_some removed
  have filed : rest.page = page := samePage.trans (sound.tracks.filed found)
  have distinct := sound.tracks.distinct found
  have set : (table.setFrame rest).Tracks _ :=
    sound.tracks.setFrame left (others.nodup_iff.mpr (distinct.erase entry))
  refine ⟨⟨sound.allocator, fun other => ?_, set.filed, set.used, set.distinct⟩, ⟨rfl, rfl⟩,
    fun other listed => ?_⟩
  · rw [set.resident, filed]
    exact or_iff_right_of_imp fun same => same ▸ sound.isOut_of_frame found
  · rw [mem_references_setFrame, filed, Without]
    by_cases same : other = page
    · subst same
      rw [if_pos rfl, others.mem_iff, distinct.mem_erase_iff, references_of_frame found]
      simp [and_comm]
    · rw [if_neg same]
      simp [Ne.symm same]

theorem becomes_freed (sound : table.Sound) (found : table.frame? page = some frame)
    (removed : frame.remove? entry = some rest) (last : rest.entries = []) :
    table.Becomes { table.eraseFrame page with allocator := { table.allocator with
      recycled := page :: table.allocator.recycled } } (table.Without (some page) entry) := by
  obtain ⟨-, -, others⟩ := Frame.remove?_eq_some removed
  have erased := sound.tracks.eraseFrame page
  refine ⟨⟨sound.allocator.recycle (sound.isOut_of_frame found), fun other => ?_, erased.filed,
    erased.used, erased.distinct⟩, ⟨rfl, rfl⟩, fun other listed => ?_⟩
  · exact (erased.resident other).trans (PageAllocator.isOut_recycle other).symm
  · refine mem_references_eraseFrame.trans ?_
    rw [Without, and_comm]
    refine and_congr_right fun inside => ?_
    -- what is listed for the page itself is the entry that was taken off
    have only : other = page → listed = entry := by
      rintro rfl
      rw [references_of_frame found] at inside
      by_contra different
      have stays := others.mem_iff.mpr ((List.mem_erase_of_ne different).mpr inside)
      rw [last] at stays
      cases stays
    rw [Option.some_inj, eq_comm (a := page)]
    tauto

/-- A release does one of three things.  It can give back a page with its last entry, because a page
with a frame is out. -/
theorem release_cases (sound : table.Sound) (pages : PageTable) (entry : EntryAddr) :
    Step.Yields (release pages entry) table fun _ after =>
      table.Releases (pages.pageOf entry) entry after := by
  simp only [release, Step.ends_bind, Step.ends_get]
  cases pages.pageOf entry with
  | none =>
    rw [Step.ends_set]
    exact .ignored (fun _ impossible => by cases impossible) _
  | some page =>
    cases found : table.frame? page with
    | none =>
      simp only [found, Step.ends_set]
      refine .ignored (fun _ same => ?_) _
      cases same
      rw [references_of_none found]
      exact List.not_mem_nil
    | some frame =>
      cases removed : frame.remove? entry with
      | none =>
        simp only [found, removed, Step.ends_set]
        refine .ignored (fun _ same => ?_) _
        cases same
        rw [references_of_frame found]
        exact Frame.remove?_eq_none_iff.mp removed
      | some rest =>
        simp only [found, removed]
        by_cases last : rest.entries.isEmpty = true
        · rw [if_pos last]
          simp only [Step.ends_bind, Step.ends_set, onAllocator, Step.ends_on]
          apply Step.Yields.imp (PageAllocator.free_pushes (sound.isOut_of_frame found))
          rintro _ _ rfl
          exact .freed rfl found removed (List.isEmpty_iff.mp last)
        · rw [if_neg last, Step.ends_set]
          exact .shortened rfl found removed (mt List.isEmpty_iff.mpr last)

/-- Whatever entry is released, at most that one is taken off, and only off the page that it
maps. -/
theorem release_yields (sound : table.Sound) (pages : PageTable) (entry : EntryAddr) :
    Step.Yields (release pages entry) table fun _ after =>
      table.Becomes after (table.Without (pages.pageOf entry) entry) := by
  apply Step.Yields.imp (sound.release_cases pages entry)
  intro _ after released
  cases released with
  | ignored absent warning => exact sound.becomes_warn absent warning
  | shortened maps found removed left => exact maps ▸ sound.becomes_fewer found removed left
  | freed maps found removed last => exact maps ▸ sound.becomes_freed found removed last

end Sound

/-! ## Mapping -/

/-- `target` is mapped at a place that mapped nothing so far, and has the entry of that place from
now on. -/
structure Links (table : FrameTable) (pages : PageTable) (page : VirtPage) (target : PhysPage)
    (writable : Bool) (place : Fin tableCapacity) (after : FrameTable × PageTable) : Prop where
  found : PageTable.place? page = some place
  wasFree : pages.target? place = none
  installed : after.2 = pages.setEntry place (PageTable.mappingEntry target writable)
  becomes : table.Becomes after.1 fun other entry =>
    entry ∈ table.references other ∨ other = target ∧ entry = pages.addrOf place

variable {pages : PageTable}

theorem installPage_yields (table : FrameTable) (pages : PageTable) (page : VirtPage)
    (target : PhysPage) (writable : Bool) :
    Step.Yields (installPage page target writable) (table, pages) fun result after =>
      match result with
      | .ok () => ∃ place, PageTable.place? page = some place ∧ pages.target? place = none ∧
          after = (table, pages.setEntry place (PageTable.mappingEntry target writable))
      | .error _ => after = (table, pages) := by
  simp only [installPage, Step.ends_bind, Step.ends_get]
  split
  next => exact (Step.ends_pure _).mpr rfl
  next =>
    cases installed : pages.install page target writable with
    | error reason => exact (Step.ends_pure _).mpr rfl
    | ok after =>
      obtain ⟨place, found, wasFree, rfl⟩ := PageTable.install_eq_ok_iff.mp installed
      simp only [Step.ends_bind, Step.ends_set, Step.ends_pure]
      exact ⟨place, found, wasFree, rfl⟩

/-- A page that was just mapped has the entry that is looked for. -/
theorem trackPage_yields {place : Fin tableCapacity} {page : VirtPage}
    (found : PageTable.place? page = some place) (target : PhysPage) (writable : Bool) :
    Step.Yields (trackPage page target)
      (table, pages.setEntry place (PageTable.mappingEntry target writable)) fun _ after =>
      after = (table.track target (pages.addrOf place),
        pages.setEntry place (PageTable.mappingEntry target writable)) := by
  have mapped : (pages.setEntry place (PageTable.mappingEntry target writable)).target? place =
      some (PageTable.mappingEntry target writable).page := by
    rw [PageTable.target?_setEntry, if_pos rfl, PageTable.target?_mappingEntry]
  simp only [trackPage, onPages, onFrames, Step.ends_bind, Step.ends_on, Step.ends_modifyGet,
    PageTable.findEntry_of_target found mapped, Step.ends_getOrFault_some, Step.ends_modify,
    PageTable.addrOf_setEntry]

theorem allocator_track (page : PhysPage) (entry : EntryAddr) :
    (table.track page entry).allocator = table.allocator := by
  rw [track]
  split <;> rfl

namespace Sound

/-- Another allocator with the same pages out. -/
theorem stays_withAllocator (sound : table.Sound) {allocator : PageAllocator}
    (soundAllocator : allocator.Sound) (sameRange : table.allocator.SameRange allocator)
    (isOut : ∀ other, allocator.isOut other = true ↔ table.allocator.isOut other = true) :
    table.Stays { table with allocator } := by
  have tracks := sound.tracks
  refine ⟨⟨soundAllocator, fun other => ?_, tracks.filed, tracks.used, tracks.distinct⟩,
    sameRange, fun _ _ => Iff.rfl⟩
  exact (tracks.resident other).trans (isOut other).symm

/-- Another allocator in which the page is out whose frame gets an entry. -/
theorem becomes_track (sound : table.Sound) {allocator : PageAllocator}
    (soundAllocator : allocator.Sound) (sameRange : table.allocator.SameRange allocator)
    (isOut : ∀ other, allocator.isOut other = true ↔
      other = page ∨ table.allocator.isOut other = true) (entry : EntryAddr) :
    table.Becomes (FrameTable.track { table with allocator } page entry) fun other listed =>
      listed ∈ table.references other ∨ other = page ∧ listed = entry := by
  have tracks : FrameTable.Tracks { table with allocator } _ :=
    ⟨sound.tracks.resident, sound.tracks.filed, sound.tracks.used, sound.tracks.distinct⟩
  have tracked := tracks.track page entry
  have same : (FrameTable.track { table with allocator } page entry).allocator = allocator :=
    allocator_track page entry
  refine ⟨⟨by rw [same]; exact soundAllocator, fun other => ?_, tracked.filed, tracked.used,
    tracked.distinct⟩, by rw [same]; exact sameRange, fun _ _ => mem_references_track⟩
  rw [same]
  exact (tracked.resident other).trans (isOut other).symm

/-- A page that was handed out but cannot be mapped goes back, and the same pages are out again. -/
theorem giveBack_yields (sound : table.Sound) {allocator : PageAllocator} {target : PhysPage}
    (hands : table.allocator.HandsOut target allocator) :
    Step.Yields (PageAllocator.free target) allocator fun _ freed =>
      table.Stays { table with allocator := freed } := by
  have out : allocator.isOut target = true := (hands.isOut target).mpr (Or.inl rfl)
  apply Step.Yields.imp (hands.sound.free_yields out)
  intro _ freed ended
  obtain ⟨soundFreed, sameRange, isOut⟩ := ended
  apply sound.stays_withAllocator soundFreed
  · exact ⟨sameRange.1.trans hands.sameRange.1, sameRange.2.trans hands.sameRange.2⟩
  · intro other
    rw [isOut, hands.isOut]
    by_cases same : other = target
    · simp [same, hands.wasFree]
    · simp [same]

/-- A page that is acquired was in no frame before.  The only fault is that no page is left while
there has to be one; a page that cannot be mapped goes back. -/
theorem acquire_ends (sound : table.Sound) (request : PageRequest) (pages : PageTable)
    (page : VirtPage) (writable : Bool) :
    Step.Ends (acquire request page writable) (table, pages)
      (fun result after => (table.allocator.available = 0 → request.required = false) ∧
        match result with
        | .ok target => table.isResident target = false ∧
            table.allocator.inRange target = true ∧
            ∃ place, table.Links pages page target writable place after
        | .error _ => table.Stays after.1 ∧ after.2 = pages)
      fun fault after => table.allocator.available = 0 ∧ request.required = true ∧
        fault = .outOfPages ∧ after = (table, pages) := by
  simp only [acquire, onFrames, onAllocator, Step.ends_bind, Step.ends_on]
  apply Step.Ends.imp (sound.allocator.allocate_ends request)
  · intro found allocator ended
    cases found with
    | none =>
      obtain ⟨-, optional, rfl⟩ := ended
      exact (Step.ends_pure _).mpr ⟨fun _ => optional, sound.stays, rfl⟩
    | some target =>
      obtain ⟨room, hands⟩ := ended
      have left (empty : table.allocator.available = 0) : request.required = false :=
        absurd empty (Nat.ne_of_gt room)
      simp only [Step.ends_bind]
      apply Step.Yields.imp (installPage_yields { table with allocator } pages page target writable)
      intro result _ installed
      cases result with
      | error reason =>
        obtain rfl := installed
        simp only [Step.ends_bind, Step.ends_on, Step.ends_pure, and_true]
        exact Step.Yields.imp (sound.giveBack_yields hands) fun _ _ stays => ⟨left, stays⟩
      | ok =>
        obtain ⟨place, found, wasFree, rfl⟩ := installed
        apply Step.Yields.bind (trackPage_yields found target writable)
        rintro _ _ rfl
        rw [Step.ends_pure]
        refine ⟨left, ?_, hands.inRange, place, found, wasFree, rfl, ?_⟩
        · rw [← Bool.not_eq_true, sound.tracks.resident, hands.wasFree]
          exact Bool.false_ne_true
        · exact sound.becomes_track hands.sound hands.sameRange hands.isOut _
  · rintro _ _ ⟨empty, required, rfl, rfl⟩
    exact ⟨empty, required, rfl, rfl⟩

theorem share_yields (sound : table.Sound) (pages : PageTable) (page : VirtPage)
    (target : PhysPage) (writable : Bool) :
    Step.Yields (share page target writable) (table, pages) fun result after =>
      match result with
      | .ok () => table.isResident target = true ∧
          ∃ place, table.Links pages page target writable place after
      | .error _ => after = (table, pages) := by
  simp only [share, Step.ends_bind, Step.ends_get]
  cases resident : table.isResident target with
  | false =>
    rw [Bool.not_false, if_pos rfl]
    exact (Step.ends_pure _).mpr rfl
  | true =>
    rw [Bool.not_true, if_neg Bool.false_ne_true, Step.ends_bind]
    apply Step.Yields.imp (installPage_yields table pages page target writable)
    intro result _ installed
    cases result with
    | error reason =>
      obtain rfl := installed
      exact (Step.ends_pure _).mpr rfl
    | ok =>
      obtain ⟨place, found, wasFree, rfl⟩ := installed
      apply Step.Yields.bind (trackPage_yields found target writable)
      rintro _ _ rfl
      rw [Step.ends_pure]
      refine ⟨rfl, place, found, wasFree, rfl, ?_⟩
      -- the page has a frame, so it is out already
      have out := (sound.tracks.resident target).mp resident
      exact sound.becomes_track sound.allocator ⟨rfl, rfl⟩
        (fun other => (or_iff_right_of_imp fun same => same ▸ out).symm) _

end Sound

end FrameTable

end Residency
