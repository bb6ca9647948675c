import Residency.Proofs.Memory.Releasing
import Residency.Proofs.Memory.Waiting

/-!
# Giving back what was acquired

A release finds the page by the number in the page-table entry, and an entry has room for 54 bits of
it.  A page that was acquired is mapped, and goes back when its entry is released, just if its
number fits: `acquired_pages_go_back_if_numbered`.

The pages of an allocator are so few that a number that was cut off leads out of their range
(`PageAllocator.Sound.not_inRange_of_cut`), so that no other page is given back in place of the one
that was meant.
-/

namespace Residency

namespace PageAllocator

variable {pages : PageAllocator} {page cut : PhysPage}

/-- Memory ends long before there are pages with numbers that far apart. -/
theorem Sound.not_inRange_of_cut (sound : pages.Sound) (inside : pages.inRange page = true)
    (beyond : 2 ^ 54 ≤ page.toNat) (isCut : cut.toNat = page.toNat % 2 ^ 54) :
    pages.inRange cut = false := by
  obtain ⟨low, high⟩ := inRange_iff.mp inside
  have held := sound.held
  rw [sound.sized] at held
  simp only [memoryLimit, UInt64.size, pageSize, pageBits, Nat.reduceShiftLeft] at held
  -- the cut takes off more than the whole range is long
  rw [← Bool.not_eq_true, inRange_iff]
  omega

end PageAllocator

namespace FrameTable

variable {table : FrameTable} {pages : PageTable} {page : VirtPage} {target : PhysPage}
  {writable : Bool} {place : Fin tableCapacity} {acquired : FrameTable × PageTable}

namespace Links

/-- What is mapped from now on, by the virtual page and by the entry, is what the entry has room
for. -/
theorem maps (links : table.Links pages page target writable place acquired) :
    ∃ cut, cut.toNat = target.toNat % 2 ^ 54 ∧ acquired.2.mapping page = some cut ∧
      acquired.2.pageOf (pages.addrOf place) = some cut ∧
      acquired.2.findEntry page false = (some (pages.addrOf place), acquired.2) := by
  have mapped : acquired.2.target? place = some (PageTable.mappingEntry target writable).page := by
    rw [links.installed, PageTable.target?_setEntry, if_pos rfl, PageTable.target?_mappingEntry]
  have address : acquired.2.addrOf place = pages.addrOf place := by
    rw [links.installed, PageTable.addrOf_setEntry]
  refine ⟨(PageTable.mappingEntry target writable).page, Entry.toNat_page_ofPage .., ?_, ?_, ?_⟩
  · rw [PageTable.mapping_of_place links.found, mapped]
  · rw [← address, PageTable.pageOf_addrOf, mapped]
  · rw [← address, PageTable.findEntry_of_target links.found mapped]

theorem listed (links : table.Links pages page target writable place acquired) :
    pages.addrOf place ∈ acquired.1.references target :=
  (links.becomes.listed target _).mpr (Or.inr ⟨rfl, rfl⟩)

/-- A page that was in no frame has no other entry. -/
theorem eq_of_listed (links : table.Links pages page target writable place acquired)
    (sound : table.Sound) (absent : table.isResident target = false) {entry : EntryAddr}
    (listed : entry ∈ acquired.1.references target) : entry = pages.addrOf place := by
  rcases (links.becomes.listed target entry).mp listed with before | ⟨-, isNew⟩
  · have resident := sound.isResident_iff.mpr (List.ne_nil_of_mem before)
    exact nomatch absent.symm.trans resident
  · exact isNew

end Links

theorem GivesBack.allocated {after : FrameTable} (givesBack : table.GivesBack target after)
    (sound : after.Sound) : after.allocator.allocated + 1 = table.allocator.allocated := by
  have fits := sound.allocator.length_recycled_le
  rw [givesBack.allocator] at fits ⊢
  simp only [PageAllocator.allocated, List.length_cons] at fits ⊢
  omega

/-- Releasing the entry of the virtual page gives back what was acquired for it. -/
structure Returns (target : PhysPage) (entry : EntryAddr) (acquired after : FrameTable) :
    Prop where
  removed : entry ∉ after.references target
  gone : after.isResident target = false
  allocated : after.allocator.allocated + 1 = acquired.allocator.allocated

namespace Sound

theorem release_returns (sound : table.Sound) (absent : table.isResident target = false)
    (links : table.Links pages page target writable place acquired)
    (fits : target.toNat < 2 ^ 54) :
    Step.Yields (release acquired.2 (pages.addrOf place)) acquired.1 fun _ after =>
      Returns target (pages.addrOf place) acquired.1 after := by
  have soundAcquired := links.becomes.sound
  obtain ⟨cut, isCut, -, maps, -⟩ := links.maps
  -- nothing is cut off, so that the release finds the page itself
  rw [Nat.mod_eq_of_lt fits] at isCut
  obtain rfl := PhysPage.toNat_inj.mp isCut
  apply Step.Yields.imp ((soundAcquired.release_yields _ _).and (soundAcquired.release_cases _ _))
  rintro _ after ⟨becomes, released⟩
  have drops := released.drops soundAcquired maps
  have givesBack := drops.givesBack (List.ne_nil_of_mem links.listed) fun entry listed =>
    List.mem_singleton.mpr (links.eq_of_listed sound absent listed)
  refine ⟨drops.not_mem (List.mem_singleton_self _), ?_, givesBack.allocated becomes.sound⟩
  rw [isResident, givesBack.frames]
  simp

theorem release_misses (sound : table.Sound) (inside : table.allocator.inRange target = true)
    (links : table.Links pages page target writable place acquired)
    (beyond : 2 ^ 54 ≤ target.toNat) :
    Step.Yields (release acquired.2 (pages.addrOf place)) acquired.1 fun _ after =>
      acquired.1.Ignores after := by
  have soundAcquired := links.becomes.sound
  obtain ⟨cut, isCut, -, maps, -⟩ := links.maps
  have outside := sound.allocator.not_inRange_of_cut inside beyond isCut
  apply Step.Yields.imp (soundAcquired.release_cases _ _)
  intro _ after released
  refine released.ignores fun other isMapped listed => ?_
  cases maps.symm.trans isMapped
  -- what has an entry is out, and only pages of the range are
  have out := (soundAcquired.tracks.lent_iff cut).mpr ⟨_, listed⟩
  have insideAcquired := soundAcquired.allocator.inRange out
  rw [links.becomes.sameRange.inRange_eq, outside] at insideAcquired
  cases insideAcquired

end Sound

end FrameTable

namespace MappedMemory

variable {ι : Type} [DecidableEq ι]

/-- A new frame table, over an allocator that nobody else uses, after any run of calls.  If a page
is acquired, with whatever page table, the page with the lowest 54 bits of its number is mapped from
now on, and its entry is found and listed.  With a number that fits, this is the page itself, and
releasing the entry takes it off the frame and the page out of the table, and one page less is out.
With a number that does not fit, it is another page, and releasing the entry does nothing but
warn. -/
theorem acquired_pages_go_back_if_numbered {start stop : PhysPage} {allocator : PageAllocator}
    (made : PageAllocator.ofRange start stop = .ok allocator) (tables : ι → PageTable)
    (before : List (MemoryCall ι)) (request : PageRequest) (pages : PageTable) (page : VirtPage)
    (writable : Bool) :
    let reached := (serve { frames := { allocator }, tables } before).2.frames
    Step.Ends (FrameTable.acquire request page writable) (reached, pages)
      (fun result acquired => ∀ target, result = .ok target →
        ∃ entry cut, acquired.2.findEntry page false = (some entry, acquired.2) ∧
          entry ∈ acquired.1.references target ∧ acquired.2.mapping page = some cut ∧
          cut.toNat = target.toNat % 2 ^ 54 ∧
          (target.toNat < 2 ^ 54 → cut = target ∧
            Step.Yields (FrameTable.release acquired.2 entry) acquired.1 fun _ after =>
              FrameTable.Returns target entry acquired.1 after) ∧
          (2 ^ 54 ≤ target.toNat → cut ≠ target ∧
            Step.Yields (FrameTable.release acquired.2 entry) acquired.1 fun _ after =>
              acquired.1.Ignores after))
      fun _ _ => True := by
  intro reached
  have sound : reached.Sound := serve_sound (FrameTable.sound_ofRange made).1 before
  apply (sound.acquire_ends request pages page writable).imp
  · rintro _ acquired ⟨-, ended⟩ target rfl
    obtain ⟨absent, inside, place, links⟩ := ended
    obtain ⟨cut, isCut, mapped, -, found⟩ := links.maps
    refine ⟨pages.addrOf place, cut, found, links.listed, mapped, isCut, fun fits => ?_,
      fun beyond => ?_⟩
    · refine ⟨PhysPage.toNat_inj.mp ?_, sound.release_returns absent links fits⟩
      rw [isCut, Nat.mod_eq_of_lt fits]
    · refine ⟨?_, sound.release_misses inside links beyond⟩
      rintro rfl
      omega
  · exact fun _ _ _ => trivial

/-- The page with the last number that fits. -/
theorem last_numbered_page_goes_back :
    let last : PhysPage := ⟨0x3fffffffffffff⟩
    let allocator : PageAllocator := { start := last, fresh := last, stop := last.next }
    let state : FrameTable × PageTable := ({ allocator }, { root := ⟨9⟩ })
    PageAllocator.ofRange last last.next = .ok allocator ∧ last.toNat < 2 ^ 54 ∧
      ∃ acquired entry,
        (FrameTable.acquire {} ⟨0⟩ true).run state = .ok (.ok last) acquired ∧
        acquired.2.mapping ⟨0⟩ = some last ∧
        Step.Yields (FrameTable.release acquired.2 entry) acquired.1 fun _ after =>
          FrameTable.Returns last entry acquired.1 after := by
  intro last allocator state
  have made : PageAllocator.ofRange last last.next = .ok allocator :=
    PageAllocator.ofRange_eq_ok_iff.mpr ⟨by decide, by decide, rfl⟩
  have fits : last.toNat < 2 ^ 54 := by decide
  obtain ⟨acquired, ran⟩ : ∃ acquired, (FrameTable.acquire {} ⟨0⟩ true).run state =
      .ok (.ok last) acquired := ⟨_, rfl⟩
  have ends := acquired_pages_go_back_if_numbered made (fun _ : Unit => { root := ⟨9⟩ }) [] {}
    { root := ⟨9⟩ } ⟨0⟩ true
  obtain ⟨entry, cut, -, -, mapped, -, goesBack, -⟩ := ends.done_of_run ran last rfl
  obtain ⟨rfl, returns⟩ := goesBack fits
  exact ⟨made, fits, acquired, entry, ran, mapped, returns⟩

/-- The page with the next number.  It is page 0 that is mapped, and the page that was acquired
stays in the table when its entry is released. -/
theorem unnumbered_page_is_kept :
    let unnumbered : PhysPage := ⟨0x40000000000000⟩
    let allocator : PageAllocator :=
      { start := unnumbered, fresh := unnumbered, stop := unnumbered.next }
    let state : FrameTable × PageTable := ({ allocator }, { root := ⟨9⟩ })
    PageAllocator.ofRange unnumbered unnumbered.next = .ok allocator ∧
      ∃ acquired entry after,
        (FrameTable.acquire {} ⟨0⟩ true).run state = .ok (.ok unnumbered) acquired ∧
        acquired.2.mapping ⟨0⟩ = some ⟨0⟩ ∧
        acquired.2.findEntry ⟨0⟩ false = (some entry, acquired.2) ∧
        (FrameTable.release acquired.2 entry).run acquired.1 = .ok () after ∧
        entry ∈ after.references unnumbered ∧ after.isResident unnumbered = true ∧
        after.allocator.allocated = acquired.1.allocator.allocated := by
  intro unnumbered allocator state
  have made : PageAllocator.ofRange unnumbered unnumbered.next = .ok allocator :=
    PageAllocator.ofRange_eq_ok_iff.mpr ⟨by decide, by decide, rfl⟩
  obtain ⟨acquired, ran⟩ : ∃ acquired, (FrameTable.acquire {} ⟨0⟩ true).run state =
      .ok (.ok unnumbered) acquired := ⟨_, rfl⟩
  have sound := (FrameTable.sound_ofRange made).1
  obtain ⟨-, -, inside, place, links⟩ := (sound.acquire_ends {} _ ⟨0⟩ true).done_of_run ran
  obtain ⟨cut, isCut, mapped, -, found⟩ := links.maps
  have isZero : cut = ⟨0⟩ := PhysPage.toNat_inj.mp (isCut.trans (by decide))
  obtain ⟨_, _, released, warning, rfl⟩ := (sound.release_misses inside links (by decide)).run
  refine ⟨made, acquired, _, _, ran, isZero ▸ mapped, found, released, links.listed, ?_, rfl⟩
  exact links.becomes.sound.isResident_iff.mpr (List.ne_nil_of_mem links.listed)

end MappedMemory

end Residency
