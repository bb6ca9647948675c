import Residency.Proofs.Memory.PageCalls

/-!
# The bytes of pages

All pages of an allocator stand in one memory, each at a place that is computed from its number.

* `Sound.firstOf_apart`: the places of two pages do not meet;
* `Sound.overwrites_withPage`: writing to a page changes its own bytes and no other;
* `pages_have_bytes_of_their_own`: all of this, and what each operation does to the bytes, in every
  state that a run of requests, returns and writes leads to.
-/

namespace Residency

namespace PageAllocator

variable {pages after : PageAllocator} {page other : PhysPage}

/-! ## Places in memory -/

theorem firstOf_congr (start : after.start = pages.start) (page : PhysPage) :
    after.firstOf page = pages.firstOf page := by
  rw [firstOf, firstOf, start]

theorem pageAt_congr (start : after.start = pages.start)
    (same : ∀ i, pages.firstOf page ≤ i → i < pages.firstOf page + pageSize →
      after.memory.byteAt i = pages.memory.byteAt i) : after.pageAt page = pages.pageAt page := by
  rw [pageAt, pageAt, firstOf_congr start, SparseBytes.slice_congr same]

/-- A page is made of just those bytes of memory that stand at its place. -/
theorem bytes_pageAt (pages : PageAllocator) (page : PhysPage) :
    (pages.pageAt page).bytes =
      pages.memory.slice (pages.firstOf page) (pages.firstOf page + pageSize) := by
  rw [pageAt, Block.bytes_ofBytes (by simp)]
  simp

/-- Pages of the range are a page size apart or more. -/
theorem firstOf_apart (inside : pages.inRange page = true)
    (insideThere : pages.inRange other = true) (apart : other ≠ page) :
    pages.firstOf page + pageSize ≤ pages.firstOf other ∨
      pages.firstOf other + pageSize ≤ pages.firstOf page := by
  have low := (inRange_iff.mp inside).1
  have lowThere := (inRange_iff.mp insideThere).1
  have numbers : other.toNat ≠ page.toNat := fun same => apart (PhysPage.toNat_inj.mp same)
  simp only [firstOf, ← Nat.succ_mul]
  rcases Nat.lt_or_gt_of_ne numbers with before | behind
  · exact Or.inr (Nat.mul_le_mul_right _ (by omega))
  · exact Or.inl (Nat.mul_le_mul_right _ (by omega))

/-- The bytes of a page are replaced, and no other byte of memory changes. -/
structure Overwrites (pages : PageAllocator) (page : PhysPage) (data : Page)
    (after : PageAllocator) : Prop where
  written : after.pageAt page = data
  others : ∀ other, pages.inRange other = true → other ≠ page →
    after.pageAt other = pages.pageAt other
  elsewhere : ∀ i, i < pages.firstOf page ∨ pages.firstOf page + pageSize ≤ i →
    after.memory.byteAt i = pages.memory.byteAt i

theorem overwrites_withPage (inside : pages.inRange page = true) (data : Page) :
    pages.Overwrites page data (pages.withPage page data) := by
  have length := data.length_bytes
  have elsewhere (i : Nat) (outside : i < pages.firstOf page ∨ pages.firstOf page + pageSize ≤ i) :
      (pages.withPage page data).memory.byteAt i = pages.memory.byteAt i := by
    rw [withPage, SparseBytes.byteAt_splice, if_neg (by omega)]
  have start : (pages.withPage page data).start = pages.start := rfl
  refine ⟨?_, fun other insideThere apart => ?_, elsewhere⟩
  · have place : pages.firstOf page + pageSize = pages.firstOf page + data.bytes.length := by
      rw [length]
    rw [pageAt, firstOf_congr start, place, withPage, SparseBytes.slice_splice]
    exact Block.overwrite_zero_bytes _ _
  · -- the bytes of another page all stand outside the place that was written
    apply pageAt_congr start
    intro i low high
    apply elsewhere
    rcases firstOf_apart inside insideThere apart with before | behind
    · exact Or.inr (by omega)
    · exact Or.inl (by omega)

/-- Who has taken a page, and writes to it, starts from the memory that there was. -/
theorem Overwrites.of_same {taken : PageAllocator} {data : Page} (sameRange : pages.SameRange taken)
    (memory : taken.memory = pages.memory) (overwrites : taken.Overwrites page data after) :
    pages.Overwrites page data after := by
  refine ⟨overwrites.written, fun other inside apart => ?_, fun i outside => ?_⟩
  · have insideThere := (sameRange.inRange_eq other).trans inside
    rw [overwrites.others other insideThere apart]
    exact pageAt_congr sameRange.1 fun i _ _ => by rw [memory]
  · rw [← firstOf_congr sameRange.1] at outside
    rw [overwrites.elsewhere i outside, memory]

theorem memory_of_take? (taken : pages.take? = some (page, after)) :
    after.memory = pages.memory := by
  rw [take?] at taken
  split at taken
  next =>
    cases taken
    rfl
  next =>
    split at taken
    next =>
      cases taken
      rfl
    next => cases taken

namespace Sound

/-- Only a request for zeros changes bytes, those of the page that it gets. -/
theorem allocate_writes (sound : pages.Sound) (request : PageRequest) :
    Step.Ends (allocate request) pages
      (fun found after => match found, request.zeroed with
        | some page, true => pages.inRange page = true ∧ pages.Overwrites page .zero after
        | _, _ => after.memory = pages.memory)
      fun _ after => after.memory = pages.memory := by
  apply (sound.allocate_takes request).imp
  · intro found after ended
    cases found with
    | none =>
      obtain ⟨-, -, rfl⟩ := ended
      rfl
    | some page =>
      obtain ⟨taken, isNext, rfl⟩ := ended
      have memory := memory_of_take? isNext
      cases request.zeroed with
      | false => exact memory
      | true =>
        rcases sound.take?_cases with ⟨_, _, found, -, hands⟩ | ⟨missing, -⟩
        · cases isNext.symm.trans found
          have inside := (hands.sameRange.inRange_eq page).trans hands.inRange
          exact ⟨hands.inRange,
            (overwrites_withPage inside .zero).of_same hands.sameRange memory⟩
        · cases isNext.symm.trans missing
  · rintro _ _ ⟨-, -, -, rfl⟩
    rfl

end Sound

theorem free_keeps_memory (page : PhysPage) :
    Step.Ends (free page) pages (fun _ after => after.memory = pages.memory)
      fun _ after => after.memory = pages.memory := by
  simp only [free, Step.ends_bind, Step.ends_get, Step.ends_ensure, Step.ends_modify, ite_self]

end PageAllocator

/-! ## Runs of calls -/

/-- What can be done to an allocator and the pages that it has. -/
inductive ContentCall where
  | allocator (call : PageCall)
  | modifyPage (page : PhysPage) (f : Page → Page)

def ContentCall.step : ContentCall → Step PageAllocator (Option PhysPage)
  | .allocator call => call.step
  | .modifyPage page f => do
    PageAllocator.modifyPage page f
    return none

namespace PageAllocator

variable {pages after : PageAllocator} {page : PhysPage}

/-- Makes calls one after the other, whether or not they fail. -/
def serveContents (pages : PageAllocator) (calls : List ContentCall) : PageAllocator :=
  (Step.runAll (calls.map ContentCall.step) pages).2

theorem Sound.serveContents_keeps (sound : pages.Sound) (calls : List ContentCall) :
    (pages.serveContents calls).Sound ∧ pages.SameRange (pages.serveContents calls) := by
  apply Step.runAll_invariant (fun after => after.Sound ∧ pages.SameRange after) _
    ⟨sound, rfl, rfl⟩
  rintro taken member between ⟨soundBetween, same⟩
  obtain ⟨call, -, rfl⟩ := List.mem_map.mp member
  cases call with
  | allocator call =>
    have keeps {after : PageAllocator} {event : PageEvent} (passes : between.Passes after event) :
        after.Sound ∧ pages.SameRange after :=
      ⟨passes.sound, passes.sameRange.1.trans same.1, passes.sameRange.2.trans same.2⟩
    exact (soundBetween.call_passes call).imp (fun _ _ => keeps) fun _ _ => keeps
  | modifyPage page f =>
    simp only [ContentCall.step, Step.ends_bind, Step.ends_pure]
    apply (soundBetween.modifyPage_ends page f).imp
    · rintro _ _ ⟨-, rfl⟩
      exact ⟨soundBetween.withPage page _, same⟩
    · rintro _ _ ⟨-, -, rfl⟩
      exact ⟨soundBetween, same⟩

/-- A page that was taken, written to and given back is the next one, with what was written to it. -/
theorem Sound.serveContents_returned (sound : pages.Sound) (isNext : pages.take? = some (page, after))
    (f : Page → Page) :
    let returned := pages.serveContents
      [.allocator (.allocate {}), .modifyPage page f, .allocator (.free page)]
    returned.pageAt page = f (after.pageAt page) ∧ ∃ next, returned.take? = some (page, next) := by
  intro returned
  rcases sound.take?_cases with ⟨_, _, found, -, hands⟩ | ⟨missing, -⟩
  · cases isNext.symm.trans found
    have inside := (hands.sameRange.inRange_eq page).trans hands.inRange
    have taking : (ContentCall.allocator (.allocate {})).step.run pages = .ok (some page) after := by
      show (allocate {}).run pages = _
      rw [allocate, Step.run_bind_of_ok (rfl : (get : Step _ _).run pages = .ok pages pages)]
      simp only [isNext]
      rfl
    obtain ⟨_, written, writing, rfl⟩ := (hands.sound.modifyPage_yields inside f).run
    have out : (after.withPage page (f (after.pageAt page))).isOut page = true :=
      (hands.isOut page).mpr (Or.inl rfl)
    obtain ⟨_, freed, freeing, isFreed⟩ := (free_pushes out).run
    have wrote : (ContentCall.modifyPage page f).step.run after = .ok none _ :=
      Step.run_bind_of_ok writing
    have gave : (ContentCall.allocator (.free page)).step.run _ = .ok none freed :=
      Step.run_bind_of_ok freeing
    have isReturned : returned = freed := by
      show (Step.runAll [_, _, _] pages).2 = freed
      rw [Step.runAll_cons_of_ok taking, Step.runAll_cons_of_ok wrote, Step.runAll_cons_of_ok gave]
      rfl
    rw [isReturned, isFreed]
    exact ⟨(overwrites_withPage inside _).written, _, rfl⟩
  · cases isNext.symm.trans missing

/-- A new allocator, after any run of requests, returns and writes, also of calls that fail.  A page
of the range has a place of `pageSize` bytes in memory, the computation of which does not overflow,
and its contents are the bytes there; to look for any other page is a fault.  The places of two
pages do not meet.  Writing to a page changes its own bytes and no other.  A request for zeros fills
the page that it gets with them, and changes no other byte; no other request, none that gets no
page, and no return changes a byte. -/
theorem pages_have_bytes_of_their_own {start stop : PhysPage} {allocator : PageAllocator}
    (made : ofRange start stop = .ok allocator) (calls : List ContentCall) :
    let reached := allocator.serveContents calls
    let Inside (page : PhysPage) := start.toNat ≤ page.toNat ∧ page.toNat < stop.toNat
    let first (page : PhysPage) := (page.toNat - start.toNat) * pageSize
    (∀ page, Step.Ends (pageRange page) reached
        (fun range after => Inside page ∧ range = (first page, first page + pageSize) ∧
          first page + pageSize ≤ reached.memory.size ∧ after = reached)
        fun fault after => ¬ Inside page ∧ fault = .pageOutOfRange page ∧ after = reached) ∧
      (∀ page, Step.Ends (contents page) reached
        (fun data after => Inside page ∧ data.bytes.length = pageSize ∧
          data.bytes = reached.memory.slice (first page) (first page + pageSize) ∧
          after = reached)
        fun fault after => ¬ Inside page ∧ fault = .pageOutOfRange page ∧ after = reached) ∧
      (∀ page other, Inside page → Inside other → other ≠ page →
        first page + pageSize ≤ first other ∨ first other + pageSize ≤ first page) ∧
      (∀ page f, Step.Ends (modifyPage page f) reached
        (fun _ after => Inside page ∧
          reached.Overwrites page (f (reached.pageAt page)) after)
        fun fault after => ¬ Inside page ∧ fault = .pageOutOfRange page ∧ after = reached) ∧
      (∀ request, Step.Ends (allocate request) reached
        (fun found after => match found, request.zeroed with
          | some page, true => Inside page ∧ reached.Overwrites page .zero after
          | _, _ => after.memory = reached.memory)
        fun _ after => after.memory = reached.memory) ∧
      ∀ page, Step.Ends (free page) reached (fun _ after => after.memory = reached.memory)
        fun _ after => after.memory = reached.memory := by
  intro reached Inside first
  obtain ⟨sound, same⟩ := (sound_ofRange made).1.serveContents_keeps calls
  have sameStart : reached.start = start := by
    rw [same.1, (ofRange_eq_ok_iff.mp made).2.2]
  have sameStop : reached.stop = stop := by
    rw [same.2, (ofRange_eq_ok_iff.mp made).2.2]
  have inside_iff (page : PhysPage) : reached.inRange page = true ↔ Inside page := by
    rw [inRange_iff, sameStart, sameStop]
  have outside {page : PhysPage} (beyond : reached.inRange page = false) : ¬ Inside page := by
    rw [← inside_iff, beyond]
    exact Bool.false_ne_true
  have firstOf_eq (page : PhysPage) : reached.firstOf page = first page := by
    rw [firstOf, sameStart]
  refine ⟨fun page => ?_, fun page => ?_, fun page other inside insideThere apart => ?_,
    fun page f => ?_, fun request => ?_, free_keeps_memory⟩
  · apply (sound.pageRange_ends page).imp
    · rintro _ _ ⟨inside, rfl, rfl⟩
      rw [firstOf_eq]
      exact ⟨(inside_iff page).mp inside, rfl, firstOf_eq page ▸ sound.firstOf_add_le inside, rfl⟩
    · exact fun _ _ ended => ⟨outside ended.1, ended.2⟩
  · apply (sound.contents_ends page).imp
    · rintro _ _ ⟨inside, rfl, rfl⟩
      rw [← firstOf_eq]
      exact ⟨(inside_iff page).mp inside, Block.length_bytes _, bytes_pageAt .., rfl⟩
    · exact fun _ _ ended => ⟨outside ended.1, ended.2⟩
  · rw [← firstOf_eq, ← firstOf_eq]
    exact firstOf_apart ((inside_iff page).mpr inside) ((inside_iff other).mpr insideThere) apart
  · apply (sound.modifyPage_ends page f).imp
    · rintro _ _ ⟨inside, rfl⟩
      exact ⟨(inside_iff page).mp inside, overwrites_withPage inside _⟩
    · exact fun _ _ ended => ⟨outside ended.1, ended.2⟩
  · simp only [← inside_iff]
    exact sound.allocate_writes request

/-- The two pages with the highest numbers that a range can have.  The first one is filled with other
bytes than zeros and given back; then the second one still has its place, and a request for zeros
gets the first one and overwrites all of them. -/
theorem last_pages_have_bytes_of_their_own :
    let start : PhysPage := ⟨0xfffffffffffffffd⟩
    let stop : PhysPage := ⟨0xffffffffffffffff⟩
    let allocator : PageAllocator := { start, fresh := start, stop }
    let reached := allocator.serveContents [.allocator (.allocate {}),
      .modifyPage start fun _ => .filled 0xab, .allocator (.free start)]
    ofRange start stop = .ok allocator ∧
      Step.Yields (pageRange ⟨0xfffffffffffffffe⟩) reached (fun range after =>
        range = (pageSize, 2 * pageSize) ∧ after = reached) ∧
      reached.pageAt start = .filled 0xab ∧
      Step.Yields (allocate { zeroed := true }) reached fun found after =>
        found = some start ∧ reached.Overwrites start .zero after := by
  intro start stop allocator reached
  have made : ofRange start stop = .ok allocator :=
    ofRange_eq_ok_iff.mpr ⟨by decide, by decide, rfl⟩
  obtain ⟨ranges, -, -, -, requests, -⟩ := pages_have_bytes_of_their_own made
    [.allocator (.allocate {}), .modifyPage start fun _ => .filled 0xab, .allocator (.free start)]
  have isFirst : allocator.take? = some (start, { allocator with fresh := start.next }) := rfl
  obtain ⟨written, next, isNext⟩ :=
    (sound_ofRange made).1.serveContents_returned isFirst fun _ => .filled 0xab
  have sound : reached.Sound := ((sound_ofRange made).1.serveContents_keeps _).1
  refine ⟨made, (ranges ⟨0xfffffffffffffffe⟩).imp ?_ ?_, written, ?_⟩
  · rintro range after ⟨-, place, -, same⟩
    exact ⟨place.trans (by decide), same⟩
  · rintro _ _ ⟨outside, -⟩
    exact outside (by decide)
  · apply ((sound.allocate_takes { zeroed := true }).and (requests { zeroed := true })).imp
    · rintro (_ | found) after ⟨takes, writes⟩
      · exact nomatch isNext.symm.trans takes.1
      · obtain ⟨_, isFound, -⟩ := takes
        cases isNext.symm.trans isFound
        exact ⟨rfl, writes.2⟩
    · rintro _ _ ⟨⟨missing, -⟩, -⟩
      exact nomatch isNext.symm.trans missing

end PageAllocator

end Residency
