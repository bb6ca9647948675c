import Mathlib.Data.Finset.Card
import Mathlib.Order.Interval.Finset.Nat
import Residency.Proofs.Memory.Waiting

/-!
# The set of pages that are out

An allocator of pages is, to its callers, the set `PageAllocator.out` of the pages that it has handed
out and not taken back, inside the set `PageAllocator.all` of its range.

* `Sound.card_out`: the counts of the allocator are those of this set;
* `Sound.allocate_adds` and `Sound.free_removes`: a page that is handed out is added to the set, and
  one that is taken back is removed from it; a call that fails, and a request that gets no page,
  leave the whole allocator as it is;
* `handed_out_once`: all of this in every state that a run of calls leads to, also of calls that
  fail; and of two requests that get the same page, the page was taken back in between.
-/

namespace Residency

namespace PageAllocator

variable {pages after : PageAllocator} {page : PhysPage}

/-- The numbers of all pages of the range. -/
def all (pages : PageAllocator) : Finset Nat :=
  Finset.Ico pages.start.toNat pages.stop.toNat

/-- The numbers of the pages that were handed out before and do not wait on the stack. -/
def out (pages : PageAllocator) : Finset Nat :=
  Finset.Ico pages.start.toNat pages.fresh.toNat \ (pages.recycled.map PhysPage.toNat).toFinset

theorem mem_all : page.toNat ∈ pages.all ↔ pages.inRange page = true := by
  rw [all, Finset.mem_Ico, inRange_iff]

theorem mem_out : page.toNat ∈ pages.out ↔ pages.isOut page = true := by
  have waits : page.toNat ∈ (pages.recycled.map PhysPage.toNat).toFinset ↔
      page ∈ pages.recycled := by
    simp only [List.mem_toFinset, List.mem_map, PhysPage.toNat_inj, exists_eq_right]
  rw [out, Finset.mem_sdiff, Finset.mem_Ico, waits, isOut_iff, and_assoc]

/-- The numbers of pages are all numbers of a machine word. -/
theorem exists_page {number : Nat} (fits : number < wordLimit) :
    ∃ page : PhysPage, page.toNat = number :=
  ⟨⟨.ofNat number⟩, UInt64.toNat_ofNat_of_lt' fits⟩

theorem lt_of_mem_all {number : Nat} (member : number ∈ pages.all) : number < wordLimit :=
  Nat.lt_trans (Finset.mem_Ico.mp member).2 pages.stop.raw.toNat_lt

theorem lt_of_mem_out {number : Nat} (member : number ∈ pages.out) : number < wordLimit :=
  Nat.lt_trans (Finset.mem_Ico.mp (Finset.mem_sdiff.mp member).1).2 pages.fresh.raw.toNat_lt

/-- Which pages are out is all that there is to know about the set. -/
theorem out_eq_of_isOut {numbers : Finset Nat} (fit : ∀ number ∈ numbers, number < wordLimit)
    (same : ∀ page, pages.isOut page = true ↔ page.toNat ∈ numbers) : pages.out = numbers := by
  ext number
  by_cases small : number < wordLimit
  · obtain ⟨page, rfl⟩ := exists_page small
    rw [mem_out, same]
  · exact iff_of_false (fun member => small (lt_of_mem_out member)) fun member =>
      small (fit number member)

/-- A page that is handed out is added to those that are out. -/
theorem HandsOut.out_eq (hands : pages.HandsOut page after) :
    after.out = insert page.toNat pages.out := by
  apply out_eq_of_isOut
  · intro number member
    cases Finset.mem_insert.mp member with
    | inl new => exact new ▸ page.raw.toNat_lt
    | inr before => exact lt_of_mem_out before
  · intro other
    rw [hands.isOut, Finset.mem_insert, PhysPage.toNat_inj, mem_out]

namespace Sound

/-! ## Counting -/

theorem out_eq_all_iff (sound : pages.Sound) : pages.out = pages.all ↔ pages.available = 0 := by
  rw [sound.available_eq_zero_iff]
  constructor
  · intro same page inside
    rw [← mem_out, same, mem_all]
    exact inside
  · intro all_out
    apply out_eq_of_isOut fun _ => lt_of_mem_all
    intro page
    rw [mem_all]
    exact ⟨sound.inRange, all_out page⟩

theorem card_out (sound : pages.Sound) : pages.out.card = pages.allocated := by
  have injective : Function.Injective PhysPage.toNat := fun _ _ => PhysPage.toNat_inj.mp
  -- the pages on the stack are among those before `fresh`, so taking them away subtracts
  have among : (pages.recycled.map PhysPage.toNat).toFinset ⊆
      Finset.Ico pages.start.toNat pages.fresh.toNat := by
    intro number member
    obtain ⟨page, waits, rfl⟩ := List.mem_map.mp (List.mem_toFinset.mp member)
    exact Finset.mem_Ico.mpr (sound.returned page waits)
  rw [out, Finset.card_sdiff_of_subset among, Nat.card_Ico,
    List.toFinset_card_of_nodup (sound.distinct.map injective), List.length_map, allocated]

/-! ## Handing out and taking back -/

theorem allocate_adds (sound : pages.Sound) (request : PageRequest) :
    Step.Ends (allocate request) pages
      (fun found after => match found with
        | some page => page.toNat ∈ pages.all ∧ page.toNat ∉ pages.out ∧
            after.out = insert page.toNat pages.out ∧ after.Sound ∧ pages.SameRange after
        | none => pages.out = pages.all ∧ request.required = false ∧ after = pages)
      fun fault after => pages.out = pages.all ∧ request.required = true ∧
        fault = .outOfPages ∧ after = pages := by
  rw [sound.out_eq_all_iff]
  refine (sound.allocate_ends request).imp ?_ fun _ _ => id
  intro found after ended
  cases found with
  | none => exact ended
  | some page =>
    obtain ⟨-, hands⟩ := ended
    have wasFree : page.toNat ∉ pages.out := by
      rw [mem_out, hands.wasFree]
      exact Bool.false_ne_true
    exact ⟨mem_all.mpr hands.inRange, wasFree, hands.out_eq, hands.sound, hands.sameRange⟩

theorem free_removes (sound : pages.Sound) (page : PhysPage) :
    Step.Ends (free page) pages
      (fun _ after => page.toNat ∈ pages.out ∧ after.out = pages.out.erase page.toNat ∧
        after.Sound ∧ pages.SameRange after)
      fun fault after => page.toNat ∉ pages.out ∧ fault = .pageNotAllocated page ∧
        after = pages := by
  rw [mem_out]
  by_cases isOut : pages.isOut page = true
  · apply Step.Yields.imp (sound.free_yields isOut)
    intro _ after ended
    obtain ⟨soundAfter, sameRange, others⟩ := ended
    refine ⟨isOut, out_eq_of_isOut ?_ ?_, soundAfter, sameRange⟩
    · exact fun number member => lt_of_mem_out (Finset.mem_of_mem_erase member)
    · intro other
      rw [others, Finset.mem_erase, mem_out, Ne, Ne, PhysPage.toNat_inj]
  · simp only [free, Step.ends_bind, Step.ends_get, Step.ends_ensure, if_neg isOut]
    exact ⟨isOut, trivial, trivial⟩

end Sound

end PageAllocator

/-! ## Runs of calls -/

inductive PageCall where
  | allocate (request : PageRequest)
  | free (page : PhysPage)
deriving DecidableEq

/-- Makes a call; gives the page that was handed out, if any was. -/
def PageCall.step : PageCall → Step PageAllocator (Option PhysPage)
  | .allocate request => PageAllocator.allocate request
  | .free page => do
    PageAllocator.free page
    return none

/-- A call with its result. -/
abbrev PageEvent := PageCall × Except Fault (Option PhysPage)

namespace PageAllocator

variable {pages after : PageAllocator} {page : PhysPage} {calls : List PageCall}

/-- Makes calls one after the other, whether or not they fail; gives each with its result. -/
def serve (pages : PageAllocator) (calls : List PageCall) : List PageEvent × PageAllocator :=
  let (results, after) := Step.runAll (calls.map PageCall.step) pages
  (calls.zip results, after)

theorem serve_cons_of_ok {call : PageCall} {given : Option PhysPage}
    (run : call.step.run pages = .ok given after) (calls : List PageCall) :
    pages.serve (call :: calls) =
      ((call, .ok given) :: (after.serve calls).1, (after.serve calls).2) := by
  simp only [serve, List.map_cons, Step.runAll_cons_of_ok run, List.zip_cons_cons]

theorem serve_cons_of_error {call : PageCall} {fault : Fault}
    (run : call.step.run pages = .error fault after) (calls : List PageCall) :
    pages.serve (call :: calls) =
      ((call, .error fault) :: (after.serve calls).1, (after.serve calls).2) := by
  simp only [serve, List.map_cons, Step.runAll_cons_of_error run, List.zip_cons_cons]

/-- What an event tells of the pages that are out before and after it. -/
structure Passes (pages after : PageAllocator) (event : PageEvent) : Prop where
  sound : after.Sound
  sameRange : pages.SameRange after
  handedOut : ∀ page, event.2 = .ok (some page) →
    page.toNat ∉ pages.out ∧ page.toNat ∈ after.out
  takenBack : ∀ page : PhysPage, page.toNat ∈ pages.out → page.toNat ∉ after.out →
    event = (.free page, .ok none)

namespace Sound

theorem call_passes (sound : pages.Sound) (call : PageCall) :
    Step.Ends call.step pages (fun given after => pages.Passes after (call, .ok given))
      fun fault after => pages.Passes after (call, .error fault) := by
  have unchanged {event : PageEvent} (nothing : ∀ page, event.2 ≠ .ok (some page)) :
      pages.Passes pages event :=
    ⟨sound, ⟨rfl, rfl⟩, fun page given => absurd given (nothing page),
      fun _ before missing => absurd before missing⟩
  cases call with
  | allocate request =>
    apply (sound.allocate_adds request).imp
    · intro found after ended
      cases found with
      | none =>
        obtain ⟨-, -, rfl⟩ := ended
        exact unchanged nofun
      | some page =>
        obtain ⟨-, wasFree, out_eq, soundAfter, sameRange⟩ := ended
        refine ⟨soundAfter, sameRange, fun _ given => ?_, fun other before missing => ?_⟩
        · cases given
          exact ⟨wasFree, out_eq ▸ Finset.mem_insert_self ..⟩
        · exact absurd (out_eq ▸ Finset.mem_insert_of_mem before) missing
    · intro fault after ended
      obtain ⟨-, -, -, rfl⟩ := ended
      exact unchanged nofun
  | free page =>
    rw [PageCall.step, Step.ends_bind]
    apply (sound.free_removes page).imp
    · intro _ after ended
      obtain ⟨-, out_eq, soundAfter, sameRange⟩ := ended
      rw [Step.ends_pure]
      refine ⟨soundAfter, sameRange, nofun, fun other before missing => ?_⟩
      by_cases same : other = page
      · rw [same]
      · -- no other page has left the set
        rw [out_eq, Finset.mem_erase, Ne, PhysPage.toNat_inj] at missing
        exact absurd ⟨same, before⟩ missing
    · intro fault after ended
      obtain ⟨-, -, rfl⟩ := ended
      exact unchanged nofun

/-- Any run of calls keeps the allocator sound and its range. -/
theorem serve_keeps (sound : pages.Sound) (calls : List PageCall) :
    (pages.serve calls).2.Sound ∧ pages.SameRange (pages.serve calls).2 := by
  apply Step.runAll_invariant (fun after => after.Sound ∧ pages.SameRange after) _
    ⟨sound, rfl, rfl⟩
  intro taken member between holds
  obtain ⟨call, -, rfl⟩ := List.mem_map.mp member
  obtain ⟨soundBetween, same⟩ := holds
  have keeps {after : PageAllocator} {event : PageEvent} (passes : between.Passes after event) :
      after.Sound ∧ pages.SameRange after :=
    ⟨passes.sound, passes.sameRange.1.trans same.1, passes.sameRange.2.trans same.2⟩
  exact (soundBetween.call_passes call).imp (fun _ _ => keeps) fun _ _ => keeps

/-! ## Histories -/

/-- A history begins with one event, after which the rest is the history of the later calls. -/
theorem passes_of_cons (sound : pages.Sound) {event : PageEvent} {rest : List PageEvent}
    (history : (pages.serve calls).1 = event :: rest) :
    ∃ after later, pages.Passes after event ∧ (after.serve later).1 = rest := by
  cases calls with
  | nil => cases history
  | cons call calls =>
    have ends := sound.call_passes call
    cases run : call.step.run pages with
    | ok given after =>
      rw [serve_cons_of_ok run] at history
      obtain ⟨rfl, rfl⟩ := List.cons.inj history
      exact ⟨after, calls, ends.done_of_run run, rfl⟩
    | error fault after =>
      rw [serve_cons_of_error run] at history
      obtain ⟨rfl, rfl⟩ := List.cons.inj history
      exact ⟨after, calls, ends.stopped_of_run run, rfl⟩

variable {request request' : PageRequest} {earlier between later : List PageEvent}

/-- A page that is out is not handed out before it has been taken back. -/
theorem freed_before (sound : pages.Sound) (isOut : page.toNat ∈ pages.out)
    (history : (pages.serve calls).1 = between ++ (.allocate request, .ok (some page)) :: later) :
    (.free page, .ok none) ∈ between := by
  -- the page stays out from one event to the next, unless the event takes it back
  induction between generalizing pages calls with
  | nil =>
    obtain ⟨after, calls, passes, -⟩ := sound.passes_of_cons history
    exact absurd isOut (passes.handedOut page rfl).1
  | cons event between inductionHypothesis =>
    obtain ⟨after, calls, passes, rest⟩ := sound.passes_of_cons history
    by_cases still : page.toNat ∈ after.out
    · exact List.mem_cons_of_mem _ (inductionHypothesis passes.sound still rest)
    · rw [passes.takenBack page isOut still]
      exact List.mem_cons_self

/-- Between two requests that get the same page, the page was taken back. -/
theorem freed_between (sound : pages.Sound)
    (history : (pages.serve calls).1 = earlier ++ (.allocate request, .ok (some page)) ::
      (between ++ (.allocate request', .ok (some page)) :: later)) :
    (.free page, .ok none) ∈ between := by
  induction earlier generalizing pages calls with
  | nil =>
    obtain ⟨after, calls, passes, rest⟩ := sound.passes_of_cons history
    exact passes.sound.freed_before (passes.handedOut page rfl).2 rest
  | cons event earlier inductionHypothesis =>
    obtain ⟨after, calls, passes, rest⟩ := sound.passes_of_cons history
    exact inductionHypothesis passes.sound rest

end Sound

/-- A new allocator of the pages from `start` up to `stop`, under any run of requests and returns of
whatever pages, also of calls that fail.  The pages on its stack were handed out before, and each
waits there once; so the differences of its counts do not go below zero, and the counts are those of
the pages that are out and of the others.

From there on a request gets no page, and fails if it requires one, just if all pages are out; the
allocator is left as it was then.  Otherwise it gets a page that was not out, which is added to
those that are.  A page that is out can be given back, and it alone is removed; giving back any
other page fails and changes nothing.  So no page is handed out again before it was taken back. -/
theorem handed_out_once {start stop : PhysPage} {allocator : PageAllocator}
    (made : ofRange start stop = .ok allocator) (calls : List PageCall) :
    let history := (allocator.serve calls).1
    let reached := (allocator.serve calls).2
    let range := Finset.Ico start.toNat stop.toNat
    (start.toNat ≤ reached.fresh.toNat ∧ reached.fresh.toNat ≤ stop.toNat ∧
        reached.recycled.Nodup ∧
        ∀ page ∈ reached.recycled,
          start.toNat ≤ page.toNat ∧ page.toNat < reached.fresh.toNat) ∧
      (reached.recycled.length ≤ reached.fresh.toNat - start.toNat ∧
        reached.allocated = reached.out.card ∧
        reached.available = (stop.toNat - start.toNat) - reached.out.card ∧
        reached.out.card ≤ stop.toNat - start.toNat) ∧
      (∀ request, Step.Ends (allocate request) reached
        (fun found after => match found with
          | some page => page.toNat ∈ range ∧ page.toNat ∉ reached.out ∧
              after.out = insert page.toNat reached.out
          | none => reached.out = range ∧ request.required = false ∧ after = reached)
        fun fault after => reached.out = range ∧ request.required = true ∧
          fault = .outOfPages ∧ after = reached) ∧
      (∀ page, Step.Ends (free page) reached
        (fun _ after => page.toNat ∈ reached.out ∧ after.out = reached.out.erase page.toNat)
        fun fault after => page.toNat ∉ reached.out ∧ fault = .pageNotAllocated page ∧
          after = reached) ∧
      ∀ earlier between later request request' page,
        history = earlier ++ (.allocate request, .ok (some page)) ::
          (between ++ (.allocate request', .ok (some page)) :: later) →
        (.free page, .ok none) ∈ between := by
  intro history reached range
  have new := (sound_ofRange made).1
  obtain ⟨sound, same⟩ := new.serve_keeps calls
  have sameStart : reached.start = start := by
    rw [same.1, (ofRange_eq_ok_iff.mp made).2.2]
  have sameStop : reached.stop = stop := by
    rw [same.2, (ofRange_eq_ok_iff.mp made).2.2]
  have whole : reached.all = range := by rw [all, sameStart, sameStop]
  have total : reached.out.card + reached.available = stop.toNat - start.toNat := by
    rw [sound.card_out, sound.allocated_add_available, sameStart, sameStop]
  have low : start.toNat ≤ reached.fresh.toNat := sameStart ▸ sound.start_le
  have high : reached.fresh.toNat ≤ stop.toNat := sameStop ▸ sound.fresh_le
  refine ⟨⟨low, high, sound.distinct, sameStart ▸ sound.returned⟩,
    ⟨sameStart ▸ sound.length_recycled_le, sound.card_out.symm, ?_, ?_⟩,
    fun request => ?_, fun page => ?_, ?_⟩
  · exact Nat.eq_sub_of_add_eq' total
  · exact Nat.le.intro total
  · refine (whole ▸ sound.allocate_adds request).imp ?_ fun _ _ => id
    intro found after ended
    cases found with
    | none => exact ended
    | some page => exact ⟨ended.1, ended.2.1, ended.2.2.1⟩
  · exact (sound.free_removes page).imp (fun _ _ ended => ⟨ended.1, ended.2.1⟩) fun _ _ => id
  · exact fun earlier between later request request' page => new.freed_between

/-- Two pages, both of which are out when a third one is required.  The first of them is given back,
twice, before it is handed out again. -/
theorem handed_out_once_of_two_pages :
    let allocator : PageAllocator := { start := ⟨5⟩, fresh := ⟨5⟩, stop := ⟨7⟩ }
    let served := allocator.serve [.allocate {}, .allocate {}, .allocate { required := true },
      .free ⟨5⟩, .free ⟨5⟩, .allocate { zeroed := true }]
    let between : List PageEvent := [(.allocate {}, .ok (some ⟨6⟩)),
      (.allocate { required := true }, .error .outOfPages), (.free ⟨5⟩, .ok none),
      (.free ⟨5⟩, .error (.pageNotAllocated ⟨5⟩))]
    ofRange ⟨5⟩ ⟨7⟩ = .ok allocator ∧
      served.1 = [] ++ (.allocate {}, .ok (some ⟨5⟩)) ::
        (between ++ (.allocate { zeroed := true }, .ok (some ⟨5⟩)) :: []) ∧
      served.2.allocated = served.2.out.card ∧ (.free ⟨5⟩, .ok none) ∈ between := by
  intro allocator served between
  have made : ofRange ⟨5⟩ ⟨7⟩ = .ok allocator :=
    ofRange_eq_ok_iff.mpr ⟨by decide, by decide, rfl⟩
  have history : served.1 = [] ++ (.allocate {}, .ok (some ⟨5⟩)) ::
      (between ++ (.allocate { zeroed := true }, .ok (some ⟨5⟩)) :: []) := by decide +kernel
  obtain ⟨-, ⟨-, counted, -⟩, -, -, again⟩ := handed_out_once made [.allocate {}, .allocate {},
    .allocate { required := true }, .free ⟨5⟩, .free ⟨5⟩, .allocate { zeroed := true }]
  exact ⟨made, history, counted, again [] between [] {} { zeroed := true } ⟨5⟩ history⟩

end PageAllocator

end Residency
