import Mathlib.Data.List.Nodup
import Residency.Memory.PageAllocator
import Residency.Proofs.Step

/-!
# The pages that are out

What the operations of a `PageAllocator` do to the set of pages for which `PageAllocator.isOut`
holds.

* `Sound` is the invariant: the pages that wait on the stack were handed out before, and each waits
  there once; and memory has room for every page of the range;
* `Sound.contents_ends` and `Sound.modifyPage_ends`: a page of the range has its bytes in memory,
  from `PageAllocator.firstOf` on;
* `Sound.allocate_ends`: a page that is handed out was not out before, and there is none only when
  all pages are out;
* `Sound.free_yields`: a page that is out can be given back;
* `Sound.length_eq_allocated`: `PageAllocator.allocated` counts the pages that are out.
-/

namespace Residency

theorem PhysPage.toNat_next {page bound : PhysPage} (below : page.toNat < bound.toNat) :
    page.next.toNat = page.toNat + 1 := by
  have limit : bound.toNat < 2 ^ 64 := bound.raw.toNat_lt
  show (page.raw + 1).toNat = page.raw.toNat + 1
  simp only [toNat] at below limit
  rw [UInt64.toNat_add]
  exact Nat.mod_eq_of_lt (by simp; omega)

namespace PageAllocator

variable {pages : PageAllocator} {page : PhysPage}

theorem isOut_iff : pages.isOut page = true ↔
    pages.start.toNat ≤ page.toNat ∧ page.toNat < pages.fresh.toNat ∧ page ∉ pages.recycled := by
  simp [isOut, and_assoc]

theorem inRange_iff : pages.inRange page = true ↔
    pages.start.toNat ≤ page.toNat ∧ page.toNat < pages.stop.toNat := by
  simp [inRange]

/-- The pages that were handed out so far are those before `fresh`, and the recycled ones are some
of them.  Memory is made of the pages of the range. -/
structure Sound (pages : PageAllocator) : Prop where
  start_le : pages.start.toNat ≤ pages.fresh.toNat
  fresh_le : pages.fresh.toNat ≤ pages.stop.toNat
  distinct : pages.recycled.Nodup
  returned : ∀ page ∈ pages.recycled,
    pages.start.toNat ≤ page.toNat ∧ page.toNat < pages.fresh.toNat
  sized : pages.memory.size = (pages.stop.toNat - pages.start.toNat) * pageSize
  held : pages.memory.size < memoryLimit

/-- The allocators of one range. -/
def SameRange (pages after : PageAllocator) : Prop :=
  after.start = pages.start ∧ after.stop = pages.stop

theorem SameRange.inRange_eq {after : PageAllocator} (same : pages.SameRange after)
    (page : PhysPage) : after.inRange page = pages.inRange page := by
  rw [inRange, inRange, same.1, same.2]

theorem ofRange_eq_ok_iff {start stop : PhysPage} : ofRange start stop = .ok pages ↔
    start.toNat ≤ stop.toNat ∧ (stop.toNat - start.toNat) * pageSize < memoryLimit ∧
      pages = { start, fresh := start, stop } := by
  have limits : memoryLimit < wordLimit := by decide
  simp only [ofRange]
  by_cases ordered : stop.toNat < start.toNat
  · rw [if_pos ordered]
    simp only [reduceCtorEq, false_iff]
    omega
  · rw [if_neg ordered]
    by_cases counted : wordLimit ≤ (stop.toNat - start.toNat) * pageSize
    · rw [if_pos counted]
      simp only [reduceCtorEq, false_iff]
      omega
    · rw [if_neg counted]
      by_cases held : memoryLimit ≤ (stop.toNat - start.toNat) * pageSize
      · rw [if_pos held]
        simp only [reduceCtorEq, false_iff]
        omega
      · rw [if_neg held, Except.ok.injEq, eq_comm]
        exact (and_iff_right (Nat.not_lt.mp ordered)).trans
          (and_iff_right (Nat.not_le.mp held)) |>.symm

theorem sound_ofRange {start stop : PhysPage} (made : ofRange start stop = .ok pages) :
    pages.Sound ∧ ∀ page, pages.isOut page = false := by
  obtain ⟨ordered, held, rfl⟩ := ofRange_eq_ok_iff.mp made
  refine ⟨⟨Nat.le_refl _, ordered, List.nodup_nil, by simp, rfl, held⟩, fun page => ?_⟩
  rw [← Bool.not_eq_true, isOut_iff]
  exact fun out => Nat.not_lt.mpr out.1 out.2.1

namespace Sound

theorem inRange (sound : pages.Sound) (out : pages.isOut page = true) :
    pages.inRange page = true := by
  obtain ⟨low, high, -⟩ := isOut_iff.mp out
  have := sound.fresh_le
  exact inRange_iff.mpr ⟨low, by omega⟩

end Sound

/-! ## Pages in memory -/

/-- Where the bytes of a page begin. -/
def firstOf (pages : PageAllocator) (page : PhysPage) : Nat :=
  (page.toNat - pages.start.toNat) * pageSize

def pageAt (pages : PageAllocator) (page : PhysPage) : Page :=
  .ofBytes (pages.memory.slice (pages.firstOf page) (pages.firstOf page + pageSize))

/-- The allocator in which the bytes of a page are replaced. -/
def withPage (pages : PageAllocator) (page : PhysPage) (data : Page) : PageAllocator :=
  { pages with memory := pages.memory.splice (pages.firstOf page) data.bytes }

namespace Sound

theorem withPage (sound : pages.Sound) (page : PhysPage) (data : Page) :
    (pages.withPage page data).Sound where
  start_le := sound.start_le
  fresh_le := sound.fresh_le
  distinct := sound.distinct
  returned := sound.returned
  sized := (SparseBytes.size_splice ..).trans sound.sized
  held := by
    rw [PageAllocator.withPage, SparseBytes.size_splice]
    exact sound.held

/-- The last page of the range ends where memory does. -/
theorem firstOf_add_le (sound : pages.Sound) (inside : pages.inRange page = true) :
    pages.firstOf page + pageSize ≤ pages.memory.size := by
  obtain ⟨low, high⟩ := inRange_iff.mp inside
  rw [sound.sized, firstOf, ← Nat.succ_mul]
  exact Nat.mul_le_mul_right _ (by omega)

/-- Nothing overflows on the way to a page of the range, because memory can be counted. -/
theorem pageRange_ends (sound : pages.Sound) (page : PhysPage) :
    Step.Ends (pageRange page) pages
      (fun range after => pages.inRange page = true ∧
        range = (pages.firstOf page, pages.firstOf page + pageSize) ∧ after = pages)
      fun fault after => pages.inRange page = false ∧ fault = .pageOutOfRange page ∧
        after = pages := by
  simp only [pageRange, Step.ends_bind, Step.ends_get, Step.ends_ensure]
  cases inside : pages.inRange page with
  | false => simp
  | true =>
    have ends := sound.firstOf_add_le inside
    have held := sound.held
    have limits : memoryLimit < wordLimit := by decide
    rw [firstOf] at ends ⊢
    rw [if_pos rfl, Step.ends_mulSizes, if_pos (by omega), Step.ends_addSizes, if_pos (by omega),
      Step.ends_pure]
    exact ⟨rfl, rfl, rfl⟩

theorem contents_ends (sound : pages.Sound) (page : PhysPage) :
    Step.Ends (contents page) pages
      (fun data after => pages.inRange page = true ∧ data = pages.pageAt page ∧ after = pages)
      fun fault after => pages.inRange page = false ∧ fault = .pageOutOfRange page ∧
        after = pages := by
  apply (sound.pageRange_ends page).bind
  rintro _ _ ⟨inside, rfl, rfl⟩
  have ends := sound.firstOf_add_le inside
  simp only [Step.ends_bind, Step.ends_get, Step.ends_ensure, decide_eq_true ends, if_true,
    Step.ends_pure]
  exact ⟨inside, rfl, trivial⟩

theorem modifyPage_ends (sound : pages.Sound) (page : PhysPage) (f : Page → Page) :
    Step.Ends (modifyPage page f) pages
      (fun _ after => pages.inRange page = true ∧
        after = pages.withPage page (f (pages.pageAt page)))
      fun fault after => pages.inRange page = false ∧ fault = .pageOutOfRange page ∧
        after = pages := by
  apply (sound.contents_ends page).bind
  rintro _ _ ⟨inside, rfl, rfl⟩
  apply (sound.pageRange_ends page).bind
  rintro _ _ ⟨-, rfl, rfl⟩
  exact (Step.ends_modify _).mpr ⟨inside, rfl⟩

theorem modifyPage_yields (sound : pages.Sound) (inside : pages.inRange page = true)
    (f : Page → Page) :
    Step.Yields (modifyPage page f) pages fun _ after =>
      after = pages.withPage page (f (pages.pageAt page)) := by
  refine (sound.modifyPage_ends page f).imp (fun _ _ ended => ended.2) ?_
  rintro _ _ ⟨outside, -⟩
  exact Bool.false_ne_true (outside.symm.trans inside)

/-! ## Counting -/

theorem available_eq_zero_iff (sound : pages.Sound) :
    pages.available = 0 ↔ ∀ page, pages.inRange page = true → pages.isOut page = true := by
  have bound := sound.fresh_le
  constructor
  · intro none_left page inside
    obtain ⟨low, high⟩ := inRange_iff.mp inside
    simp only [available, Nat.add_eq_zero_iff, List.length_eq_zero_iff] at none_left
    refine isOut_iff.mpr ⟨low, by omega, ?_⟩
    rw [none_left.2]
    exact List.not_mem_nil
  · intro all_out
    have none_recycled : pages.recycled = [] := by
      apply List.eq_nil_iff_forall_not_mem.mpr
      intro page waits
      obtain ⟨low, high⟩ := sound.returned page waits
      exact (isOut_iff.mp (all_out page (inRange_iff.mpr ⟨low, by omega⟩))).2.2 waits
    have none_fresh : ¬ pages.fresh.toNat < pages.stop.toNat := by
      intro below
      have out := all_out pages.fresh (inRange_iff.mpr ⟨sound.start_le, below⟩)
      exact Nat.lt_irrefl _ (isOut_iff.mp out).2.1
    simp only [available, none_recycled, List.length_nil]
    omega

/-- However the pages that are out are listed, `allocated` is their number. -/
theorem length_eq_allocated (sound : pages.Sound) {out : List PhysPage} (distinct : out.Nodup)
    (listed : ∀ page, page ∈ out ↔ pages.isOut page = true) : out.length = pages.allocated := by
  have injective : Function.Injective PhysPage.toNat := fun _ _ => PhysPage.toNat_inj.mp
  -- the pages before `fresh` are those that are out and those that wait on the stack
  have apart : List.Disjoint out pages.recycled := fun page inOut =>
    (isOut_iff.mp ((listed page).mp inOut)).2.2
  have together : ((out ++ pages.recycled).map PhysPage.toNat).Perm
      (List.range' pages.start.toNat (pages.fresh.toNat - pages.start.toNat)) := by
    rw [List.perm_ext_iff_of_nodup
      ((List.nodup_append'.mpr ⟨distinct, sound.distinct, apart⟩).map injective) List.nodup_range']
    intro number
    simp only [List.mem_map, List.mem_append, List.mem_range'_1]
    have ordered := sound.start_le
    constructor
    · rintro ⟨page, inOut | waits, rfl⟩
      · have := isOut_iff.mp ((listed page).mp inOut)
        omega
      · have := sound.returned page waits
        omega
    · intro between
      have limit : pages.fresh.toNat < 2 ^ 64 := pages.fresh.raw.toNat_lt
      have number_eq : (PhysPage.mk (.ofNat number)).toNat = number :=
        UInt64.toNat_ofNat_of_lt' (by simp only [UInt64.size]; omega)
      refine ⟨⟨.ofNat number⟩, ?_, number_eq⟩
      by_cases waits : ⟨.ofNat number⟩ ∈ pages.recycled
      · exact Or.inr waits
      · exact Or.inl ((listed _).mpr (isOut_iff.mpr ⟨by omega, by omega, waits⟩))
  have lengths := together.length_eq
  simp only [List.length_map, List.length_append, List.length_range'] at lengths
  rw [allocated]
  omega

/-! ## Handing out and taking back -/

end Sound

/-- `page` is handed out, and `after` is the allocator that is left. -/
structure HandsOut (pages : PageAllocator) (page : PhysPage) (after : PageAllocator) : Prop where
  sound : after.Sound
  sameRange : pages.SameRange after
  inRange : pages.inRange page = true
  wasFree : pages.isOut page = false
  isOut : ∀ other, after.isOut other = true ↔ other = page ∨ pages.isOut other = true

theorem HandsOut.withPage {after : PageAllocator} (hands : pages.HandsOut page after)
    (other : PhysPage) (data : Page) : pages.HandsOut page (after.withPage other data) :=
  ⟨hands.sound.withPage other data, hands.sameRange, hands.inRange, hands.wasFree, hands.isOut⟩

namespace Sound

/-- The page that was given back last is handed out. -/
theorem handsOut_recycled (sound : pages.Sound) {page : PhysPage} {recycled : List PhysPage}
    (waiting : pages.recycled = page :: recycled) :
    pages.HandsOut page { pages with recycled } := by
  have distinct := sound.distinct
  have returned := sound.returned
  rw [waiting, List.nodup_cons] at distinct
  rw [waiting, List.forall_mem_cons] at returned
  obtain ⟨⟨low, high⟩, others⟩ := returned
  exact {
    sound := ⟨sound.start_le, sound.fresh_le, distinct.2, others, sound.sized, sound.held⟩
    sameRange := ⟨rfl, rfl⟩
    inRange := inRange_iff.mpr ⟨low, Nat.lt_of_lt_of_le high sound.fresh_le⟩
    wasFree := by simp [PageAllocator.isOut, waiting]
    isOut := by
      intro other
      simp only [isOut_iff, waiting, List.mem_cons]
      by_cases same : other = page
      · subst same
        simpa [distinct.1] using ⟨low, high⟩
      · simp [same] }

/-- The first page that was never out is handed out. -/
theorem handsOut_fresh (sound : pages.Sound) (waiting : pages.recycled = [])
    (below : pages.fresh.toNat < pages.stop.toNat) :
    pages.HandsOut pages.fresh { pages with fresh := pages.fresh.next } := by
  have next := PhysPage.toNat_next below
  have ordered := sound.start_le
  exact {
    sound := by
      refine ⟨?_, ?_, sound.distinct, by simp [waiting], sound.sized, sound.held⟩
      · simp only [next]
        omega
      · simp only [next]
        omega
    sameRange := ⟨rfl, rfl⟩
    inRange := inRange_iff.mpr ⟨ordered, below⟩
    wasFree := by simp [PageAllocator.isOut]
    isOut := by
      intro other
      simp only [isOut_iff, waiting, List.not_mem_nil, not_false_eq_true, and_true, next,
        ← PhysPage.toNat_inj]
      omega }

theorem take?_cases (sound : pages.Sound) :
    (∃ page after, pages.take? = some (page, after) ∧ 0 < pages.available ∧
        pages.HandsOut page after) ∨
      pages.take? = none ∧ pages.available = 0 := by
  have bound := sound.fresh_le
  cases waiting : pages.recycled with
  | cons page recycled =>
    refine Or.inl ⟨page, { pages with recycled }, by rw [take?, waiting], ?_,
      sound.handsOut_recycled waiting⟩
    simp only [available, waiting, List.length_cons]
    omega
  | nil =>
    by_cases below : pages.fresh.toNat < pages.stop.toNat
    · refine Or.inl ⟨pages.fresh, { pages with fresh := pages.fresh.next },
        by rw [take?, waiting]; exact if_pos below, ?_, sound.handsOut_fresh waiting below⟩
      simp only [available]
      omega
    · refine Or.inr ⟨by rw [take?, waiting]; exact if_neg below, ?_⟩
      simp only [available, waiting, List.length_nil]
      omega

/-- A request takes the next page, which it fills with zeros if it is asked to; without one it is a
fault only if it has to have one. -/
theorem allocate_takes (sound : pages.Sound) (request : PageRequest) :
    Step.Ends (allocate request) pages
      (fun found after => match found with
        | some page => ∃ taken, pages.take? = some (page, taken) ∧
            after = if request.zeroed then taken.withPage page .zero else taken
        | none => pages.take? = none ∧ request.required = false ∧ after = pages)
      fun fault after => pages.take? = none ∧ request.required = true ∧ fault = .outOfPages ∧
        after = pages := by
  simp only [allocate, Step.ends_bind, Step.ends_get]
  rcases sound.take?_cases with ⟨page, after, taken, -, hands⟩ | ⟨taken, -⟩
  · have inside := (hands.sameRange.inRange_eq page).trans hands.inRange
    rw [taken]
    by_cases zeroed : request.zeroed = true
    · simp only [Step.ends_bind, Step.ends_set, zeroed, if_true, Step.ends_pure]
      apply Step.Yields.imp (hands.sound.modifyPage_yields inside fun _ => .filled 0)
      rintro _ _ rfl
      exact ⟨after, rfl, rfl⟩
    · simp only [Step.ends_bind, Step.ends_set, if_neg zeroed, Step.ends_pure]
      exact ⟨after, rfl, rfl⟩
  · rw [taken]
    simp only [Step.ends_bind, Step.ends_ensure, Step.ends_pure]
    cases request.required with
    | false => simp
    | true => simp

/-- A page is handed out as long as there is one. -/
theorem allocate_ends (sound : pages.Sound) (request : PageRequest) :
    Step.Ends (allocate request) pages
      (fun found after => match found with
        | some page => 0 < pages.available ∧ pages.HandsOut page after
        | none => pages.available = 0 ∧ request.required = false ∧ after = pages)
      fun fault after => pages.available = 0 ∧ request.required = true ∧
        fault = .outOfPages ∧ after = pages := by
  have ends := sound.allocate_takes request
  rcases sound.take?_cases with ⟨page, next, taken, room, hands⟩ | ⟨taken, empty⟩
  · apply ends.imp
    · rintro (_ | _) after ended
      · cases taken.symm.trans ended.1
      · obtain ⟨_, found, rfl⟩ := ended
        cases taken.symm.trans found
        refine ⟨room, ?_⟩
        split
        · exact hands.withPage page .zero
        · exact hands
    · rintro _ _ ⟨missing, -⟩
      cases taken.symm.trans missing
  · apply ends.imp
    · rintro (_ | _) after ended
      · exact ⟨empty, ended.2⟩
      · obtain ⟨_, found, -⟩ := ended
        cases taken.symm.trans found
    · rintro _ _ ⟨-, stopped⟩
      exact ⟨empty, stopped⟩

end Sound

theorem free_pushes (out : pages.isOut page = true) :
    Step.Yields (free page) pages fun _ after =>
      after = { pages with recycled := page :: pages.recycled } := by
  simp only [free, Step.ends_bind, Step.ends_get, Step.ends_ensure, out, if_true, Step.ends_modify]

theorem isOut_recycle (other : PhysPage) :
    isOut { pages with recycled := page :: pages.recycled } other = true ↔
      other ≠ page ∧ pages.isOut other = true := by
  simp only [isOut_iff, List.mem_cons, not_or]
  tauto

namespace Sound

/-- A page that is out may wait on the stack. -/
theorem recycle (sound : pages.Sound) (out : pages.isOut page = true) :
    Sound { pages with recycled := page :: pages.recycled } := by
  obtain ⟨low, high, absent⟩ := isOut_iff.mp out
  refine ⟨sound.start_le, sound.fresh_le, List.nodup_cons.mpr ⟨absent, sound.distinct⟩, ?_,
    sound.sized, sound.held⟩
  intro other waits
  rcases List.mem_cons.mp waits with rfl | before
  · exact ⟨low, high⟩
  · exact sound.returned other before

theorem free_yields (sound : pages.Sound) (out : pages.isOut page = true) :
    Step.Yields (free page) pages fun _ after => after.Sound ∧ pages.SameRange after ∧
      ∀ other, after.isOut other = true ↔ other ≠ page ∧ pages.isOut other = true := by
  apply Step.Yields.imp (free_pushes out)
  rintro _ _ rfl
  exact ⟨sound.recycle out, ⟨rfl, rfl⟩, isOut_recycle⟩

end Sound

end PageAllocator

end Residency
