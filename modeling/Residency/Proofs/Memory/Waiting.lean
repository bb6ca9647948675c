import Mathlib.Data.List.Perm.Subperm
import Residency.Proofs.Memory.PageAllocator
import Residency.Proofs.Step.Agreement

/-!
# The pages that wait

`PageAllocator.waiting` lists the pages that are not out, in the order in which they will be handed
out: those that came back, the latest first, and then those that were never out.  Nobody can tell
more of an allocator than its range and this list, apart from the bytes of its pages.  Allocators
that have these in common are `Alike`: handing out and taking back keep them so and give the same
results.

A page that is handed out and given back at once may have passed from the second part of the list
to the first one, which the list does not show.
-/

namespace Residency.PageAllocator

variable {pages after a b : PageAllocator} {page : PhysPage}

/-- The pages that were never handed out. -/
def unused (pages : PageAllocator) : List PhysPage :=
  (List.range' pages.fresh.toNat (pages.stop.toNat - pages.fresh.toNat)).map fun number =>
    ⟨.ofNat number⟩

/-- The pages that are not out, the next one first. -/
def waiting (pages : PageAllocator) : List PhysPage :=
  pages.recycled ++ pages.unused

theorem waiting_withPage (data : Page) : (pages.withPage page data).waiting = pages.waiting := rfl

theorem mem_unused : page ∈ pages.unused ↔
    pages.fresh.toNat ≤ page.toNat ∧ page.toNat < pages.stop.toNat := by
  have limit : pages.stop.toNat < 2 ^ 64 := pages.stop.raw.toNat_lt
  simp only [unused, List.mem_map, List.mem_range'_1]
  constructor
  · rintro ⟨number, between, rfl⟩
    have small : (PhysPage.mk (.ofNat number)).toNat = number :=
      UInt64.toNat_ofNat_of_lt' (by simp only [UInt64.size]; omega)
    omega
  · intro between
    refine ⟨page.toNat, by omega, ?_⟩
    apply PhysPage.toNat_inj.mp
    exact UInt64.toNat_ofNat_of_lt' page.raw.toNat_lt

theorem unused_eq_cons (below : pages.fresh.toNat < pages.stop.toNat) :
    pages.unused = pages.fresh :: unused { pages with fresh := pages.fresh.next } := by
  have left : pages.stop.toNat - pages.fresh.toNat =
      pages.stop.toNat - (pages.fresh.toNat + 1) + 1 := by omega
  have first : (⟨.ofNat pages.fresh.toNat⟩ : PhysPage) = pages.fresh := by
    apply PhysPage.toNat_inj.mp
    exact UInt64.toNat_ofNat_of_lt' pages.fresh.raw.toNat_lt
  simp only [unused, PhysPage.toNat_next below]
  rw [left, List.range'_succ, List.map_cons, first]

theorem waiting_of_take? (taken : pages.take? = some (page, after)) :
    pages.waiting = page :: after.waiting := by
  cases recycled : pages.recycled with
  | cons first rest =>
    simp only [take?, recycled, Option.some.injEq, Prod.mk.injEq] at taken
    obtain ⟨rfl, rfl⟩ := taken
    simp only [waiting, recycled, List.cons_append]
    rfl
  | nil =>
    simp only [take?, recycled] at taken
    split at taken
    next below =>
      simp only [Option.some.injEq, Prod.mk.injEq] at taken
      obtain ⟨rfl, rfl⟩ := taken
      simp only [waiting, recycled, List.nil_append, unused_eq_cons below]
    next => cases taken

theorem waiting_of_take?_none (taken : pages.take? = none) : pages.waiting = [] := by
  cases recycled : pages.recycled with
  | cons first rest => simp [take?, recycled] at taken
  | nil =>
    simp only [take?, recycled] at taken
    split at taken
    next => cases taken
    next beyond =>
      have none_left : pages.stop.toNat - pages.fresh.toNat = 0 := by omega
      simp [waiting, unused, recycled, none_left]

namespace Sound

/-- A page of the range is out if it does not wait. -/
theorem isOut_iff_not_waiting (sound : pages.Sound) :
    pages.isOut page = true ↔ pages.inRange page = true ∧ page ∉ pages.waiting := by
  have bound := sound.fresh_le
  rw [isOut_iff, inRange_iff, waiting, List.mem_append, mem_unused]
  constructor
  · rintro ⟨low, high, absent⟩
    exact ⟨⟨low, by omega⟩, by rintro (waits | between); exacts [absent waits, by omega]⟩
  · rintro ⟨⟨low, high⟩, absent⟩
    refine ⟨low, ?_, fun waits => absent (Or.inl waits)⟩
    by_contra beyond
    exact absent (Or.inr ⟨by omega, high⟩)

theorem available_eq_length : pages.available = pages.waiting.length := by
  simp only [available, waiting, unused, List.length_append, List.length_map, List.length_range']
  omega

/-- The recycled pages are among those that were handed out. -/
theorem length_recycled_le (sound : pages.Sound) :
    pages.recycled.length ≤ pages.fresh.toNat - pages.start.toNat := by
  have injective : Function.Injective PhysPage.toNat := fun _ _ => PhysPage.toNat_inj.mp
  have among : pages.recycled.map PhysPage.toNat ⊆
      List.range' pages.start.toNat (pages.fresh.toNat - pages.start.toNat) := by
    intro number member
    obtain ⟨page, waits, rfl⟩ := List.mem_map.mp member
    have between := sound.returned page waits
    rw [List.mem_range'_1]
    omega
  have shorter := (List.Nodup.subperm (sound.distinct.map injective) among).length_le
  rwa [List.length_map, List.length_range'] at shorter

theorem allocated_add_available (sound : pages.Sound) :
    pages.allocated + pages.available = pages.stop.toNat - pages.start.toNat := by
  have shorter := sound.length_recycled_le
  have := sound.start_le
  have := sound.fresh_le
  simp only [allocated, available]
  omega

end Sound

/-! ## Allocators that are alike -/

/-- Allocators of one range in which the same pages wait in the same order. -/
structure Alike (a b : PageAllocator) : Prop where
  sound : a.Sound
  soundThere : b.Sound
  sameRange : a.SameRange b
  waiting : a.waiting = b.waiting

theorem Sound.alike (sound : pages.Sound) : pages.Alike pages :=
  ⟨sound, sound, ⟨rfl, rfl⟩, rfl⟩

namespace Alike

theorem available (alike : a.Alike b) : a.available = b.available := by
  rw [Sound.available_eq_length, Sound.available_eq_length, alike.waiting]

theorem allocated (alike : a.Alike b) : a.allocated = b.allocated := by
  have here := alike.sound.allocated_add_available
  have there := alike.soundThere.allocated_add_available
  rw [alike.sameRange.1, alike.sameRange.2, ← alike.available] at there
  omega

theorem inRange (alike : a.Alike b) (page : PhysPage) : a.inRange page = b.inRange page :=
  (alike.sameRange.inRange_eq page).symm

theorem isOut (alike : a.Alike b) (page : PhysPage) : a.isOut page = b.isOut page := by
  rw [Bool.eq_iff_iff, alike.sound.isOut_iff_not_waiting, alike.soundThere.isOut_iff_not_waiting,
    alike.inRange, alike.waiting]

/-- The bytes of the pages do not matter. -/
theorem withPage (alike : a.Alike b) (page : PhysPage) (data data' : Page) :
    (a.withPage page data).Alike (b.withPage page data') where
  sound := alike.sound.withPage page data
  soundThere := alike.soundThere.withPage page data'
  sameRange := alike.sameRange
  waiting := alike.waiting

theorem take? (alike : a.Alike b) :
    (∃ page a' b', a.take? = some (page, a') ∧ b.take? = some (page, b') ∧ a'.Alike b') ∨
      a.take? = none ∧ b.take? = none := by
  have waiting := alike.waiting
  rcases alike.sound.take?_cases with ⟨page, a', taken, -, hands⟩ | ⟨taken, -⟩
  · rw [waiting_of_take? taken] at waiting
    rcases alike.soundThere.take?_cases with ⟨page', b', taken', -, hands'⟩ | ⟨taken', -⟩
    · rw [waiting_of_take? taken', List.cons.injEq] at waiting
      obtain ⟨rfl, rest⟩ := waiting
      refine Or.inl ⟨page, a', b', taken, taken', hands.sound, hands'.sound, ?_, rest⟩
      rw [SameRange, hands.sameRange.1, hands.sameRange.2, hands'.sameRange.1, hands'.sameRange.2]
      exact alike.sameRange
    · rw [waiting_of_take?_none taken'] at waiting
      cases waiting
  · rw [waiting_of_take?_none taken] at waiting
    rcases alike.soundThere.take?_cases with ⟨page', b', taken', -, -⟩ | ⟨taken', -⟩
    · rw [waiting_of_take? taken'] at waiting
      cases waiting
    · exact Or.inr ⟨taken, taken'⟩

theorem modifyPage (alike : a.Alike b) (page : PhysPage) (f : Page → Page) :
    Step.Agree Alike (modifyPage page f) (modifyPage page f) a b := by
  apply (alike.sound.modifyPage_ends page f).imp
  · rintro _ _ ⟨inside, rfl⟩
    rw [alike.inRange] at inside
    apply Step.Yields.imp (alike.soundThere.modifyPage_yields inside f)
    rintro _ _ rfl
    exact ⟨rfl, alike.withPage page _ _⟩
  · rintro _ _ ⟨outside, rfl, rfl⟩
    rw [alike.inRange] at outside
    apply (alike.soundThere.modifyPage_ends page f).imp
    · rintro _ _ ⟨inside, -⟩
      exact Bool.false_ne_true (outside.symm.trans inside)
    · rintro _ _ ⟨-, rfl, rfl⟩
      exact ⟨rfl, alike⟩

theorem allocate (alike : a.Alike b) (request : PageRequest) :
    Step.Agree Alike (allocate request) (allocate request) a b := by
  apply Step.Agree.get
  rcases alike.take? with ⟨page, a', b', taken, taken', alike'⟩ | ⟨taken, taken'⟩
  · rw [taken, taken']
    refine (Step.Agree.set alike').bind fun _ a' b' alike' => ?_
    cases request.zeroed with
    | true => exact (alike'.modifyPage page _).bind fun _ _ _ => Step.Agree.pure (some page)
    | false => exact Step.Agree.pure (some page) alike'
  · rw [taken, taken']
    exact (Step.Agree.ensure _ _ alike).bind fun _ _ _ => Step.Agree.pure none

/-- A page that is given back is the next one to be handed out, in both. -/
theorem recycle (alike : a.Alike b) (out : a.isOut page = true) :
    Alike { a with recycled := page :: a.recycled } { b with recycled := page :: b.recycled } where
  sound := alike.sound.recycle out
  soundThere := alike.soundThere.recycle (alike.isOut page ▸ out)
  sameRange := alike.sameRange
  waiting := congrArg (page :: ·) alike.waiting

theorem free (alike : a.Alike b) (page : PhysPage) :
    Step.Agree Alike (free page) (free page) a b := by
  simp only [Step.Agree, PageAllocator.free, Step.ends_bind, Step.ends_get, Step.ends_ensure,
    Step.ends_modify, ← alike.isOut]
  by_cases out : a.isOut page = true
  · rw [if_pos out, if_pos out]
    exact ⟨trivial, alike.recycle out⟩
  · rw [if_neg out, if_neg out]
    exact ⟨trivial, alike⟩

end Alike

/-- A page that is taken and given back is the next one again, also if it was filled with zeros. -/
theorem Sound.free_taken (sound : pages.Sound) (taken : pages.take? = some (page, after))
    (zeroed : Bool) :
    Step.Yields (PageAllocator.free page) (if zeroed then after.withPage page .zero else after)
      fun _ freed => freed.Alike pages := by
  rcases sound.take?_cases with ⟨_, _, found, -, hands⟩ | ⟨missing, -⟩
  · cases taken.symm.trans found
    have back {given : PageAllocator} (hands : pages.HandsOut page given)
        (waiting : given.waiting = after.waiting) :
        Step.Yields (PageAllocator.free page) given fun _ freed => freed.Alike pages := by
      have out := (hands.isOut page).mpr (Or.inl rfl)
      simp only [PageAllocator.free, Step.ends_bind, Step.ends_get, Step.ends_ensure, out, if_true,
        Step.ends_modify]
      refine ⟨hands.sound.recycle out, sound, ⟨hands.sameRange.1.symm, hands.sameRange.2.symm⟩, ?_⟩
      rw [waiting_of_take? taken, ← waiting]
      rfl
    split
    · exact back (hands.withPage page .zero) (waiting_withPage ..)
    · exact back hands rfl
  · cases taken.symm.trans missing

end Residency.PageAllocator
