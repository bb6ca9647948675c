import Residency.Proofs.Memory.Safety

/-!
# Frames as the inverse of page tables

A caller who clears each entry right after releasing it, and changes the page tables in no other
way, keeps the frame table and the page tables inverse to each other: `frames_inverse_of_tables`.

`MappedMemory.Inverse` is the invariant.  Whatever a call does is a change of what some entries map
together with the same change of what the frames list, which is all that `Inverse.relink` asks.
-/

namespace Residency

variable {ι : Type}

namespace MappedMemory

variable {memory : MappedMemory ι}

/-- The frame of a page lists the addresses of the entries that map the page, and nothing else. -/
structure Inverse (memory : MappedMemory ι) : Prop where
  sound : memory.frames.Sound
  /-- The number of every page fits an entry. -/
  numbered : memory.frames.allocator.stop.toNat ≤ 2 ^ 54
  /-- The address of every root fits a word. -/
  addressed : ∀ table, (memory.tables table).root.toNat < 2 ^ 52
  roots : Function.Injective fun table => (memory.tables table).root
  mapped : ∀ table place target, (memory.tables table).target? place = some target ↔
    (memory.tables table).addrOf place ∈ memory.frames.references target
  known : ∀ target, ∀ entry ∈ memory.frames.references target,
    ∃ table place, entry = (memory.tables table).addrOf place

namespace Inverse

theorem addrOf_eq_iff (inverse : memory.Inverse) {t u : ι} {i j : Fin tableCapacity} :
    (memory.tables t).addrOf i = (memory.tables u).addrOf j ↔ t = u ∧ i = j := by
  constructor
  · intro same
    obtain ⟨root, place⟩ :=
      PageTable.addrOf_inj (inverse.addressed t) (inverse.addressed u) same
    exact ⟨inverse.roots root, place⟩
  · rintro ⟨rfl, rfl⟩
    rfl

theorem fits (inverse : memory.Inverse) {target : PhysPage}
    (inRange : memory.frames.allocator.inRange target = true) : target.toNat < 2 ^ 54 := by
  have below := (PageAllocator.inRange_iff.mp inRange).2
  have numbered := inverse.numbered
  omega

/-- An entry that maps nothing is listed nowhere. -/
theorem not_listed (inverse : memory.Inverse) {table : ι} {place : Fin tableCapacity}
    (free : (memory.tables table).target? place = none) (target : PhysPage) :
    (memory.tables table).addrOf place ∉ memory.frames.references target := by
  rw [← inverse.mapped, free]
  exact nofun

/-- The frames list other entries, and the tables map the pages in whose frames their entries are
listed now. -/
theorem relink (inverse : memory.Inverse) {after : MappedMemory ι}
    {listed : PhysPage → EntryAddr → Prop} (becomes : memory.frames.Becomes after.frames listed)
    (root : ∀ table, (after.tables table).root = (memory.tables table).root)
    (mapped : ∀ table place target, (after.tables table).target? place = some target ↔
      listed target ((memory.tables table).addrOf place))
    (known : ∀ target entry, listed target entry →
      ∃ table place, entry = (memory.tables table).addrOf place) : after.Inverse where
  sound := becomes.sound
  numbered := by
    rw [becomes.sameRange.2]
    exact inverse.numbered
  addressed table := by
    rw [root]
    exact inverse.addressed table
  roots t u same := inverse.roots (by simpa only [root] using same)
  mapped table place target := by
    rw [becomes.listed, mapped, PageTable.addrOf_congr (root table)]
  known target entry inside := by
    obtain ⟨table, place, rfl⟩ := known target entry ((becomes.listed target entry).mp inside)
    exact ⟨table, place, PageTable.addrOf_congr (root table).symm place⟩

/-- Nothing is mapped, and nothing is listed. -/
theorem fresh {start stop : PhysPage} {allocator : PageAllocator}
    (made : PageAllocator.ofRange start stop = .ok allocator) (numbered : stop.toNat ≤ 2 ^ 54)
    {tables : ι → PageTable} (addressed : ∀ table, (tables table).root.toNat < 2 ^ 52)
    (roots : Function.Injective fun table => (tables table).root)
    (clear : ∀ table page, (tables table).mapping page = none) :
    Inverse { frames := { allocator }, tables } where
  sound := (FrameTable.sound_ofRange made).1
  numbered := by
    obtain ⟨-, -, rfl⟩ := PageAllocator.ofRange_eq_ok_iff.mp made
    exact numbered
  addressed := addressed
  roots := roots
  mapped := by
    intro table place target
    obtain ⟨page, found⟩ := PageTable.exists_page place
    rw [← PageTable.mapping_of_place found, clear, (FrameTable.sound_ofRange made).2]
    simp
  known := by
    intro target entry listed
    rw [(FrameTable.sound_ofRange made).2] at listed
    cases listed

theorem mapping_iff (inverse : memory.Inverse) (table : ι) (page : VirtPage) (target : PhysPage) :
    (memory.tables table).mapping page = some target ↔ ∃ inside : page.toNat < tableCapacity,
      (memory.tables table).addrOf ⟨page.toNat, inside⟩ ∈ memory.frames.references target := by
  by_cases inside : page.toNat < tableCapacity
  · rw [PageTable.mapping_of_place (PageTable.place?_eq_some_iff.mpr rfl : PageTable.place? page =
      some ⟨page.toNat, inside⟩), inverse.mapped]
    simp [inside]
  · have beyond : PageTable.place? page = none := dif_neg inside
    simp [PageTable.mapping_of_none beyond, inside]

/-- The pages that are out are those that are mapped. -/
theorem isOut_iff (inverse : memory.Inverse) (target : PhysPage) :
    memory.frames.allocator.isOut target = true ↔
      ∃ table page, (memory.tables table).mapping page = some target := by
  rw [inverse.sound.tracks.lent_iff target]
  constructor
  · rintro ⟨entry, listed⟩
    obtain ⟨table, place, rfl⟩ := inverse.known target entry listed
    obtain ⟨page, found⟩ := PageTable.exists_page place
    refine ⟨table, page, ?_⟩
    rw [PageTable.mapping_of_place found]
    exact (inverse.mapped table place target).mpr listed
  · rintro ⟨table, page, mapped⟩
    obtain ⟨inside, listed⟩ := (inverse.mapping_iff table page target).mp mapped
    exact ⟨_, listed⟩

/-- No entry is listed for two pages. -/
theorem eq_of_listed (inverse : memory.Inverse) {entry : EntryAddr} {target other : PhysPage}
    (listed : entry ∈ memory.frames.references target)
    (listedThere : entry ∈ memory.frames.references other) : target = other := by
  obtain ⟨table, place, rfl⟩ := inverse.known target entry listed
  rw [← inverse.mapped] at listed listedThere
  exact Option.some_inj.mp (listed.symm.trans listedThere)

end Inverse

end MappedMemory

/-! ## The calls of an owner -/

/-- What a caller does who releases an entry only to clear it. -/
inductive OwnerCall (ι : Type) where
  | acquire (table : ι) (request : PageRequest) (page : VirtPage) (writable : Bool)
  | share (table : ι) (page : VirtPage) (target : PhysPage) (writable : Bool)
  /-- The entry of a page is looked up and released, and then the page is unmapped. -/
  | retire (table : ι) (page : VirtPage) (create : Bool)

section Calls

variable [DecidableEq ι]

namespace MappedMemory

def releaseFound (table : ι) : Option EntryAddr → Step (MappedMemory ι) Unit
  | some entry => release table entry
  | none => pure ()

def retire (table : ι) (page : VirtPage) (create : Bool) : Step (MappedMemory ι) Bool := do
  releaseFound table (← findEntry table page create)
  unmap table page

end MappedMemory

def OwnerCall.step : OwnerCall ι → Step (MappedMemory ι) Unit
  | .acquire table request page writable => do
    let _ ← MappedMemory.onTable table (FrameTable.acquire request page writable)
  | .share table page target writable => do
    let _ ← MappedMemory.onTable table (FrameTable.share page target writable)
  | .retire table page create => do
    let _ ← MappedMemory.retire table page create

namespace MappedMemory

variable {memory : MappedMemory ι}

/-- Makes the calls of an owner one after the other, whether or not they fail. -/
def serveOwner (memory : MappedMemory ι) (calls : List (OwnerCall ι)) : MappedMemory ι :=
  (Step.runAll (calls.map OwnerCall.step) memory).2

namespace Inverse

/-- One table has what it maps changed at one place, and the frames go along. -/
theorem update (inverse : memory.Inverse) {frames : FrameTable} {pages : PageTable} (table : ι)
    (place : Fin tableCapacity) (new : Option PhysPage)
    {listed : PhysPage → EntryAddr → Prop} (becomes : memory.frames.Becomes frames listed)
    (root : pages.root = (memory.tables table).root)
    (targets : ∀ other, pages.target? other =
      if other = place then new else (memory.tables table).target? other)
    (changed : ∀ target entry, listed target entry ↔
      if entry = (memory.tables table).addrOf place then new = some target
      else entry ∈ memory.frames.references target) :
    ({ memory with frames }.setTable table pages).Inverse := by
  apply inverse.relink becomes
  · intro other
    simp only [setTable, Function.update_apply]
    split
    next same => rw [same, root]
    next => rfl
  · intro other i target
    rw [changed]
    simp only [setTable, Function.update_apply, inverse.addrOf_eq_iff]
    by_cases same : other = table
    · subst same
      rw [if_pos rfl, targets]
      by_cases here : i = place
      · simp [here]
      · simp [here, inverse.mapped]
    · simp [same, inverse.mapped]
  · intro target entry inside
    rw [changed] at inside
    split at inside
    next here => exact ⟨table, place, here⟩
    next => exact inverse.known target entry inside

/-- Nothing changes but the allocator, and entries that map nothing. -/
theorem keep (inverse : memory.Inverse) {frames : FrameTable} {pages : PageTable} (table : ι)
    (stays : memory.frames.Stays frames) (root : pages.root = (memory.tables table).root)
    (targets : ∀ place, pages.target? place = (memory.tables table).target? place) :
    ({ memory with frames }.setTable table pages).Inverse := by
  apply inverse.relink stays
  · intro other
    simp only [setTable, Function.update_apply]
    split
    next same => rw [same, root]
    next => rfl
  · intro other place target
    rw [← inverse.mapped]
    simp only [setTable, Function.update_apply]
    split
    next same => rw [same, targets]
    next => rfl
  · exact inverse.known

theorem link (inverse : memory.Inverse) {table : ι} {page : VirtPage} {target : PhysPage}
    {writable : Bool} {place : Fin tableCapacity} {after : FrameTable × PageTable}
    (inRange : memory.frames.allocator.inRange target = true)
    (links : memory.frames.Links (memory.tables table) page target writable place after) :
    ({ memory with frames := after.1 }.setTable table after.2).Inverse := by
  have wasFree := links.wasFree
  rw [links.installed]
  refine inverse.update table place (some target) links.becomes (PageTable.root_setEntry _) ?_ ?_
  · intro other
    rw [PageTable.target?_setEntry, PageTable.target?_mappingEntry,
      Entry.page_ofPage (inverse.fits inRange)]
  · intro other entry
    by_cases here : entry = (memory.tables table).addrOf place
    · subst here
      simp [inverse.not_listed wasFree, eq_comm]
    · simp [here]

/-- Releasing an entry and clearing it take the same mapping off both sides. -/
theorem release_unmap_yields (inverse : memory.Inverse) (table : ι) {page : VirtPage}
    {place : Fin tableCapacity} (found : PageTable.place? page = some place) :
    Step.Yields (do
        release table ((memory.tables table).addrOf place)
        unmap table page) memory fun _ after => after.Inverse := by
  simp only [release, unmap, Step.ends_bind, Step.ends_get, Step.ends_on, Step.ends_modifyGet,
    PageTable.unmap_of_place found]
  apply Step.Yields.imp (inverse.sound.release_yields (memory.tables table) _)
  intro _ frames becomes
  rw [PageTable.pageOf_addrOf] at becomes
  -- what the entry mapped is the page off which it was taken
  have changed (target : PhysPage) (entry : EntryAddr) :
      memory.frames.Without ((memory.tables table).target? place)
          ((memory.tables table).addrOf place) target entry ↔
        if entry = (memory.tables table).addrOf place then none = some target
        else entry ∈ memory.frames.references target := by
    rw [FrameTable.Without]
    split
    next here =>
      subst here
      simp [inverse.mapped]
    next elsewhere => simp [elsewhere]
  cases mapped : (memory.tables table).target? place with
  | none =>
    have unchanged := inverse.update table place none becomes rfl
      (fun other => by split <;> simp_all) changed
    rw [setTable, Function.update_eq_self] at unchanged
    simpa using unchanged
  | some target =>
    refine inverse.update table place none becomes (PageTable.root_setEntry _) ?_ changed
    intro other
    rw [PageTable.target?_setEntry, Entry.target?_clear]

theorem retire_yields (inverse : memory.Inverse) (table : ι) (page : VirtPage) (create : Bool) :
    Step.Yields (retire table page create) memory fun _ after => after.Inverse := by
  obtain ⟨root, targets⟩ := (memory.tables table).findEntry_keeps page create
  have looked := inverse.keep table inverse.sound.stays root targets
  simp only [retire, Step.ends_bind, findEntry, Step.ends_modifyGet]
  rcases (memory.tables table).findEntry_cases page create with
    ⟨place, found, address⟩ | ⟨missing, unmapped⟩
  · have released := looked.release_unmap_yields table found
    rw [tables_setTable_self, PageTable.addrOf_congr root] at released
    rw [address]
    exact (Step.ends_bind _ _).mp released
  · simp only [missing, releaseFound, Step.ends_pure, unmap, Step.ends_modifyGet,
      tables_setTable_self, unmapped]
    exact looked

theorem call_ends (inverse : memory.Inverse) (call : OwnerCall ι) :
    Step.Ends call.step memory (fun _ after => after.Inverse) fun _ after => after.Inverse := by
  cases call with
  | acquire table request page writable =>
    simp only [OwnerCall.step, onTable, Step.ends_bind, Step.ends_on, Step.ends_pure]
    apply (inverse.sound.acquire_ends request (memory.tables table) page writable).imp
    · rintro result after ⟨-, ended⟩
      cases result with
      | ok target =>
        obtain ⟨-, inRange, place, links⟩ := ended
        exact inverse.link inRange links
      | error reason =>
        obtain ⟨stays, same⟩ := ended
        exact inverse.keep table stays (by rw [same]) (by simp [same])
    · rintro fault after ⟨-, -, -, rfl⟩
      exact inverse.keep table inverse.sound.stays rfl fun _ => rfl
  | share table page target writable =>
    simp only [OwnerCall.step, onTable, Step.ends_bind, Step.ends_on, Step.ends_pure]
    apply Step.Yields.imp (inverse.sound.share_yields (memory.tables table) page target writable)
    intro result after ended
    cases result with
    | ok =>
      obtain ⟨resident, place, links⟩ := ended
      have out := (inverse.sound.tracks.resident target).mp resident
      exact inverse.link (inverse.sound.allocator.inRange out) links
    | error reason =>
      rw [ended]
      exact inverse.keep table inverse.sound.stays rfl fun _ => rfl
  | retire table page create =>
    simp only [OwnerCall.step, Step.ends_bind, Step.ends_pure]
    exact Step.Yields.imp (inverse.retire_yields table page create) fun _ _ => id

theorem serveOwner (inverse : memory.Inverse) (calls : List (OwnerCall ι)) :
    (memory.serveOwner calls).Inverse := by
  apply Step.runAll_invariant Inverse _ inverse
  intro taken member state inverse
  obtain ⟨call, -, rfl⟩ := List.mem_map.mp member
  exact inverse.call_ends call

end Inverse

/-- A new frame table, over an allocator whose page numbers fit an entry, with page tables that map
nothing yet and whose roots are apart, under any run of calls of an owner, successful or not.  A
page table maps a page to a physical one exactly when the frame of that one lists the address of the
entry; each address is listed for one page at most; and the pages that are out are those that are
mapped. -/
theorem frames_inverse_of_tables {start stop : PhysPage} {allocator : PageAllocator}
    (made : PageAllocator.ofRange start stop = .ok allocator) (numbered : stop.toNat ≤ 2 ^ 54)
    {tables : ι → PageTable} (addressed : ∀ table, (tables table).root.toNat < 2 ^ 52)
    (roots : Function.Injective fun table => (tables table).root)
    (clear : ∀ table page, (tables table).mapping page = none) (calls : List (OwnerCall ι)) :
    let reached := serveOwner { frames := { allocator }, tables } calls
    (∀ table page target, (reached.tables table).mapping page = some target ↔
        ∃ inside : page.toNat < tableCapacity,
          (reached.tables table).addrOf ⟨page.toNat, inside⟩ ∈
            reached.frames.references target) ∧
      (∀ entry target other, entry ∈ reached.frames.references target →
        entry ∈ reached.frames.references other → target = other) ∧
      ∀ target, reached.frames.allocator.isOut target = true ↔
        ∃ table page, (reached.tables table).mapping page = some target := by
  intro reached
  have inverse : reached.Inverse :=
    (Inverse.fresh made numbered addressed roots clear).serveOwner calls
  exact ⟨inverse.mapping_iff, fun _ _ _ => inverse.eq_of_listed, inverse.isOut_iff⟩

/-- Two tables that share a page, which one of them gives up. -/
theorem frames_inverse_of_two_tables :
    let allocator : PageAllocator := { start := ⟨5⟩, fresh := ⟨5⟩, stop := ⟨7⟩ }
    let tables (table : Bool) : PageTable := { root := if table then ⟨9⟩ else ⟨10⟩ }
    let sharing : List (OwnerCall Bool) :=
      [.acquire true {} ⟨0⟩ true, .share false ⟨511⟩ ⟨5⟩ false]
    let shared := serveOwner { frames := { allocator }, tables } sharing
    let reached := serveOwner { frames := { allocator }, tables }
      (sharing ++ [.retire true ⟨0⟩ false])
    (PageAllocator.ofRange ⟨5⟩ ⟨7⟩ = .ok allocator ∧ (⟨7⟩ : PhysPage).toNat ≤ 2 ^ 54 ∧
        (∀ table, (tables table).root.toNat < 2 ^ 52) ∧
        (Function.Injective fun table => (tables table).root) ∧
        ∀ table page, (tables table).mapping page = none) ∧
      ((shared.tables true).mapping ⟨0⟩ = some ⟨5⟩ ∧
        (shared.tables false).mapping ⟨511⟩ = some ⟨5⟩ ∧
        shared.frames.references ⟨5⟩ = [⟨0x9000⟩, ⟨0xaff8⟩]) ∧
      ((reached.tables true).mapping ⟨0⟩ = none ∧
        (reached.tables false).mapping ⟨511⟩ = some ⟨5⟩ ∧
        reached.frames.references ⟨5⟩ = [⟨0xaff8⟩] ∧
        reached.frames.allocator.isOut ⟨5⟩ = true) ∧
      ∀ target, reached.frames.allocator.isOut target = true ↔
        ∃ table page, (reached.tables table).mapping page = some target := by
  intro allocator tables sharing shared reached
  have made : PageAllocator.ofRange ⟨5⟩ ⟨7⟩ = .ok allocator :=
    PageAllocator.ofRange_eq_ok_iff.mpr ⟨by decide, by decide, rfl⟩
  have numbered : (⟨7⟩ : PhysPage).toNat ≤ 2 ^ 54 := by decide
  have addressed (table : Bool) : (tables table).root.toNat < 2 ^ 52 := by
    cases table <;> decide
  have roots : Function.Injective fun table => (tables table).root := by
    intro table other same
    cases table <;> cases other <;> simp_all [tables]
  have clear (table : Bool) (page : VirtPage) : (tables table).mapping page = none := by
    cases found : PageTable.place? page with
    | none => exact PageTable.mapping_of_none found
    | some place =>
      rw [PageTable.mapping_of_place found]
      simp [tables, PageTable.target?]
  obtain ⟨-, -, out⟩ := frames_inverse_of_tables made numbered addressed roots clear
    (sharing ++ [.retire true ⟨0⟩ false])
  have isReached : serveOwner { frames := { allocator }, tables }
      (sharing ++ [.retire true ⟨0⟩ false]) = reached := rfl
  rw [isReached] at out
  have mapped : (reached.tables false).mapping ⟨511⟩ = some ⟨5⟩ := by decide +kernel
  refine ⟨⟨made, numbered, addressed, roots, clear⟩, by decide +kernel, ?_, out⟩
  exact ⟨by decide +kernel, mapped, by decide +kernel, (out ⟨5⟩).mpr ⟨false, ⟨511⟩, mapped⟩⟩

end MappedMemory

end Calls

end Residency
