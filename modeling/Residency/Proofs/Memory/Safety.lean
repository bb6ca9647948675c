import Mathlib.Logic.Function.Basic
import Residency.Proofs.Memory.FrameTable

/-!
# Frames under arbitrary callers

A `MappedMemory` is a frame table with the page tables that it is used with, and a `MemoryCall` is
anything a caller can do to them: to map and release pages through the frame table, with whatever
page table and entry, and to change a page table behind the back of the frame table.

`safe_under_any_caller`: in every state that a run of calls reaches, the frames are those of the
pages that are out, and no call fails but for want of a page that there has to be.
-/

namespace Residency

variable {ι : Type}

/-- A frame table and the page tables that it is used with. -/
structure MappedMemory (ι : Type) where
  frames : FrameTable
  tables : ι → PageTable

inductive MemoryCall (ι : Type) where
  | acquire (table : ι) (request : PageRequest) (page : VirtPage) (writable : Bool)
  | share (table : ι) (page : VirtPage) (target : PhysPage) (writable : Bool)
  | release (table : ι) (entry : EntryAddr)
  /-- A mapping is made that the frame table does not know of. -/
  | install (table : ι) (page : VirtPage) (target : PhysPage) (writable : Bool)
  /-- A mapping is taken back, whether or not its entry was released. -/
  | unmap (table : ι) (page : VirtPage)
  | findEntry (table : ι) (page : VirtPage) (create : Bool)

inductive MemoryAnswer where
  | acquired (result : Except FrameError PhysPage)
  | shared (result : Except FrameError Unit)
  | released
  | installed (result : Except MapError Unit)
  | unmapped (wasMapped : Bool)
  | found (entry : Option EntryAddr)

namespace MappedMemory

variable [DecidableEq ι]

def setTable (memory : MappedMemory ι) (table : ι) (pages : PageTable) : MappedMemory ι :=
  { memory with tables := Function.update memory.tables table pages }

@[simp] theorem setTable_self (memory : MappedMemory ι) (table : ι) :
    memory.setTable table (memory.tables table) = memory := by
  rw [setTable, Function.update_eq_self]

@[simp] theorem tables_setTable_self (memory : MappedMemory ι) (table : ι) (pages : PageTable) :
    (memory.setTable table pages).tables table = pages :=
  Function.update_self ..

/-- A step on the frame table and one of the page tables. -/
def onTable {α : Type} (table : ι) (step : Step (FrameTable × PageTable) α) :
    Step (MappedMemory ι) α :=
  Step.on (fun memory => (memory.frames, memory.tables table))
    (fun (frames, pages) memory => { memory with frames }.setTable table pages) step

/-- Releases an entry that is looked up in one of the page tables. -/
def release (table : ι) (entry : EntryAddr) : Step (MappedMemory ι) Unit := do
  let pages := (← get).tables table
  Step.on MappedMemory.frames (fun frames memory => { memory with frames })
    (FrameTable.release pages entry)

def install (table : ι) (page : VirtPage) (target : PhysPage) (writable : Bool) :
    Step (MappedMemory ι) (Except MapError Unit) :=
  modifyGet fun memory =>
    match (memory.tables table).install page target writable with
    | .ok pages => (.ok (), memory.setTable table pages)
    | .error reason => (.error reason, memory)

/-- Takes a mapping back; says whether there was one. -/
def unmap (table : ι) (page : VirtPage) : Step (MappedMemory ι) Bool :=
  modifyGet fun memory =>
    match (memory.tables table).unmap page with
    | some pages => (true, memory.setTable table pages)
    | none => (false, memory)

def findEntry (table : ι) (page : VirtPage) (create : Bool) :
    Step (MappedMemory ι) (Option EntryAddr) :=
  modifyGet fun memory =>
    let found := (memory.tables table).findEntry page create
    (found.1, memory.setTable table found.2)

end MappedMemory

namespace MemoryCall

def step [DecidableEq ι] : MemoryCall ι → Step (MappedMemory ι) MemoryAnswer
  | .acquire table request page writable =>
    return .acquired (← MappedMemory.onTable table (FrameTable.acquire request page writable))
  | .share table page target writable =>
    return .shared (← MappedMemory.onTable table (FrameTable.share page target writable))
  | .release table entry => do
    MappedMemory.release table entry
    return .released
  | .install table page target writable =>
    return .installed (← MappedMemory.install table page target writable)
  | .unmap table page => return .unmapped (← MappedMemory.unmap table page)
  | .findEntry table page create => return .found (← MappedMemory.findEntry table page create)

/-- A page is requested that there has to be, and all pages of the range are out. -/
def Starves (frames : FrameTable) : MemoryCall ι → Prop
  | .acquire _ request _ _ => request.required = true ∧
      ∀ page, frames.allocator.inRange page = true → frames.allocator.isOut page = true
  | _ => False

end MemoryCall

namespace MappedMemory

variable [DecidableEq ι]

/-- Makes calls one after the other, whether or not they fail; gives their results. -/
def serve (memory : MappedMemory ι) (calls : List (MemoryCall ι)) :
    List (Except Fault MemoryAnswer) × MappedMemory ι :=
  Step.runAll (calls.map MemoryCall.step) memory

/-- A call keeps the frames sound.  It fails only if it starves, and what it acquires has no frame
yet. -/
theorem call_ends {memory : MappedMemory ι} (sound : memory.frames.Sound) (call : MemoryCall ι) :
    Step.Ends call.step memory
      (fun answer after => after.frames.Sound ∧ ¬ call.Starves memory.frames ∧
        ∀ target, answer = .acquired (.ok target) → memory.frames.isResident target = false)
      fun fault after => after.frames.Sound ∧ call.Starves memory.frames ∧
        fault = .outOfPages := by
  cases call with
  | acquire table request page writable =>
    have all_out := sound.allocator.available_eq_zero_iff
    simp only [MemoryCall.step, onTable, Step.ends_bind, Step.ends_on, Step.ends_pure,
      MemoryCall.Starves, ← all_out]
    apply (sound.acquire_ends request (memory.tables table) page writable).imp
    · rintro result ⟨frames, pages⟩ ⟨optional, ended⟩
      have fed : ¬ (request.required = true ∧ memory.frames.allocator.available = 0) := by
        rintro ⟨required, empty⟩
        rw [optional empty] at required
        cases required
      cases result with
      | ok target =>
        obtain ⟨absent, -, place, links⟩ := ended
        refine ⟨links.becomes.sound, fed, fun _ same => ?_⟩
        cases same
        exact absent
      | error reason => exact ⟨ended.1.sound, fed, fun _ same => by cases same⟩
    · rintro fault _ ⟨empty, required, rfl, rfl⟩
      exact ⟨sound, ⟨required, empty⟩, rfl⟩
  | share table page target writable =>
    simp only [MemoryCall.step, onTable, Step.ends_bind, Step.ends_on, Step.ends_pure]
    apply Step.Yields.imp (sound.share_yields (memory.tables table) page target writable)
    rintro result ⟨frames, pages⟩ ended
    cases result with
    | ok =>
      obtain ⟨-, place, links⟩ := ended
      exact ⟨links.becomes.sound, id, fun _ same => by cases same⟩
    | error reason =>
      cases ended
      exact ⟨sound, id, fun _ same => by cases same⟩
  | release table entry =>
    simp only [MemoryCall.step, release, Step.ends_bind, Step.ends_get, Step.ends_on,
      Step.ends_pure]
    apply Step.Yields.imp (sound.release_yields (memory.tables table) entry)
    intro _ frames becomes
    exact ⟨becomes.sound, id, fun _ same => by cases same⟩
  | install table page target writable =>
    simp only [MemoryCall.step, install, Step.ends_bind, Step.ends_modifyGet, Step.ends_pure]
    refine ⟨?_, id, fun _ same => by cases same⟩
    split <;> exact sound
  | unmap table page =>
    simp only [MemoryCall.step, unmap, Step.ends_bind, Step.ends_modifyGet, Step.ends_pure]
    refine ⟨?_, id, fun _ same => by cases same⟩
    split <;> exact sound
  | findEntry table page create =>
    simp only [MemoryCall.step, findEntry, Step.ends_bind, Step.ends_modifyGet, Step.ends_pure]
    exact ⟨sound, id, fun _ same => by cases same⟩

theorem serve_sound {memory : MappedMemory ι} (sound : memory.frames.Sound)
    (calls : List (MemoryCall ι)) : (memory.serve calls).2.frames.Sound := by
  apply Step.runAll_invariant (fun memory : MappedMemory ι => memory.frames.Sound) _ sound
  intro taken member state sound
  obtain ⟨call, -, rfl⟩ := List.mem_map.mp member
  exact (call_ends sound call).imp (fun _ _ => And.left) fun _ _ => And.left

/-- A new frame table, over an allocator that nobody else uses, under any run of calls with any page
tables: each frame is filed under its page and has entries, each once; the pages with a frame are
those that are out, and as many as the allocator counts.  No page is acquired that has a frame.
A call fails only when it requires a page and all of them are out; in particular no page is ever
given back that is not out, and none that was mapped lacks an entry, which would be faults of their
own. -/
theorem safe_under_any_caller {start stop : PhysPage} {allocator : PageAllocator}
    (made : PageAllocator.ofRange start stop = .ok allocator) (tables : ι → PageTable)
    (calls : List (MemoryCall ι)) :
    let reached := (serve { frames := { allocator }, tables } calls).2
    (∀ page frame, reached.frames.frame? page = some frame →
        frame.page = page ∧ frame.entries ≠ [] ∧ frame.entries.Nodup) ∧
      (∀ page, reached.frames.isResident page = true ↔
        reached.frames.allocator.isOut page = true) ∧
      reached.frames.size = reached.frames.allocator.allocated ∧
      ∀ call : MemoryCall ι, Step.Ends call.step reached
        (fun answer _ => ¬ call.Starves reached.frames ∧
          ∀ target, answer = .acquired (.ok target) → reached.frames.isResident target = false)
        fun fault _ => call.Starves reached.frames ∧ fault = .outOfPages := by
  intro reached
  have sound : reached.frames.Sound := serve_sound (FrameTable.sound_ofRange made).1 calls
  refine ⟨fun page frame found => ?_, sound.tracks.resident, sound.size_eq_allocated,
    fun call => ?_⟩
  · exact ⟨sound.tracks.filed found, sound.tracks.used found, sound.tracks.distinct found⟩
  · exact (call_ends sound call).imp (fun _ _ => And.right) fun _ _ => And.right

/-- Two tables with one root, of which one entry is cleared and set again without being released,
and another one is released twice.  Sharing a page with another entry does not fail after that. -/
theorem safe_with_two_tables_at_one_root :
    let allocator : PageAllocator := { start := ⟨5⟩, fresh := ⟨5⟩, stop := ⟨7⟩ }
    PageAllocator.ofRange ⟨5⟩ ⟨7⟩ = .ok allocator ∧
      let reached := (serve { frames := { allocator }, tables := fun _ : Bool => { root := ⟨9⟩ } }
        [.acquire true {} ⟨0⟩ true, .acquire false {} ⟨0⟩ true, .unmap true ⟨0⟩,
          .install true ⟨0⟩ ⟨6⟩ false, .release true ⟨0x9000⟩, .release false ⟨0x9000⟩]).2
      (∀ page, reached.frames.isResident page = true ↔
          reached.frames.allocator.isOut page = true) ∧
        reached.frames.size = reached.frames.allocator.allocated ∧
        Step.Yields (MemoryCall.share true ⟨1⟩ ⟨5⟩ true).step reached fun _ _ => True := by
  intro allocator
  have made : PageAllocator.ofRange ⟨5⟩ ⟨7⟩ = .ok allocator :=
    PageAllocator.ofRange_eq_ok_iff.mpr ⟨by decide, by decide, rfl⟩
  obtain ⟨-, resident, size, ends⟩ := safe_under_any_caller made (fun _ : Bool => { root := ⟨9⟩ })
    [.acquire true {} ⟨0⟩ true, .acquire false {} ⟨0⟩ true, .unmap true ⟨0⟩,
      .install true ⟨0⟩ ⟨6⟩ false, .release true ⟨0x9000⟩, .release false ⟨0x9000⟩]
  refine ⟨made, resident, size, ?_⟩
  exact (ends (.share true ⟨1⟩ ⟨5⟩ true)).imp (fun _ _ _ => trivial) fun _ _ starves => starves.1

end MappedMemory

end Residency
