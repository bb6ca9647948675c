import Residency.Memory.PageAllocator
import Residency.Memory.PageTable

/-!
# The frame table

A frame is a physical page together with the page-table entries that map it.  The `FrameTable`
leads from pages to entries, as page tables lead from entries to pages; a frame is in it as long as
it has an entry, and its page goes back to the allocator with the last one.

* `FrameTable.acquire` maps a new page, `FrameTable.share` one that is in the table already;
* `FrameTable.release` takes one entry off the frame that it maps; the entry itself is the
  caller's to clear.

`acquire` and `share` change a page table as well, so that their state is a pair.
-/

namespace Residency

/-- The list without the element at an index, whose place the last one takes. -/
def swapRemove {α : Type} (elements : List α) (index : Nat) : List α :=
  match elements.getLast? with
  | some last => (elements.set index last).dropLast
  | none => []

structure Frame where
  page : PhysPage
  /-- The entries that map the page, each once and in no particular order. -/
  entries : List EntryAddr
deriving DecidableEq

/-- The frame without one of its entries; none if it does not have that one. -/
def Frame.remove? (frame : Frame) (entry : EntryAddr) : Option Frame :=
  (frame.entries.idxOf? entry).map fun index =>
    { frame with entries := swapRemove frame.entries index }

inductive FrameError where
  | outOfMemory
  | alreadyMapped (page : VirtPage)
  | notResident (page : PhysPage)
  | outOfRange (page : VirtPage)
deriving DecidableEq

/-- An installation fails for the same reasons in the frame table. -/
def MapError.toFrameError : MapError → FrameError
  | .mapped page => .alreadyMapped page
  | .outOfRange page => .outOfRange page

inductive FrameWarning where
  | mapsNothing (entry : EntryAddr)
  /-- An entry is released whose page is not in the table. -/
  | notTracked (entry : EntryAddr) (page : PhysPage)
  /-- An entry is released that the frame of its page does not have. -/
  | notReference (entry : EntryAddr) (page : PhysPage)
  | dropped (frames : Nat)
deriving DecidableEq

instance : ToString FrameWarning where
  toString
    | .mapsNothing entry => s!"release {entry}: entry maps nothing"
    | .notTracked entry page => s!"release {entry}: frame {page} is not tracked"
    | .notReference entry page => s!"release {entry}: not a reference of frame {page}"
    | .dropped frames => s!"frame table dropped with {frames} resident frames"

/-- The frames in use, over an allocator of pages. -/
structure FrameTable where
  allocator : PageAllocator
  frames : Std.ExtTreeMap PhysPage Frame := ∅
  /-- What was warned about, the latest first. -/
  warnings : List FrameWarning := []

namespace FrameTable

def size (table : FrameTable) : Nat :=
  table.frames.size

def isEmpty (table : FrameTable) : Bool :=
  table.frames.isEmpty

def frame? (table : FrameTable) (page : PhysPage) : Option Frame :=
  table.frames[page]?

def isResident (table : FrameTable) (page : PhysPage) : Bool :=
  table.frames.contains page

def references (table : FrameTable) (page : PhysPage) : List EntryAddr :=
  match table.frame? page with
  | some frame => frame.entries
  | none => []

def setFrame (table : FrameTable) (frame : Frame) : FrameTable :=
  { table with frames := table.frames.insert frame.page frame }

def eraseFrame (table : FrameTable) (page : PhysPage) : FrameTable :=
  { table with frames := table.frames.erase page }

def warn (table : FrameTable) (warning : FrameWarning) : FrameTable :=
  { table with warnings := warning :: table.warnings }

def onAllocator {α : Type} (step : Step PageAllocator α) : Step FrameTable α :=
  Step.on FrameTable.allocator (fun allocator table => { table with allocator }) step

/-- Adds an entry to the frame of a page, which is made if there is none. -/
def track (table : FrameTable) (page : PhysPage) (entry : EntryAddr) : FrameTable :=
  let entries := table.references page
  if entries.contains entry then table
  else table.setFrame { page, entries := entries ++ [entry] }

/-- Gives up the table, which is worth a warning if it has frames. -/
def drop (table : FrameTable) : FrameTable :=
  if table.isEmpty then table else table.warn (.dropped table.size)

/-- Takes an entry off the frame that it maps.  The page of a frame that has no entry left goes
    back to the allocator.  An entry that no frame has is only warned about. -/
def release (pages : PageTable) (entry : EntryAddr) : Step FrameTable Unit := do
  let table ← get
  let some page := pages.pageOf entry | set (table.warn (.mapsNothing entry))
  let some frame := table.frame? page | set (table.warn (.notTracked entry page))
  let some rest := frame.remove? entry | set (table.warn (.notReference entry page))
  if rest.entries.isEmpty then
    set (table.eraseFrame page)
    onAllocator (PageAllocator.free page)
  else
    set (table.setFrame rest)

/-! ## Steps on a frame table and a page table -/

variable {α : Type}

def onFrames (step : Step FrameTable α) : Step (FrameTable × PageTable) α :=
  Step.on Prod.fst (fun frames state => (frames, state.2)) step

def onPages (step : Step PageTable α) : Step (FrameTable × PageTable) α :=
  Step.on Prod.snd (fun pages state => (state.1, pages)) step

/-- Maps a virtual page that is not mapped yet. -/
def installPage (page : VirtPage) (target : PhysPage) (writable : Bool) :
    Step (FrameTable × PageTable) (Except FrameError Unit) := do
  let (frames, pages) ← get
  if (pages.mapping page).isSome then return .error (.alreadyMapped page)
  match pages.install page target writable with
  | .error reason => return .error reason.toFrameError
  | .ok pages =>
    set (frames, pages)
    return .ok ()

/-- Adds the entry of a virtual page to the frame of the physical page that it was mapped to.  A
    page that is mapped has an entry, so that one is expected. -/
def trackPage (page : VirtPage) (target : PhysPage) : Step (FrameTable × PageTable) Unit := do
  let found ← onPages (modifyGet fun pages => pages.findEntry page true)
  let entry ← Step.getOrFault found (.pageOutOfRange page)
  onFrames (modify fun frames => frames.track target entry)

/-- Maps a virtual page to a page of the allocator, which gets it back if that cannot be done. -/
def acquire (request : PageRequest) (page : VirtPage) (writable : Bool) :
    Step (FrameTable × PageTable) (Except FrameError PhysPage) := do
  let some target ← onFrames (onAllocator (PageAllocator.allocate request))
    | return .error .outOfMemory
  match ← installPage page target writable with
  | .error reason =>
    onFrames (onAllocator (PageAllocator.free target))
    return .error reason
  | .ok () =>
    trackPage page target
    return .ok target

/-- Maps a virtual page to a page that is in the frame table. -/
def share (page : VirtPage) (target : PhysPage) (writable : Bool) :
    Step (FrameTable × PageTable) (Except FrameError Unit) := do
  let (frames, _) ← get
  if !frames.isResident target then return .error (.notResident target)
  match ← installPage page target writable with
  | .error reason => return .error reason
  | .ok () =>
    trackPage page target
    return .ok ()

end FrameTable

end Residency
