import Residency.Fault
import Residency.Memory.SparseBytes

/-!
# Physical pages

A `PageAllocator` hands out the pages of a range and takes them back.  Pages that came back wait on
a stack and are handed out first; the pages from `fresh` on were never handed out.  Every page of
the range has contents, whether it is handed out or not: the pages stand one after the other in one
string of bytes.

* `PageAllocator.allocate` and `PageAllocator.free` hand out a page and take it back;
* `PageAllocator.allocated` and `PageAllocator.available` count the pages that are out and those
  that are left;
* `PageAllocator.contents` and `PageAllocator.modifyPage` give access to the bytes of a page.
-/

namespace Residency

abbrev Page := Block pageSize

structure PageRequest where
  /-- There has to be a page: without one the request is a fault. -/
  required : Bool := false
  /-- The page is to be filled with zeros. -/
  zeroed : Bool := false
deriving DecidableEq

/-- The pages from `start` up to `stop`. -/
structure PageAllocator where
  start : PhysPage
  fresh : PhysPage
  stop : PhysPage
  /-- The pages that came back, the latest first. -/
  recycled : List PhysPage := []
  /-- The bytes of all pages, those of `start` first. -/
  memory : SparseBytes := { size := (stop.toNat - start.toNat) * pageSize }

namespace PageAllocator

/-- The allocator of the pages from `start` up to `stop`.  Their bytes have to be countable in a
    machine word, and not more than memory can hold. -/
def ofRange (start stop : PhysPage) : Except Fault PageAllocator :=
  let bytes := (stop.toNat - start.toNat) * pageSize
  if stop.toNat < start.toNat then .error .reversedRange
  else if wordLimit ≤ bytes then .error .overflow
  else if memoryLimit ≤ bytes then .error .memoryTooLarge
  else .ok { start, fresh := start, stop }

def allocated (pages : PageAllocator) : Nat :=
  pages.fresh.toNat - pages.start.toNat - pages.recycled.length

def available (pages : PageAllocator) : Nat :=
  pages.stop.toNat - pages.fresh.toNat + pages.recycled.length

def inRange (pages : PageAllocator) (page : PhysPage) : Bool :=
  pages.start.toNat ≤ page.toNat && page.toNat < pages.stop.toNat

def isOut (pages : PageAllocator) (page : PhysPage) : Bool :=
  pages.start.toNat ≤ page.toNat && page.toNat < pages.fresh.toNat &&
    !pages.recycled.contains page

/-- Where a page begins and ends in memory. -/
def pageRange (page : PhysPage) : Step PageAllocator (Nat × Nat) := do
  let pages ← get
  Step.ensure (pages.inRange page) (.pageOutOfRange page)
  let first ← mulSizes (page.toNat - pages.start.toNat) pageSize
  let last ← addSizes first pageSize
  return (first, last)

def contents (page : PhysPage) : Step PageAllocator Page := do
  let (first, last) ← pageRange page
  let pages ← get
  Step.ensure (last ≤ pages.memory.size) (.outOfBounds pages.memory.size last)
  return .ofBytes (pages.memory.slice first last)

def modifyPage (page : PhysPage) (f : Page → Page) : Step PageAllocator Unit := do
  let data ← contents page
  let (first, _) ← pageRange page
  modify fun pages => { pages with memory := pages.memory.splice first (f data).bytes }

def fillPage (page : PhysPage) (byte : UInt8) : Step PageAllocator Unit :=
  modifyPage page fun _ => .filled byte

def pokePage (page : PhysPage) (position : Nat) (byte : UInt8) : Step PageAllocator Unit := do
  let _ ← contents page
  Step.ensure (position < pageSize) (.outOfBounds pageSize position)
  modifyPage page (·.overwrite position [byte])

/-- The next page to hand out, and the allocator after that; none if all pages are out. -/
def take? (pages : PageAllocator) : Option (PhysPage × PageAllocator) :=
  match pages.recycled with
  | page :: recycled => some (page, { pages with recycled })
  | [] =>
    if pages.fresh.toNat < pages.stop.toNat then
      some (pages.fresh, { pages with fresh := pages.fresh.next })
    else none

/-- Hands out a page as it was asked for, or none when all are out. -/
def allocate (request : PageRequest) : Step PageAllocator (Option PhysPage) := do
  match (← get).take? with
  | some (page, pages) =>
    set pages
    if request.zeroed then fillPage page 0
    return some page
  | none =>
    Step.ensure (!request.required) .outOfPages
    return none

/-- Takes back a page that is handed out. -/
def free (page : PhysPage) : Step PageAllocator Unit := do
  Step.ensure ((← get).isOut page) (.pageNotAllocated page)
  modify fun pages => { pages with recycled := page :: pages.recycled }

end PageAllocator

end Residency
