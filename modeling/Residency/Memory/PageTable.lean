import Residency.Memory.Entry

/-!
# Page tables

A `PageTable` maps the first `tableCapacity` virtual pages.  Each of them has an entry or none yet,
and it is mapped when it has a valid entry.  Entries stand one after the other in the page that is
the root of the table, which gives each an address of its own.

* `PageTable.install` and `PageTable.unmap` map a page and take the mapping back;
* `PageTable.mapping` and `PageTable.pageOf` find the physical page by the virtual page and by
  the address of the entry;
* `PageTable.findEntry` gives the address of an entry, which it makes if it is asked to.
-/

namespace Residency

/-- The number of virtual pages a table can map. -/
abbrev tableCapacity : Nat := 512

/-- Bytes in an entry. -/
abbrev entrySize : Nat := 8

inductive MapError where
  | mapped (page : VirtPage)
  /-- The table has no place for the virtual page. -/
  | outOfRange (page : VirtPage)
deriving DecidableEq

structure PageTable where
  root : PhysPage
  entries : Vector (Option Entry) tableCapacity := .replicate tableCapacity none

namespace PageTable

def place? (page : VirtPage) : Option (Fin tableCapacity) :=
  if h : page.toNat < tableCapacity then some ⟨page.toNat, h⟩ else none

def entry? (table : PageTable) (page : VirtPage) : Option Entry := do
  table.entries[← place? page]

def mapping (table : PageTable) (page : VirtPage) : Option PhysPage :=
  (table.entry? page).filter Entry.isValid |>.map Entry.page

def setEntry (table : PageTable) (place : Fin tableCapacity) (entry : Entry) : PageTable :=
  { table with entries := table.entries.set place (some entry) }

def mappingFlags (writable : Bool) : Flags :=
  let flags : Flags := {.valid, .readable, .user}
  if writable then insert .writable flags else flags

/-- The table with a virtual page mapped that was not mapped before. -/
def install (table : PageTable) (page : VirtPage) (target : PhysPage) (writable : Bool) :
    Except MapError PageTable :=
  match place? page with
  | none => .error (.outOfRange page)
  | some place =>
    if (table.mapping page).isSome then .error (.mapped page)
    else .ok (table.setEntry place (.ofPage target (mappingFlags writable)))

/-- The table without the mapping of a virtual page, of which a clear entry remains; none if there
    is no mapping. -/
def unmap (table : PageTable) (page : VirtPage) : Option PageTable := do
  let place ← place? page
  let entry ← table.entries[place]
  if entry.isValid then some (table.setEntry place .clear) else none

def base (table : PageTable) : UInt64 :=
  table.root.address.raw

/-- The address of the entry of a virtual page, which fits because the entries fill the root page
    and no more. -/
def addrOf (table : PageTable) (place : Fin tableCapacity) : EntryAddr :=
  ⟨table.base + UInt64.ofNat (place.val * entrySize)⟩

def placeOf? (table : PageTable) (entry : EntryAddr) : Option (Fin tableCapacity) :=
  if table.base ≤ entry.raw then
    let distance := entry.toNat - table.base.toNat
    if h : distance % entrySize = 0 ∧ distance / entrySize < tableCapacity then
      some ⟨distance / entrySize, h.2⟩
    else none
  else none

/-- The address of the entry of a virtual page, if it has one.  With `create` a missing entry is
    made first, as far as the table has a place for it; the table is the one that is left. -/
def findEntry (table : PageTable) (page : VirtPage) (create : Bool) :
    Option EntryAddr × PageTable :=
  match place? page with
  | none => (none, table)
  | some place =>
    match table.entries[place] with
    | some _ => (some (table.addrOf place), table)
    | none =>
      if create then (some (table.addrOf place), table.setEntry place .clear) else (none, table)

def pageOf (table : PageTable) (entry : EntryAddr) : Option PhysPage := do
  let found ← table.entries[← table.placeOf? entry]
  if found.isValid then some found.page else none

end PageTable

end Residency
