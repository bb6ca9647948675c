import Residency.Memory.Address
import Residency.Sector

/-!
# Faults and steps

Operations on disks, caches, volumes and memory change a state and may stop half-way.

* `Fault` lists the causes; `Fault.message` is the text of a cause, where it has one.
* `Step σ α` changes a state `σ` and ends with a result or a fault.  A fault does not undo
  anything: the state is the one that had been reached.
* `Step.on` runs a step on one component of a larger state.
* `addSizes` is the sum of two sizes and `mulSizes` their product, refused when it does not fit a
  machine word.
-/

namespace Residency

/-- A page on either side of a page table. -/
inductive AnyPage where
  | physical (page : PhysPage)
  | virtual (page : VirtPage)
deriving DecidableEq

instance : Coe PhysPage AnyPage := ⟨.physical⟩

instance : Coe VirtPage AnyPage := ⟨.virtual⟩

/-- Why an operation stopped. -/
inductive Fault where
  /-- A sum, difference or product does not fit its word. -/
  | overflow
  /-- A cache access reaches past the end of its sector. -/
  | rangeBeyondSector
  /-- Writing to an inode was denied more often than the inode is open. -/
  | denialsExceedOpens
  /-- Writing to an inode was allowed again without having been denied. -/
  | noDenial
  /-- A range of pages ends before it starts. -/
  | reversedRange
  | memoryTooLarge
  /-- A new file took fewer bytes than it was made for. -/
  | shortStore
  | outOfBounds (length index : Nat)
  /-- A sector is to be reserved that is already in use. -/
  | sectorInUse (sector : Nat)
  /-- A sector is to be released that is not in use. -/
  | sectorNotAllocated (sector : Nat)
  | inodeNotOpen (sector : SectorNo)
  | unknownInode
  | unreadableSector (sector : SectorNo)
  | unwritableSector (sector : SectorNo)
  /-- The file behind a disk ends before the sector does. -/
  | incompleteSector
  /-- An earlier failure has taken the disk out of service. -/
  | poisoned
  | outOfPages
  /-- A physical page is given back that was not handed out. -/
  | pageNotAllocated (page : PhysPage)
  /-- A physical page is not one of the allocator's, or a virtual one has no place in its table. -/
  | pageOutOfRange (page : AnyPage)
deriving DecidableEq

def Fault.message : Fault → Option String
  | .overflow | .shortStore | .poisoned | .unknownInode => none
  | .rangeBeyondSector => some "offset + buf.len() <= SECTOR_SIZE"
  | .denialsExceedOpens => some "state.deny_write_count <= state.open_count"
  | .noDenial => some "state.deny_write_count > 0"
  | .reversedRange => some "start <= end"
  | .memoryTooLarge => some "capacity overflow"
  | .outOfBounds length index =>
    some s!"index out of bounds: the len is {length} but the index is {index}"
  | .sectorInUse sector => some s!"sector {sector} is already in use"
  | .sectorNotAllocated sector => some s!"sector {sector} has not been allocated"
  | .inodeNotOpen sector => some s!"inode #{sector} is not open"
  | .unreadableSector sector => some s!"read of sector {sector}"
  | .unwritableSector sector => some s!"write of sector {sector}"
  | .incompleteSector => some "not a complete sector!"
  | .outOfPages => some "run out of physical pages"
  | .pageNotAllocated page =>
    some s!"Frame ppn={page.render markedHexadecimal} has not been allocated!"
  | .pageOutOfRange (.physical page) =>
    some s!"ppn={page.render markedHexadecimal} is out of range"
  | .pageOutOfRange (.virtual _) => some "installed page has no page table entry"

/-- A change of a state `σ` that gives a result or stops with a fault; a fault keeps the state
    that had been reached. -/
abbrev Step (σ α : Type) := EStateM Fault σ α

namespace Step

variable {σ τ α : Type}

/-- Runs a step on the component of a larger state that `get` reads and `put` replaces. -/
def on (get : σ → τ) (put : τ → σ → σ) (step : Step τ α) : Step σ α := fun state =>
  match step.run (get state) with
  | .ok result part => .ok result (put part state)
  | .error fault part => .error fault (put part state)

@[simp] theorem run_on (get : σ → τ) (put : τ → σ → σ) (step : Step τ α) (state : σ) :
    (on get put step).run state =
      match step.run (get state) with
      | .ok result part => .ok result (put part state)
      | .error fault part => .error fault (put part state) := rfl

def ensure (condition : Bool) (fault : Fault) : Step σ Unit :=
  if condition then pure () else throw fault

@[simp] theorem run_ensure (condition : Bool) (fault : Fault) (state : σ) :
    (ensure condition fault).run state =
      if condition then .ok () state else .error fault state := by
  cases condition <;> rfl

def getOrFault (value : Option α) (fault : Fault) : Step σ α :=
  match value with
  | some a => pure a
  | none => throw fault

@[simp] theorem run_getOrFault_some (a : α) (fault : Fault) (state : σ) :
    (getOrFault (some a) fault).run state = .ok a state := rfl

@[simp] theorem run_getOrFault_none (fault : Fault) (state : σ) :
    (getOrFault (none : Option α) fault).run state = .error fault state := rfl

end Step

/-- The number of values of a machine word. -/
abbrev wordLimit : Nat := UInt64.size

abbrev memoryLimit : Nat := UInt64.size / 2

/-- The sum of two sizes, refused when it does not fit a machine word. -/
def addSizes {σ : Type} (a b : Nat) : Step σ Nat :=
  if a + b < wordLimit then pure (a + b) else throw .overflow

@[simp] theorem run_addSizes {σ : Type} (a b : Nat) (state : σ) :
    (addSizes a b).run state =
      if a + b < wordLimit then .ok (a + b) state else .error .overflow state := by
  unfold addSizes
  split <;> rfl

/-- The product of two sizes, refused when it does not fit a machine word. -/
def mulSizes {σ : Type} (a b : Nat) : Step σ Nat :=
  if a * b < wordLimit then pure (a * b) else throw .overflow

@[simp] theorem run_mulSizes {σ : Type} (a b : Nat) (state : σ) :
    (mulSizes a b).run state =
      if a * b < wordLimit then .ok (a * b) state else .error .overflow state := by
  unfold mulSizes
  split <;> rfl

/-- The sector `n` places further, refused when its number does not fit. -/
def SectorNo.advance {σ : Type} (sector : SectorNo) (n : Nat) : Step σ SectorNo :=
  Step.getOrFault (sector.advance? n) .overflow

end Residency
