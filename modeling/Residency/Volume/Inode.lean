import Residency.Descriptor

/-!
# Open files

An `Inode` is a file in memory: its descriptor and what its openers have agreed on.  It is made
when its sector is opened and keeps its descriptor, because files do not grow.

* `Inode.addOpener` and `Inode.dropOpener` count the openers;
* `Inode.deny` and `Inode.allow` count those that forbid writing to the file;
* `OpenFiles` holds every inode made since the volume was mounted, and the registry of the sectors
  that are open, each under one inode.
-/

namespace Residency

structure Inode where
  /-- The sector of the descriptor, by which the file is known. -/
  sector : SectorNo
  descriptor : Descriptor
  opens : Nat := 1
  /-- How many openers forbid writing. -/
  denials : Nat := 0
  removed : Bool := false

namespace Inode

/-- Counts one more opener. -/
def addOpener : Step Inode Unit := do
  let opens ← addSizes (← get).opens 1
  modify ({ · with opens })

/-- Counts one opener less; says whether it was the last. -/
def dropOpener : Step Inode Bool := do
  let inode ← get
  Step.ensure (0 < inode.opens) (.inodeNotOpen inode.sector)
  set { inode with opens := inode.opens - 1 }
  return inode.opens == 1

/-- Forbids writing, once for each opener at most; a refusal comes too late to undo the count. -/
def deny : Step Inode Unit := do
  let denials ← addSizes (← get).denials 1
  modify ({ · with denials })
  Step.ensure (denials ≤ (← get).opens) .denialsExceedOpens

def allow : Step Inode Unit := do
  let inode ← get
  Step.ensure (0 < inode.denials) .noDenial
  Step.ensure (inode.denials ≤ inode.opens) .denialsExceedOpens
  set { inode with denials := inode.denials - 1 }

def remove : Step Inode Unit :=
  modify ({ · with removed := true })

end Inode

structure InodeId where
  index : Nat
deriving DecidableEq

structure OpenFiles where
  inodes : Array Inode := #[]
  registry : Std.ExtTreeMap SectorNo InodeId := ∅

namespace OpenFiles

def get? (files : OpenFiles) (id : InodeId) : Option Inode :=
  files.inodes[id.index]?

/-- The table with another inode under a name that it has. -/
def set (files : OpenFiles) (id : InodeId) (inode : Inode) : OpenFiles :=
  { files with inodes := files.inodes.setIfInBounds id.index inode }

def unregister (files : OpenFiles) (sector : SectorNo) : OpenFiles :=
  { files with registry := files.registry.erase sector }

/-- Adds an inode, under which its sector is open from now on. -/
def add (inode : Inode) : Step OpenFiles InodeId :=
  modifyGet fun files =>
    let id : InodeId := ⟨files.inodes.size⟩
    (id, { inodes := files.inodes.push inode, registry := files.registry.insert inode.sector id })

def onInode {α : Type} (id : InodeId) (step : Step Inode α) : Step OpenFiles α := do
  let inode ← Step.getOrFault ((← getThe OpenFiles).get? id) .unknownInode
  Step.on (fun _ => inode) (fun inode files => files.set id inode) step

end OpenFiles

end Residency
