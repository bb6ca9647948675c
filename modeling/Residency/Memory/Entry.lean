import Residency.Memory.Address

/-!
# Page-table entries

An `Entry` packs the number of a physical page and eight flags into one word: the flags are the
lowest eight bits, two bits are kept clear, and the page number fills the rest, cut to the 54 bits
that are left for it.  `EntryAddr` is the address of an entry in memory, by which those that refer
to a page are told apart.
-/

namespace Residency

/-- What an entry says about its page. -/
inductive Flag where
  /-- The entry maps its page. -/
  | valid
  | readable
  | writable
  | executable
  /-- Programs outside the kernel may use the page. -/
  | user
  | global
  | accessed
  | dirty
deriving DecidableEq

def Flag.bit : Flag → UInt8
  | .valid => 0x01
  | .readable => 0x02
  | .writable => 0x04
  | .executable => 0x08
  | .user => 0x10
  | .global => 0x20
  | .accessed => 0x40
  | .dirty => 0x80

structure Flags where
  bits : UInt8
deriving DecidableEq

namespace Flags

instance : EmptyCollection Flags := ⟨⟨0⟩⟩

instance : Insert Flag Flags := ⟨fun flag flags => ⟨flags.bits ||| flag.bit⟩⟩

instance : Singleton Flag Flags := ⟨fun flag => ⟨flag.bit⟩⟩

def ofList (flags : List Flag) : Flags :=
  flags.foldr insert ∅

def contains (flags : Flags) (flag : Flag) : Bool :=
  flags.bits &&& flag.bit != 0

end Flags

/-- An entry of a page table. -/
structure Entry where
  bits : UInt64
deriving DecidableEq

namespace Entry

def clear : Entry := ⟨0⟩

instance : Inhabited Entry := ⟨clear⟩

/-- The entry for a page, whose number loses the bits that do not fit. -/
def ofPage (page : PhysPage) (flags : Flags) : Entry :=
  ⟨page.raw <<< 10 ||| flags.bits.toUInt64⟩

def page (entry : Entry) : PhysPage :=
  ⟨entry.bits >>> 10⟩

def flags (entry : Entry) : Flags :=
  ⟨entry.bits.toUInt8⟩

def isValid (entry : Entry) : Bool :=
  entry.flags.contains .valid

def isWritable (entry : Entry) : Bool :=
  entry.flags.contains .writable

end Entry

structure EntryAddr where
  raw : UInt64
deriving DecidableEq

namespace EntryAddr

def toNat (entry : EntryAddr) : Nat :=
  entry.raw.toNat

instance : ToString EntryAddr :=
  ⟨fun entry => "pte@" ++ markedHexadecimal.render entry.toNat⟩

end EntryAddr

end Residency
