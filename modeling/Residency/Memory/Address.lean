import Residency.Text.Numeral
import Std.Data.ExtTreeMap

/-!
# Addresses and page numbers

Memory is cut into pages of `pageSize` bytes.  An address is a page number followed by
`pageBits` bits of offset.  Both the virtual and the physical side come in 64 bits; the address of a
page drops the bits of its number that do not fit.
-/

namespace Residency

/-- Bits of an address that select a byte inside its page. -/
abbrev pageBits : Nat := 12

abbrev pageSize : Nat := 1 <<< pageBits

def pageNumberOf (address : UInt64) : UInt64 :=
  address / UInt64.ofNat pageSize

def pageOffsetOf (address : UInt64) : UInt64 :=
  address % UInt64.ofNat pageSize

/-- The address of the first byte of a page, modulo the 64 bits of an address. -/
def pageBase (page : UInt64) : UInt64 :=
  page * UInt64.ofNat pageSize

structure VirtAddr where
  raw : UInt64
deriving DecidableEq

structure VirtPage where
  raw : UInt64
deriving DecidableEq, Inhabited

structure PhysAddr where
  raw : UInt64
deriving DecidableEq

structure PhysPage where
  raw : UInt64
deriving DecidableEq, Inhabited

namespace VirtAddr

instance : Ord VirtAddr := ⟨compareOn VirtAddr.raw⟩

def page (address : VirtAddr) : VirtPage :=
  ⟨pageNumberOf address.raw⟩

def offset (address : VirtAddr) : UInt64 :=
  pageOffsetOf address.raw

def isAligned (address : VirtAddr) : Bool :=
  address.offset == 0

instance : ToString VirtAddr :=
  ⟨fun address => "va:" ++ markedHexadecimal.render address.raw.toNat⟩

end VirtAddr

namespace VirtPage

instance : Ord VirtPage := ⟨compareOn VirtPage.raw⟩

def toNat (page : VirtPage) : Nat :=
  page.raw.toNat

def address (page : VirtPage) : VirtAddr :=
  ⟨pageBase page.raw⟩

def render (style : NumeralStyle) (page : VirtPage) : String :=
  style.render page.toNat

end VirtPage

namespace PhysAddr

instance : Ord PhysAddr := ⟨compareOn PhysAddr.raw⟩

def page (address : PhysAddr) : PhysPage :=
  ⟨pageNumberOf address.raw⟩

def offset (address : PhysAddr) : UInt64 :=
  pageOffsetOf address.raw

instance : ToString PhysAddr :=
  ⟨fun address => "pa:" ++ markedHexadecimal.render address.raw.toNat⟩

end PhysAddr

namespace PhysPage

instance : Ord PhysPage := ⟨compareOn PhysPage.raw⟩

instance : Std.TransOrd PhysPage :=
  inferInstanceAs (Std.TransCmp (compareOn PhysPage.raw))

instance : Std.LawfulEqOrd PhysPage where
  eq_of_compare {a b} h := by
    have hraw : a.raw = b.raw := Std.LawfulEqOrd.eq_of_compare (α := UInt64) h
    cases a; cases b; simp_all

def toNat (page : PhysPage) : Nat :=
  page.raw.toNat

theorem toNat_inj {a b : PhysPage} : a.toNat = b.toNat ↔ a = b := by
  cases a; cases b
  simp only [toNat, UInt64.toNat_inj, mk.injEq]

def next (page : PhysPage) : PhysPage :=
  ⟨page.raw + 1⟩

def address (page : PhysPage) : PhysAddr :=
  ⟨pageBase page.raw⟩

def render (style : NumeralStyle) (page : PhysPage) : String :=
  style.render page.toNat

instance : ToString PhysPage := ⟨hexadecimal.render ∘ PhysPage.toNat⟩

end PhysPage

end Residency
