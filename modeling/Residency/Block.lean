/-!
# Blocks of bytes

A `Block n` is a run of exactly `n` bytes: the contents of a sector or of a page.

* `Block.slice` reads a range, cut where the block ends;
* `Block.overwrite` replaces the bytes from a position on, and drops what would fall past the
  end, so that a block keeps its size under every write;
* `Block.ofBytes` is the block that starts with the given bytes and is zero after them.
-/

namespace Residency

/-- Replaces the elements of a list from position `offset` on by `data`, as far as the list
    reaches. -/
def overwrite {α : Type} : List α → Nat → List α → List α
  | [], _, _ => []
  | x :: xs, 0, [] => x :: xs
  | _ :: xs, 0, y :: ys => y :: overwrite xs 0 ys
  | x :: xs, offset + 1, data => x :: overwrite xs offset data

@[simp] theorem length_overwrite {α : Type} (xs : List α) (offset : Nat) (data : List α) :
    (overwrite xs offset data).length = xs.length := by
  fun_induction overwrite xs offset data with
  | case1 | case2 => rfl
  | case3 _ xs _ ys ih => simp [ih]
  | case4 _ xs _ _ ih => simp [ih]

theorem getElem?_overwrite {α : Type} (xs : List α) (offset : Nat) (data : List α) (i : Nat) :
    (overwrite xs offset data)[i]? =
      if i < xs.length ∧ offset ≤ i ∧ i < offset + data.length then data[i - offset]?
      else xs[i]? := by
  fun_induction overwrite xs offset data generalizing i with
  | case1 => simp
  | case2 x xs => simp
  | case3 x xs y ys ih =>
    cases i with
    | zero => simp
    | succ i => simp [ih]
  | case4 x xs offset data ih =>
    cases i with
    | zero => simp
    | succ i =>
      simp only [List.getElem?_cons_succ, ih, List.length_cons]
      congr 1
      · simp; omega
      · congr 1; omega

structure Block (n : Nat) where
  bytes : List UInt8
  length_bytes : bytes.length = n
deriving DecidableEq

namespace Block

variable {n : Nat}

def filled (byte : UInt8) : Block n :=
  ⟨List.replicate n byte, List.length_replicate⟩

def zero : Block n :=
  filled 0

instance : Inhabited (Block n) := ⟨zero⟩

def slice (block : Block n) (offset length : Nat) : List UInt8 :=
  (block.bytes.drop offset).take length

def overwrite (block : Block n) (offset : Nat) (data : List UInt8) : Block n :=
  ⟨Residency.overwrite block.bytes offset data, by
    rw [length_overwrite, block.length_bytes]⟩

def ofBytes (data : List UInt8) : Block n :=
  zero.overwrite 0 data

/-- The byte at `index`, zero past the end. -/
def byteAt (block : Block n) (index : Nat) : UInt8 :=
  block.bytes.getD index 0

@[simp] theorem byteAt_zero (index : Nat) : (zero : Block n).byteAt index = 0 := by
  simp only [byteAt, zero, filled, List.getD_eq_getElem?_getD, List.getElem?_replicate]
  split <;> rfl

theorem byteAt_eq_zero (block : Block n) {index : Nat} (h : n ≤ index) :
    block.byteAt index = 0 := by
  have hlength := block.length_bytes
  rw [byteAt, List.getD_eq_getElem?_getD, List.getElem?_eq_none (by omega), Option.getD_none]

theorem byteAt_ofBytes (data : List UInt8) (index : Nat) :
    (ofBytes data : Block n).byteAt index = if index < n then data.getD index 0 else 0 := by
  simp only [byteAt, ofBytes, overwrite, zero, filled, List.getD_eq_getElem?_getD,
    getElem?_overwrite, List.length_replicate, List.getElem?_replicate]
  by_cases hn : index < n <;> by_cases hd : index < data.length <;> simp [hn, hd]

theorem byteAt_overwrite (block : Block n) (offset : Nat) (data : List UInt8) (index : Nat) :
    (block.overwrite offset data).byteAt index =
      if index < n ∧ offset ≤ index ∧ index < offset + data.length then
        data.getD (index - offset) 0
      else block.byteAt index := by
  simp only [byteAt, overwrite, List.getD_eq_getElem?_getD, getElem?_overwrite,
    block.length_bytes]
  split <;> rfl

theorem ext_byteAt {a b : Block n} (same : ∀ index < n, a.byteAt index = b.byteAt index) :
    a = b := by
  obtain ⟨xs, hxs⟩ := a
  obtain ⟨ys, hys⟩ := b
  congr
  apply List.ext_getElem (hxs.trans hys.symm)
  intro index hx hy
  simpa [byteAt, hx, hy] using same index (by omega)

theorem slice_eq_map_byteAt (block : Block n) {offset length : Nat} (inside : offset + length ≤ n) :
    block.slice offset length = (List.range length).map fun i => block.byteAt (offset + i) := by
  have size := block.length_bytes
  apply List.ext_getElem
  · simp only [slice, List.length_take, List.length_drop, List.length_map, List.length_range]
    omega
  · intro index hslice hmap
    have hindex : offset + index < block.bytes.length := by
      simp only [List.length_map, List.length_range] at hmap
      omega
    simp [slice, byteAt, hindex]

theorem bytes_ofBytes {data : List UInt8} (fits : data.length ≤ n) :
    (ofBytes data : Block n).bytes = data ++ List.replicate (n - data.length) 0 := by
  apply List.ext_getElem?
  intro index
  simp only [ofBytes, overwrite, zero, filled, getElem?_overwrite, List.length_replicate,
    List.getElem?_replicate, List.getElem?_append]
  by_cases inData : index < data.length
  · simp [inData, Nat.lt_of_lt_of_le inData fits]
  · rw [if_neg (by omega), if_neg inData]
    congr 1
    simp only [eq_iff_iff]
    omega

/-- Reading a block in full and making a block of it gives it back. -/
theorem ofBytes_slice (block : Block n) : ofBytes (block.slice 0 n) = block := by
  apply ext_byteAt
  intro index hindex
  have length := block.length_bytes
  rw [byteAt_ofBytes, if_pos hindex, slice, List.drop_zero, List.take_of_length_le (by omega),
    byteAt]

/-- A block that is written in full holds what was written. -/
theorem overwrite_zero_bytes (block other : Block n) : block.overwrite 0 other.bytes = other := by
  apply ext_byteAt
  intro index hindex
  rw [byteAt_overwrite, other.length_bytes, if_pos ⟨hindex, by omega, by omega⟩]
  rfl

def isZero (block : Block n) : Bool :=
  block.bytes.all (· == 0)

end Block

end Residency
