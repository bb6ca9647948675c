import Std.Data.ExtTreeMap

/-!
# Bytes that are mostly zero

A `SparseBytes` is a string of bytes that keeps only those that were ever written, so that a large
memory of zeros takes no room.

* `SparseBytes.slice` are the bytes of a range;
* `SparseBytes.splice` writes bytes from a position on.
-/

namespace Residency

/-- A string of `size` bytes, of which those that are not in `written` are zero. -/
structure SparseBytes where
  size : Nat
  written : Std.ExtTreeMap Nat UInt8 := ∅

namespace SparseBytes

def byteAt (bytes : SparseBytes) (position : Nat) : UInt8 :=
  bytes.written.getD position 0

/-- The bytes from `first` up to `last`. -/
def slice (bytes : SparseBytes) (first last : Nat) : List UInt8 :=
  (List.range' first (last - first)).map bytes.byteAt

def splice : SparseBytes → Nat → List UInt8 → SparseBytes
  | bytes, _, [] => bytes
  | bytes, position, byte :: rest =>
    splice { bytes with written := bytes.written.insert position byte } (position + 1) rest

variable {bytes : SparseBytes}

@[simp] theorem size_splice (position : Nat) (data : List UInt8) :
    (bytes.splice position data).size = bytes.size := by
  fun_induction splice bytes position data with
  | case1 => rfl
  | case2 _ _ _ _ inductionHypothesis => exact inductionHypothesis

theorem byteAt_splice (position : Nat) (data : List UInt8) (i : Nat) :
    (bytes.splice position data).byteAt i =
      if position ≤ i ∧ i < position + data.length then data.getD (i - position) 0
      else bytes.byteAt i := by
  fun_induction splice bytes position data with
  | case1 bytes position =>
    rw [if_neg (by simp only [List.length_nil]; omega)]
  | case2 bytes position byte rest inductionHypothesis =>
    rw [inductionHypothesis]
    by_cases here : i = position
    · subst here
      rw [if_neg (by omega), if_pos (by simp only [List.length_cons]; omega)]
      simp [byteAt]
    · have elsewhere : byteAt { bytes with written := bytes.written.insert position byte } i =
          bytes.byteAt i := by
        simp [byteAt, Std.ExtTreeMap.getD_insert, Ne.symm here]
      rw [elsewhere, List.length_cons]
      by_cases behind : position < i
      · obtain ⟨distance, rfl⟩ : ∃ distance, i = position + 1 + distance :=
          ⟨i - (position + 1), by omega⟩
        have shifted : position + 1 + distance - position = distance + 1 := by omega
        simp only [shifted, List.getD_cons_succ, Nat.add_sub_cancel_left]
        congr 1
        simp only [eq_iff_iff]
        omega
      · rw [if_neg (by omega), if_neg (by omega)]

@[simp] theorem length_slice (first last : Nat) : (bytes.slice first last).length = last - first := by
  simp [slice]

/-- Equal bytes give equal slices. -/
theorem slice_congr {other : SparseBytes} {first last : Nat}
    (same : ∀ i, first ≤ i → i < last → bytes.byteAt i = other.byteAt i) :
    bytes.slice first last = other.slice first last := by
  apply List.map_congr_left
  intro i member
  obtain ⟨low, high⟩ := List.mem_range'_1.mp member
  exact same i low (by omega)

/-- What was written is read back. -/
theorem slice_splice (position : Nat) (data : List UInt8) :
    (bytes.splice position data).slice position (position + data.length) = data := by
  apply List.ext_getElem
  · simp
  · intro i inSlice inData
    simp only [slice, List.getElem_map, List.getElem_range', byteAt_splice]
    rw [if_pos (by omega)]
    simp [inData]

end SparseBytes

end Residency
