import Residency.Bitmap
import Residency.Proofs.Step

/-!
# The map of free sectors as a set

What the operations of a `Bitmap` do to the set of sectors for which `Bitmap.isUsed` holds.

* `allocate_cases`: `Bitmap.allocate` takes the first free run that is long enough, and there is
  none if it takes none;
* `flipEach_ends`: `Bitmap.reserve` and `Bitmap.release` change each bit of their range, up to the
  first one that is not as it should be;
* `UsedBelow` maps, in which the used sectors come first, are those of a volume to which files were
  only ever added: there the next run starts where the used sectors end.
-/

namespace Residency.Bitmap

variable {map : Bitmap}

/-! ## Bits -/

theorem getLsbD_flipBit {word : UInt64} {position i : Nat} (small : position < wordBits) :
    (flipBit word position).toBitVec.getLsbD i =
      if i = position then !word.toBitVec.getLsbD i else word.toBitVec.getLsbD i := by
  have shift : ((UInt64.ofNat position).toBitVec % 64).toNat = position := by
    show position % 2 ^ 64 % 64 = position
    simp only [wordBits] at small
    omega
  have mask : (1 <<< UInt64.ofNat position : UInt64).toBitVec = BitVec.twoPow 64 position := by
    rw [UInt64.toBitVec_shiftLeft, BitVec.twoPow_eq, BitVec.shiftLeft_eq', shift]
    rfl
  rw [flipBit, UInt64.toBitVec_xor, BitVec.getLsbD_xor, mask, BitVec.getLsbD_twoPow]
  by_cases same : i = position
  · subst same
    simp [small]
  · simp [Ne.symm same, same]

/-- Whether there is a bit for a sector; the last word may have some past the capacity. -/
def HasBit (map : Bitmap) (sector : Nat) : Prop :=
  sector / wordBits < (map.capacity + (wordBits - 1)) / wordBits

theorem hasBit_of_lt {sector : Nat} (inside : sector < map.capacity) : map.HasBit sector := by
  simp only [HasBit, wordBits]
  omega

@[simp] theorem capacity_flip (sector : Nat) : (map.flip sector).capacity = map.capacity := by
  unfold flip
  split <;> rfl

theorem hasBit_flip (flipped sector : Nat) : (map.flip flipped).HasBit sector ↔ map.HasBit sector := by
  rw [HasBit, HasBit, capacity_flip]

theorem size_words_flip (sector : Nat) : (map.flip sector).words.size = map.words.size := by
  show ((map.flip sector).capacity + (wordBits - 1)) / wordBits = _
  rw [capacity_flip]

@[simp] theorem capacity_flipRange (start count : Nat) :
    (map.flipRange start count).capacity = map.capacity := by
  induction count generalizing map start with
  | zero => rfl
  | succ count inductionHypothesis => rw [flipRange, inductionHypothesis, capacity_flip]

@[simp] theorem isUsed_empty (capacity sector : Nat) : (empty capacity).isUsed sector = false := by
  unfold isUsed empty
  split
  · rename_i word found
    obtain ⟨inside, rfl⟩ := Vector.getElem?_eq_some_iff.mp found
    simp
  · rfl

theorem isUsed_flip {sector : Nat} (hasBit : map.HasBit sector) (other : Nat) :
    (map.flip sector).isUsed other =
      if other = sector then !map.isUsed other else map.isUsed other := by
  have word : sector / wordBits < (map.capacity + (wordBits - 1)) / wordBits := hasBit
  rw [flip, dif_pos word]
  simp only [isUsed]
  by_cases sameWord : sector / wordBits = other / wordBits
  · have small : sector % wordBits < wordBits := Nat.mod_lt _ (by decide)
    rw [Vector.getElem?_set, if_pos sameWord]
    simp only [← sameWord, word, Vector.getElem?_eq_getElem, getLsbD_flipBit small]
    -- within one word, sectors are the same when their positions are
    congr 1
    simp only [eq_iff_iff, wordBits] at sameWord ⊢
    omega
  · have different : other ≠ sector := by
      intro same
      subst same
      exact sameWord rfl
    rw [Vector.getElem?_set_ne word sameWord, if_neg different]

theorem isUsed_flipRange_of_hasBit {start count : Nat}
    (hasBits : ∀ t, start ≤ t → t < start + count → map.HasBit t) (other : Nat) :
    (map.flipRange start count).isUsed other =
      if start ≤ other ∧ other < start + count then !map.isUsed other else map.isUsed other := by
  induction count generalizing map start with
  | zero => rw [flipRange, if_neg (by omega)]
  | succ count inductionHypothesis =>
    have hasBit : map.HasBit start := hasBits start (Nat.le_refl _) (by omega)
    have others (t : Nat) (low : start + 1 ≤ t) (high : t < start + 1 + count) :
        (map.flip start).HasBit t :=
      (hasBit_flip start t).mpr (hasBits t (by omega) (by omega))
    rw [flipRange, inductionHypothesis others, isUsed_flip hasBit]
    by_cases first : other = start
    · rw [if_neg (by omega), if_pos first, if_pos (by omega)]
    · rw [if_neg first]
      congr 1
      simp only [eq_iff_iff]
      omega

theorem isUsed_flipRange {start count : Nat} (inside : start + count ≤ map.capacity)
    (other : Nat) :
    (map.flipRange start count).isUsed other =
      if start ≤ other ∧ other < start + count then !map.isUsed other else map.isUsed other :=
  isUsed_flipRange_of_hasBit (fun _ _ high => hasBit_of_lt (Nat.lt_of_lt_of_le high inside)) other

/-- A bit of a word is that of a sector. -/
theorem isUsed_word {index : Nat} (inside : index < (map.capacity + (wordBits - 1)) / wordBits)
    {position : Nat} (small : position < wordBits) :
    map.isUsed (index * wordBits + position) = map.words[index].toBitVec.getLsbD position := by
  have word : (index * wordBits + position) / wordBits = index := by
    simp only [wordBits] at small ⊢
    omega
  have bit : (index * wordBits + position) % wordBits = position := by
    simp only [wordBits] at small ⊢
    omega
  rw [isUsed, word, bit, Vector.getElem?_eq_getElem inside]

/-- Maps of one capacity with the same bits are the same. -/
theorem eq_of_isUsed {other : Bitmap} (same : map.capacity = other.capacity)
    (bits : ∀ t, map.isUsed t = other.isUsed t) : map = other := by
  obtain ⟨capacity, words⟩ := map
  obtain ⟨_, words'⟩ := other
  obtain rfl : capacity = _ := same
  congr 1
  apply Vector.ext
  intro index inside
  apply UInt64.toBitVec_inj.mp
  apply BitVec.eq_of_getLsbD_eq
  intro position small
  have bit := bits (index * wordBits + position)
  rw [isUsed_word inside small, isUsed_word inside small] at bit
  exact bit

theorem flipRange_flipRange {start count : Nat} (inside : start + count ≤ map.capacity) :
    (map.flipRange start count).flipRange start count = map := by
  apply eq_of_isUsed
  · simp
  · intro t
    rw [isUsed_flipRange (by simpa using inside), isUsed_flipRange inside]
    split
    next => rw [Bool.not_not]
    next => rfl

/-! ## Allocation -/

def IsFreeRun (map : Bitmap) (start count : Nat) : Prop :=
  start + count ≤ map.capacity ∧ ∀ t, start ≤ t → t < start + count → map.isUsed t = false

/-- The search looks at each sector once: the last `run` sectors before `next` are free, and no run
that is long enough starts before them. -/
theorem findRun_cases (map : Bitmap) {count left next run : Nat} (whole : next + left = map.capacity)
    (short : run < count) (behind : run ≤ next)
    (free : ∀ t, next - run ≤ t → t < next → map.isUsed t = false)
    (none_before : ∀ start < next - run, ¬ map.IsFreeRun start count) :
    (∃ start, map.findRun count left next run = some start ∧ map.IsFreeRun start count ∧
        ∀ earlier < start, ¬ map.IsFreeRun earlier count) ∨
      map.findRun count left next run = none ∧ ∀ start, ¬ map.IsFreeRun start count := by
  induction left generalizing next run with
  | zero =>
    refine Or.inr ⟨rfl, fun start isFree => ?_⟩
    exact none_before start (by have := isFree.1; omega) isFree
  | succ left inductionHypothesis =>
    rw [findRun]
    by_cases used : map.isUsed next = true
    · rw [if_pos used]
      apply inductionHypothesis (by omega) (by omega) (by omega)
      · intro t low high
        omega
      · -- a run that starts at or before `next` and is long enough would contain it
        intro start bound isFree
        by_cases early : start < next - run
        · exact none_before start early isFree
        · have contradiction := isFree.2 next (by omega) (by omega)
          rw [used] at contradiction
          cases contradiction
    · have freeNext : map.isUsed next = false := Bool.eq_false_iff.mpr used
      have longer : ∀ t, next - run ≤ t → t < next + 1 → map.isUsed t = false := by
        intro t low high
        by_cases last : t = next
        · rw [last]; exact freeNext
        · exact free t low (by omega)
      rw [if_neg used]
      by_cases enough : run + 1 = count
      · rw [if_pos enough]
        refine Or.inl ⟨next - run, rfl, ⟨by omega, fun t low high => ?_⟩, none_before⟩
        exact longer t low (by omega)
      · rw [if_neg enough]
        have start_eq : next + 1 - (run + 1) = next - run := by omega
        apply inductionHypothesis (by omega) (by omega) (by omega)
        · rw [start_eq]; exact longer
        · rw [start_eq]; exact none_before

theorem allocate_cases (map : Bitmap) {count : Nat} (some_wanted : count ≠ 0) :
    (∃ start, map.allocate count = (some (.ofNat start), map.flipRange start count) ∧
        map.IsFreeRun start count ∧ ∀ earlier < start, ¬ map.IsFreeRun earlier count) ∨
      map.allocate count = (none, map) ∧ ∀ start, ¬ map.IsFreeRun start count := by
  rw [allocate, if_neg some_wanted]
  have search := map.findRun_cases (Nat.zero_add map.capacity) (Nat.pos_of_ne_zero some_wanted)
    (Nat.zero_le 0) (by omega) (by omega)
  rcases search with ⟨start, found, isFree, first⟩ | ⟨found, none_free⟩
  · rw [found]
    exact Or.inl ⟨start, rfl, isFree, first⟩
  · rw [found]
    exact Or.inr ⟨rfl, none_free⟩

/-! ## Reserving and releasing -/

/-- The bits before the first one that is missing or not as it should be are changed, and no
others. -/
theorem flipEach_ends (map : Bitmap) (used : Bool) (fault : Nat → Fault) (start count : Nat) :
    Step.Ends (flipEach used fault start count) map
      (fun _ after => after = map.flipRange start count ∧
        ∀ t, start ≤ t → t < start + count → map.HasBit t ∧ map.isUsed t = used)
      fun reason after => ∃ passed < count, after = map.flipRange start passed ∧
        (∀ t, start ≤ t → t < start + passed → map.HasBit t ∧ map.isUsed t = used) ∧
        (¬ map.HasBit (start + passed) ∧
            reason = .outOfBounds map.words.size ((start + passed) / wordBits) ∨
          map.isUsed (start + passed) ≠ used ∧ map.HasBit (start + passed) ∧
            reason = fault (start + passed)) := by
  induction count generalizing map start with
  | zero => exact (Step.ends_pure ()).mpr ⟨rfl, by omega⟩
  | succ count inductionHypothesis =>
    simp only [flipEach, Step.ends_bind, Step.ends_get, Step.ends_ensure, Step.ends_set,
      decide_eq_true_eq, beq_iff_eq]
    by_cases hasBit : map.HasBit start
    · have word : start / wordBits < map.words.size := hasBit
      rw [if_pos word]
      by_cases first : map.isUsed start = used
      · rw [if_pos first]
        have later {t : Nat} (above : start + 1 ≤ t) : ((map.flip start).HasBit t ∧
            (map.flip start).isUsed t = used) ↔ map.HasBit t ∧ map.isUsed t = used := by
          rw [hasBit_flip, isUsed_flip hasBit, if_neg (by omega)]
        have all {stop : Nat} (rest : ∀ t, start + 1 ≤ t → t < stop →
            (map.flip start).HasBit t ∧ (map.flip start).isUsed t = used) :
            ∀ t, start ≤ t → t < stop → map.HasBit t ∧ map.isUsed t = used := by
          intro t low high
          by_cases same : t = start
          · rw [same]
            exact ⟨hasBit, first⟩
          · exact (later (by omega)).mp (rest t (by omega) high)
        apply (inductionHypothesis (map.flip start) (start + 1)).imp
        · rintro _ _ ⟨rfl, rest⟩
          rw [show start + 1 + count = start + (count + 1) by omega] at rest
          exact ⟨rfl, all rest⟩
        · rintro reason _ ⟨passed, few, rfl, rest, stopped⟩
          rw [show start + 1 + passed = start + (passed + 1) by omega] at rest stopped
          rw [hasBit_flip, size_words_flip, isUsed_flip hasBit, if_neg (by omega)] at stopped
          exact ⟨passed + 1, Nat.succ_lt_succ few, rfl, all rest, stopped⟩
      · rw [if_neg first]
        exact ⟨0, Nat.succ_pos _, rfl, by omega, Or.inr ⟨first, hasBit, rfl⟩⟩
    · have noWord : ¬ start / wordBits < map.words.size := hasBit
      rw [if_neg noWord]
      exact ⟨0, Nat.succ_pos _, rfl, by omega, Or.inl ⟨hasBit, rfl⟩⟩

theorem flipEach_yields {used : Bool} {fault : Nat → Fault} {start count : Nat}
    (inside : start + count ≤ map.capacity)
    (all : ∀ t, start ≤ t → t < start + count → map.isUsed t = used) :
    Step.Yields (flipEach used fault start count) map fun _ after =>
      after = map.flipRange start count := by
  apply (map.flipEach_ends used fault start count).imp
  · exact fun _ _ => And.left
  · rintro _ _ ⟨passed, few, -, -, ⟨missing, -⟩ | ⟨different, -⟩⟩
    · exact missing (hasBit_of_lt (by omega))
    · exact different (all _ (by omega) (by omega))

theorem reserve_yields {start : SectorNo} {count : Nat} (fits : start.toNat + count < wordLimit)
    (inside : start.toNat + count ≤ map.capacity)
    (free : ∀ t, start.toNat ≤ t → t < start.toNat + count → map.isUsed t = false) :
    Step.Yields (reserve start count) map fun _ after =>
      after = map.flipRange start.toNat count := by
  simp only [reserve, Step.ends_bind, Step.ends_addSizes, if_pos fits]
  exact flipEach_yields inside free

theorem release_yields {start : SectorNo} {count : Nat} (fits : start.toNat + count < wordLimit)
    (inside : start.toNat + count ≤ map.capacity)
    (used : ∀ t, start.toNat ≤ t → t < start.toNat + count → map.isUsed t = true) :
    Step.Yields (release start count) map fun _ after =>
      after = map.flipRange start.toNat count := by
  simp only [release, Step.ends_bind, Step.ends_addSizes, if_pos fits]
  exact flipEach_yields inside used

/-! ## Maps that are used from the start -/

/-- The sectors in use are those below `bound`. -/
def UsedBelow (map : Bitmap) (bound : Nat) : Prop :=
  ∀ t, map.isUsed t = decide (t < bound)

theorem usedBelow_empty (capacity : Nat) : (empty capacity).UsedBelow 0 := by
  intro t
  simp

/-- Two bounds differ on the sectors between them. -/
theorem decide_lt_add (bound count t : Nat) :
    decide (t < bound + count) =
      if bound ≤ t ∧ t < bound + count then !decide (t < bound) else decide (t < bound) := by
  by_cases low : t < bound
  · rw [if_neg (by omega), decide_eq_true low, decide_eq_true (by omega)]
  · by_cases high : t < bound + count
    · rw [if_pos (by omega), decide_eq_false low, decide_eq_true high]
      rfl
    · rw [if_neg (by omega), decide_eq_false low, decide_eq_false high]

theorem UsedBelow.flipRange {bound count : Nat} (usedBelow : map.UsedBelow bound)
    (inside : bound + count ≤ map.capacity) :
    (map.flipRange bound count).UsedBelow (bound + count) := by
  intro t
  rw [isUsed_flipRange inside, usedBelow t, decide_lt_add]

theorem UsedBelow.isFreeRun_iff {bound start count : Nat} (usedBelow : map.UsedBelow bound)
    (some_wanted : count ≠ 0) :
    map.IsFreeRun start count ↔ bound ≤ start ∧ start + count ≤ map.capacity := by
  constructor
  · intro ended
    obtain ⟨inside, free⟩ := ended
    have first := free start (Nat.le_refl _) (by omega)
    rw [usedBelow start, decide_eq_false_iff_not] at first
    exact ⟨by omega, inside⟩
  · intro ended
    obtain ⟨low, inside⟩ := ended
    refine ⟨inside, fun t above _ => ?_⟩
    rw [usedBelow t, decide_eq_false (by omega)]

/-- The next run starts where the used sectors end. -/
theorem UsedBelow.allocate_eq {bound count : Nat} (usedBelow : map.UsedBelow bound)
    (some_wanted : count ≠ 0) :
    map.allocate count =
      if bound + count ≤ map.capacity then (some (.ofNat bound), map.flipRange bound count)
      else (none, map) := by
  rcases map.allocate_cases some_wanted with ⟨start, found, isFree, first⟩ | ⟨found, none_free⟩
  · rw [usedBelow.isFreeRun_iff some_wanted] at isFree
    have start_eq : start = bound := by
      rcases Nat.eq_or_lt_of_le isFree.1 with same | later
      · exact same.symm
      · exact absurd ((usedBelow.isFreeRun_iff some_wanted).mpr ⟨Nat.le_refl _, by omega⟩)
          (first bound later)
    subst start_eq
    rw [found, if_pos isFree.2]
  · rw [found, if_neg]
    intro inside
    exact none_free bound
      ((usedBelow.isFreeRun_iff some_wanted).mpr ⟨Nat.le_refl _, inside⟩)

end Residency.Bitmap
