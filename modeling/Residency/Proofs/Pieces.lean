import Mathlib.Data.List.SplitLengths
import Residency.Proofs.Cache.History
import Residency.Proofs.Contents

/-!
# The pieces of a request

A request for a range of bytes of a file has one piece in each sector that the range touches.
`Descriptor.pieces` says what they are without going from one to the next, and `Descriptor.Tiles`
what makes them a tiling of the range (`tiles_pieces`).

What `Descriptor.nextPiece?` cuts off is the first of them, and behind it the others are those of
the rest (`pieces_of_nextPiece?`).  So reading or writing a range is one access of the cache for
each piece, in order, and nothing else: `Cache.readFile_eq`, `Cache.writeFile_eq`.
-/

namespace Residency

namespace Descriptor

/-- The number of sectors that a range of a file touches. -/
def touched (position count : Nat) : Nat :=
  if count = 0 then 0 else (position + count - 1) / sectorSize - position / sectorSize + 1

/-- The part of a range that lies in the `i`-th of the sectors that it touches. -/
def pieceIn (d : Descriptor) (position count i : Nat) : Piece :=
  let start := max position ((position / sectorSize + i) * sectorSize)
  let stop := min (position + count) ((position / sectorSize + i + 1) * sectorSize)
  { sector := d.sectorAt start, offset := start % sectorSize, length := stop - start }

/-- The pieces of a range, one for each sector that it touches. -/
def pieces (d : Descriptor) (position count : Nat) : List Piece :=
  (List.range (touched position count)).map (d.pieceIn position count)

/-- The pieces lie in consecutive sectors of the file, none of them is empty or leaves its sector,
and together they are as long as the range; only the first may start inside its sector, and only the
last may end there. -/
structure Tiles (d : Descriptor) (position count : Nat) (pieces : List Piece) : Prop where
  number : pieces.length = if count = 0 then 0
    else (position + count - 1) / sectorSize - position / sectorSize + 1
  sector : ∀ i (_ : i < pieces.length),
    pieces[i].sector.toNat = d.start.toNat + position / sectorSize + i
  inside : ∀ piece ∈ pieces, 0 < piece.length ∧ piece.offset + piece.length ≤ sectorSize
  total : (pieces.map (·.length)).sum = count
  first : ∀ _ : 0 < pieces.length, pieces[0].offset = position % sectorSize
  begins : ∀ i (_ : i < pieces.length), 0 < i → pieces[i].offset = 0
  ends : ∀ i (_ : i + 1 < pieces.length), pieces[i].offset + pieces[i].length = sectorSize

variable {d : Descriptor} {position count : Nat}

@[simp] theorem length_pieces : (d.pieces position count).length = touched position count := by
  rw [pieces, List.length_map, List.length_range]

theorem getElem_pieces {i : Nat} (inside : i < (d.pieces position count).length) :
    (d.pieces position count)[i] = d.pieceIn position count i := by
  simp only [pieces, List.getElem_map, List.getElem_range]

/-- Behind its first piece, a range has the pieces of its rest. -/
theorem pieces_eq_cons (some_left : 0 < count) :
    let length := min count (sectorSize - position % sectorSize)
    d.pieces position count =
      { sector := d.sectorAt position, offset := position % sectorSize, length } ::
        d.pieces (position + length) (count - length) := by
  intro length
  have one : touched position count = touched (position + length) (count - length) + 1 := by
    simp only [touched, length, sectorSize]
    split <;> split <;> omega
  rw [pieces, one, List.range_succ_eq_map, List.map_cons, List.map_map, pieces]
  congr 1
  · have start : max position ((position / sectorSize + 0) * sectorSize) = position := by
      simp only [sectorSize]
      omega
    have stop : min (position + count) ((position / sectorSize + 0 + 1) * sectorSize) - position =
        length := by
      simp only [length, sectorSize]
      omega
    rw [pieceIn, start, stop]
  · apply List.map_congr_left
    intro i member
    -- there is more than the first piece, so that one ends where the second sector begins
    have more : count - length ≠ 0 := by
      intro none
      rw [none] at member
      exact absurd (List.mem_range.mp member) (Nat.not_lt_zero i)
    have second : (position + length) / sectorSize = position / sectorSize + 1 := by
      simp only [length, sectorSize] at more ⊢
      omega
    have start : max position ((position / sectorSize + (i + 1)) * sectorSize) =
        max (position + length) ((position / sectorSize + 1 + i) * sectorSize) := by
      simp only [length, sectorSize] at more ⊢
      omega
    have stop : position + count = position + length + (count - length) := by omega
    rw [Function.comp, pieceIn, pieceIn, second, start, stop, Nat.add_right_comm _ 1 i]
    rfl

theorem sum_length_pieces (position count : Nat) :
    ((d.pieces position count).map (·.length)).sum = count := by
  induction count using Nat.strong_induction_on generalizing position with
  | h count inductionHypothesis =>
    by_cases none : count = 0
    · subst none
      rfl
    · have remainder : position % sectorSize < sectorSize := Nat.mod_lt _ (by decide)
      rw [pieces_eq_cons (Nat.pos_of_ne_zero none), List.map_cons, List.sum_cons,
        inductionHypothesis _ (by omega)]
      exact Nat.add_sub_cancel' (Nat.min_le_left ..)

/-- Where the range begins in the `i`-th of its sectors, and that the piece does not leave it. -/
theorem pieceIn_place {i : Nat} (touches : i < touched position count) : ∃ place,
    position ≤ place ∧ place < position + count ∧
      place / sectorSize = position / sectorSize + i ∧
      (d.pieceIn position count i).sector = d.sectorAt place ∧
      0 < (d.pieceIn position count i).length ∧
      (d.pieceIn position count i).offset + (d.pieceIn position count i).length ≤ sectorSize := by
  refine ⟨max position ((position / sectorSize + i) * sectorSize), Nat.le_max_left .., ?_, ?_, rfl,
    ?_, ?_⟩
  all_goals
    simp only [touched, pieceIn, sectorSize] at touches ⊢
    split at touches <;> omega

theorem tiles_pieces (numbered : d.Numbered) (fits : count ≤ d.size - position) :
    d.Tiles position count (d.pieces position count) where
  number := length_pieces
  sector i inside := by
    rw [length_pieces] at inside
    obtain ⟨place, behind, before, quotient, sector, -⟩ := pieceIn_place (d := d) inside
    rw [getElem_pieces, sector, toNat_sectorAt numbered (by omega), quotient, Nat.add_assoc]
  inside := by
    rw [pieces, List.forall_mem_map]
    intro i member
    obtain ⟨_, -, -, -, -, inside⟩ := pieceIn_place (d := d) (List.mem_range.mp member)
    exact inside
  total := sum_length_pieces position count
  first some_left := by
    rw [getElem_pieces, pieceIn]
    simp only [sectorSize]
    omega
  begins i inside notFirst := by
    rw [getElem_pieces, pieceIn]
    simp only [sectorSize]
    omega
  ends i notLast := by
    rw [length_pieces, touched] at notLast
    rw [getElem_pieces, pieceIn]
    simp only [sectorSize] at notLast ⊢
    split at notLast <;> omega

/-- A piece lies in a data sector of the file. -/
theorem exists_sectorAt_of_mem_pieces (fits : count ≤ d.size - position) {piece : Piece}
    (member : piece ∈ d.pieces position count) : ∃ place < d.size,
      piece.sector = d.sectorAt place ∧ piece.offset + piece.length ≤ sectorSize := by
  obtain ⟨i, touches, rfl⟩ := List.mem_map.mp member
  obtain ⟨place, behind, before, -, sector, -, inside⟩ :=
    pieceIn_place (d := d) (List.mem_range.mp touches)
  exact ⟨place, by omega, sector, inside⟩

/-- What is cut off a request is the first piece of what is granted. -/
theorem pieces_of_nextPiece? {piece : Piece}
    (found : d.nextPiece? position count = .ok (some piece)) :
    d.pieces position (d.granted position count) = piece ::
      d.pieces (position + piece.length)
        (d.granted (position + piece.length) (count - piece.length)) := by
  obtain ⟨some_left, piece_eq⟩ := nextPiece?_eq_some found
  have rest : d.granted position count - piece.length =
      d.granted (position + piece.length) (count - piece.length) :=
    Nat.sub_eq_of_eq_add' (granted_eq_add found)
  rw [pieces_eq_cons some_left, ← rest, piece_eq]

end Descriptor

/-! ## Accesses piece by piece -/

namespace Piece

def reading (piece : Piece) : CacheCall :=
  .read piece.sector piece.offset piece.length

def writing (piece : Piece) (data : List UInt8) : CacheCall :=
  .write piece.sector piece.offset data

end Piece

namespace Descriptor

/-- The accesses that read a range of a file. -/
def reads (d : Descriptor) (position count : Nat) : List CacheCall :=
  (d.pieces position count).map Piece.reading

/-- What is to be written, cut where the pieces are. -/
def chunks (d : Descriptor) (position : Nat) (data : List UInt8) : List (List UInt8) :=
  ((d.pieces position data.length).map (·.length)).splitLengths data

/-- The accesses that write `data` to a file. -/
def writes (d : Descriptor) (position : Nat) (data : List UInt8) : List CacheCall :=
  (d.pieces position data.length).zipWith Piece.writing (d.chunks position data)

variable {d : Descriptor} {position count : Nat} {piece : Piece} {data : List UInt8}

theorem flatten_chunks : (d.chunks position data).flatten = data :=
  List.flatten_splitLengths _ _ (Nat.le_of_eq (sum_length_pieces ..).symm)

theorem map_length_chunks :
    (d.chunks position data).map List.length = (d.pieces position data.length).map (·.length) :=
  List.map_splitLengths_length _ _ (Nat.le_of_eq (sum_length_pieces ..))

theorem reads_of_nextPiece?
    (found : d.nextPiece? position count = .ok (some piece)) :
    d.reads position (d.granted position count) = piece.reading ::
      d.reads (position + piece.length)
        (d.granted (position + piece.length) (count - piece.length)) := by
  rw [reads, pieces_of_nextPiece? found, List.map_cons, reads]

theorem writes_of_nextPiece?
    (found : d.nextPiece? position data.length = .ok (some piece)) :
    d.writes position (data.take (d.granted position data.length)) =
      piece.writing (data.take piece.length) ::
        d.writes (position + piece.length) ((data.drop piece.length).take
          (d.granted (position + piece.length) (data.length - piece.length))) := by
  have share := granted_eq_add found
  have enough : d.granted position data.length ≤ data.length := Nat.min_le_left ..
  have cut := pieces_of_nextPiece? found
  -- with names for what is granted of the whole and of the rest, the data is cut once more
  generalize d.granted position data.length = whole at share enough cut ⊢
  generalize d.granted (position + piece.length) (data.length - piece.length) = rest at share cut ⊢
  subst share
  have first : (data.take (piece.length + rest)).take piece.length = data.take piece.length := by
    rw [List.take_take, Nat.min_eq_left (Nat.le_add_right ..)]
  have others : (data.take (piece.length + rest)).drop piece.length =
      (data.drop piece.length).take rest := by
    rw [List.drop_take, Nat.add_sub_cancel_left]
  have lengthRest : ((data.drop piece.length).take rest).length = rest := by
    rw [List.length_take, List.length_drop]
    omega
  rw [writes, writes, chunks, chunks, List.length_take_of_le enough, cut, lengthRest]
  simp only [List.map_cons, List.splitLengths_cons, List.zipWith_cons_cons, first, others]

theorem exists_of_mem_writes {call : CacheCall} (member : call ∈ d.writes position data) :
    ∃ piece ∈ d.pieces position data.length,
      ∃ chunk : List UInt8, chunk.length ≤ piece.length ∧ call = piece.writing chunk := by
  obtain ⟨i, inside, rfl⟩ := List.mem_iff_getElem.mp member
  simp only [writes, chunks, List.length_zipWith, Nat.lt_min] at inside
  refine ⟨_, List.getElem_mem inside.1, _, ?_, List.getElem_zipWith⟩
  apply Nat.le_trans (List.length_splitLengths_getElem_le _ _)
  rw [List.getElem_map]

section Readable

variable {δ : Type} [BlockDevice δ] {medium : Medium δ}
  (readable : ∀ position < d.size, medium.Reads (d.sectorAt position) False)
include readable

theorem reads_readable (fits : count ≤ d.size - position) :
    ∀ call ∈ d.reads position count, ∃ s, call.accessed? = some s ∧ medium.Reads s False := by
  rw [reads, List.forall_mem_map]
  intro piece member
  obtain ⟨place, before, sector, range⟩ := exists_sectorAt_of_mem_pieces fits member
  refine ⟨piece.sector, if_pos range, ?_⟩
  rw [sector]
  exact readable place before

theorem writes_readable (fits : data.length ≤ d.size - position) :
    ∀ call ∈ d.writes position data, ∃ s, call.accessed? = some s ∧ medium.Reads s False := by
  intro call written
  obtain ⟨piece, member, chunk, short, rfl⟩ := exists_of_mem_writes written
  obtain ⟨place, before, sector, range⟩ := exists_sectorAt_of_mem_pieces fits member
  refine ⟨piece.sector, if_pos (Nat.le_trans (Nat.add_le_add_left short _) range), ?_⟩
  rw [sector]
  exact readable place before

end Readable

end Descriptor

namespace Cache

variable {δ : Type} [BlockDevice δ] {d : Descriptor}

theorem readFile_eq (numbered : d.Numbered) (position count : Nat) :
    (readFile d position count : Step (Cache δ) (List UInt8)) = do
      let found ← (d.reads position (d.granted position count)).mapM CacheCall.step
      return found.flatten := by
  fun_induction readFile with
  | case1 position count fault failed =>
    obtain ⟨before, without, -⟩ := Descriptor.nextPiece?_eq_error failed
    exact absurd (numbered.hasNumber before) without
  | case2 position count none =>
    rw [Descriptor.no_piece none]
    rfl
  | case3 position count piece found inductionHypothesis =>
    rw [inductionHypothesis, Descriptor.reads_of_nextPiece? found]
    simp only [List.mapM_cons, bind_assoc, pure_bind, List.flatten_cons]
    rfl

theorem writeFile_eq (numbered : d.Numbered) (position : Nat) {count : Nat} {data : List UInt8}
    (length : data.length = count) :
    (writeFile d position count data : Step (Cache δ) Nat) = do
      let _ ← (d.writes position (data.take (d.granted position count))).mapM CacheCall.step
      return d.granted position count := by
  fun_induction writeFile with
  | case1 position count data fault failed =>
    obtain ⟨before, without, -⟩ := Descriptor.nextPiece?_eq_error failed
    exact absurd (numbered.hasNumber before) without
  | case2 position count data none =>
    rw [Descriptor.no_piece none]
    rfl
  | case3 position count data piece found inductionHypothesis =>
    subst length
    rw [inductionHypothesis List.length_drop, Descriptor.writes_of_nextPiece? found,
      Descriptor.granted_eq_add found]
    simp only [List.mapM_cons, Piece.writing, CacheCall.step, bind_assoc, pure_bind]

end Cache

/-! ## Runs of accesses that succeed -/

namespace CacheCall

variable {δ : Type} {call : CacheCall} {s : SectorNo}

theorem inside_of_accessed {meant : SectorNo → Prop} (accessed : call.accessed? = some s)
    (holds : meant s) : call.Inside meant := by
  cases call with
  | read | write =>
    obtain ⟨range, same⟩ := Option.ite_none_right_eq_some.mp accessed
    cases same
    exact ⟨holds, range⟩
  | flush => cases accessed

variable [BlockDevice δ]

theorem answerable_of_inside {medium : Medium δ} (inside : call.Inside (medium.Reads · False)) :
    call.Answerable medium := by
  cases call with
  | read | write => exact fun _ => inside.1.mono False.elim
  | flush => trivial

/-- An access is one hit or one miss. -/
theorem step_counts (cache : Cache δ) (accessed : call.accessed? = some s) :
    Step.Ends call.step cache
      (fun _ after => after.stats.hits + after.stats.misses =
        cache.stats.hits + cache.stats.misses + 1) fun _ _ => True := by
  have counts (mode : Access) : Step.Ends (Cache.slotFor s mode) cache
      (fun _ after => after.stats.hits + after.stats.misses =
        cache.stats.hits + cache.stats.misses + 1) fun _ _ => True := by
    apply (Cache.slotFor_ends cache s mode).imp
    · rintro i after (finds | brings)
      · rw [finds.stats, UInt64.add_assoc, UInt64.add_comm 1, ← UInt64.add_assoc]
      · rw [brings.stats, UInt64.add_assoc]
    · exact fun _ _ _ => trivial
  exact (ends_of_access accessed _ (fun _ _ _ _ => id) counts).imp (fun _ _ ⟨_, holds⟩ => holds)
    fun _ _ => id

end CacheCall

namespace Cache

variable {δ : Type} [BlockDevice δ] {medium : Medium δ} {cache : Cache δ}

/-- The calls were made one after the other and all succeeded, and each was a hit or a miss. -/
structure Accesses (before : Cache δ) (calls : List CacheCall) (answers : List (List UInt8))
    (after : Cache δ) : Prop where
  serves : before.serve calls = (answers.map .ok, after)
  counts : after.stats.hits + after.stats.misses =
    before.stats.hits + before.stats.misses + .ofNat calls.length

/-- Accesses to sectors that can be read. -/
theorem Consistent.accesses (consistent : Consistent medium cache) {calls : List CacheCall}
    (certain : ∀ call ∈ calls, ∃ s, call.accessed? = some s ∧ medium.Reads s False) :
    Step.Yields (calls.mapM CacheCall.step) cache fun answers after =>
      cache.Accesses calls answers after := by
  induction calls generalizing cache with
  | nil => exact (Step.ends_pure []).mpr ⟨rfl, (UInt64.add_zero _).symm⟩
  | cons call rest inductionHypothesis =>
    obtain ⟨⟨s, accessed, reads⟩, others⟩ := List.forall_mem_cons.mp certain
    have inside : call.Inside (medium.Reads · False) := CacheCall.inside_of_accessed accessed reads
    have ends := (consistent.call_ends (CacheCall.answerable_of_inside inside)).and
      (CacheCall.step_counts cache accessed)
    cases run : call.step.run cache with
    | error fault after => exact absurd inside (ends.stopped_of_run run).1.1
    | ok bytes between =>
      obtain ⟨⟨-, consistentBetween, -⟩, counted⟩ := ends.done_of_run run
      obtain ⟨answers, after, runRest, serves, counts⟩ :=
        (inductionHypothesis consistentBetween others).run
      have whole : ((call :: rest).mapM CacheCall.step).run cache =
          .ok (bytes :: answers) after := by
        rw [List.mapM_cons, Step.run_bind_of_ok run, Step.run_bind_of_ok runRest]
        rfl
      refine Step.Ends.of_run whole ⟨?_, ?_⟩
      · rw [Cache.serve] at serves ⊢
        rw [List.map_cons, Step.runAll_cons_of_ok run, serves]
        rfl
      · rw [counts, counted, List.length_cons, UInt64.add_assoc, Nat.add_comm, UInt64.ofNat_add]
        rfl

end Cache

end Residency
