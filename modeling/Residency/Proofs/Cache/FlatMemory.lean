import Residency.Proofs.Cache.Access

/-!
# The cache as a flat memory

Whatever is asked of a cache, it answers as a plain memory of bytes would that starts with what is
on the device, is changed by writing only, and refuses what does not lie inside one of its sectors:
`answers_as_flat_memory`.  Evictions, refused calls and flushing do not show.  In front of a device
that may fail to read a sector, a memory still explains the answers of all calls that succeed
(`FlatMemory.Explains`, `Consistent.serve`).

`reachable_coherent` is the invariant behind it: in every state that a run reaches the slots and
the device are coherent, so that no writing to the device ever fails.
-/

namespace Residency

inductive CacheCall where
  | read (sector : SectorNo) (offset length : Nat)
  | write (sector : SectorNo) (offset : Nat) (data : List UInt8)
  | flush

/-- What a call does; only reading gives bytes. -/
def CacheCall.step {δ : Type} [BlockDevice δ] : CacheCall → Step (Cache δ) (List UInt8)
  | .read s offset length => Cache.read s offset length
  | .write s offset data => do
    Cache.write s offset data
    return []
  | .flush => do
    Cache.flush
    return []

/-- Makes calls one after the other, whether or not they fail; gives their results. -/
def Cache.serve {δ : Type} [BlockDevice δ] (cache : Cache δ) (calls : List CacheCall) :
    List (Except Fault (List UInt8)) × Cache δ :=
  Step.runAll (calls.map CacheCall.step) cache

def CacheCall.Lies (N : Nat) : CacheCall → Prop
  | .read s offset length => s.toNat < N ∧ offset + length ≤ sectorSize
  | .write s offset data => s.toNat < N ∧ offset + data.length ≤ sectorSize
  | .flush => True

instance (N : Nat) : DecidablePred (CacheCall.Lies N)
  | .read .. => inferInstanceAs (Decidable (_ ∧ _))
  | .write .. => inferInstanceAs (Decidable (_ ∧ _))
  | .flush => inferInstanceAs (Decidable True)

namespace CacheCall

variable {δ : Type} [BlockDevice δ] {N : Nat}

/-- What a call reads from the device it gets, or the reading fails and leaves everything as it
was. -/
def Answerable (medium : Medium δ) : CacheCall → Prop
  | .read s offset length => offset + length ≤ sectorSize → medium.Reads s True
  | .write s offset data => offset + data.length ≤ sectorSize → medium.Reads s True
  | .flush => True

theorem Answerable.traced {medium : Medium δ} {call : CacheCall}
    (answerable : call.Answerable medium) : call.Answerable medium.traced := by
  cases call with
  | read s offset length => exact fun range => (answerable range).traced
  | write s offset data => exact fun range => (answerable range).traced
  | flush => trivial

theorem answerable_of_bounded (storage : BoundedStorage δ N) (call : CacheCall) :
    call.Answerable storage.medium := by
  cases call with
  | read s offset length => exact fun _ => (storage.reads s).mono fun _ => trivial
  | write s offset data => exact fun _ => (storage.reads s).mono fun _ => trivial
  | flush => trivial

/-- A call that lies inside a sector, and inside one of those that are meant. -/
def Inside (meant : SectorNo → Prop) : CacheCall → Prop
  | .read s offset length => meant s ∧ offset + length ≤ sectorSize
  | .write s offset data => meant s ∧ offset + data.length ≤ sectorSize
  | .flush => True

theorem Inside.imp {meant meant' : SectorNo → Prop} {call : CacheCall} (inside : call.Inside meant)
    (more : ∀ s, meant s → meant' s) : call.Inside meant' := by
  cases call with
  | read s offset length => exact inside.imp_left (more s)
  | write s offset data => exact inside.imp_left (more s)
  | flush => trivial

theorem inside_iff_lies {call : CacheCall} : call.Inside (·.toNat < N) ↔ call.Lies N := by
  cases call <;> exact Iff.rfl

end CacheCall

abbrev FlatMemory := SectorNo → Nat → UInt8

namespace FlatMemory

def answer (memory : FlatMemory) : CacheCall → List UInt8
  | .read s offset length => (List.range length).map fun i => memory s (offset + i)
  | .write .. | .flush => []

def after (memory : FlatMemory) : CacheCall → FlatMemory
  | .write s offset data => fun t i =>
    if t = s ∧ offset ≤ i ∧ i < offset + data.length then data.getD (i - offset) 0 else memory t i
  | .read .. | .flush => memory

/-- The answers to calls that are made one after the other, none for those that are refused. -/
def answers (N : Nat) (memory : FlatMemory) : List CacheCall → List (Option (List UInt8))
  | [] => []
  | call :: rest =>
    if call.Lies N then some (memory.answer call) :: (memory.after call).answers N rest
    else none :: memory.answers N rest

def ofSectors (sectors : SectorNo → Sector) : FlatMemory :=
  fun s i => (sectors s).byteAt i

theorem ofSectors_write (sectors : SectorNo → Sector) {s : SectorNo} {offset : Nat}
    {data : List UInt8} (inside : offset + data.length ≤ sectorSize) :
    ofSectors (Function.update sectors s ((sectors s).overwrite offset data)) =
      (ofSectors sectors).after (.write s offset data) := by
  funext t i
  simp only [ofSectors, after]
  by_cases same : t = s
  · subst same
    rw [Function.update_self, Block.byteAt_overwrite]
    congr 1
    simp only [true_and, eq_iff_iff, and_iff_right_iff_imp, and_imp]
    omega
  · rw [Function.update_of_ne same, if_neg fun both => same both.1]

/-! ## Answers in front of a device whose reading may fail -/

section Explaining

variable {δ : Type} [BlockDevice δ] {N : Nat} {medium : Medium δ} {memory last : FlatMemory}
  {calls : List CacheCall} {answers : List (Option (List UInt8))}

/-- The answers to calls are those of a memory, which becomes `last`.  A call that failed does not
count; none fails that lies inside a sector that can always be read. -/
inductive Explains (medium : Medium δ) :
    FlatMemory → List CacheCall → List (Option (List UInt8)) → FlatMemory → Prop where
  | nil (memory : FlatMemory) : Explains medium memory [] [] memory
  | answered {memory last : FlatMemory} {call : CacheCall} {calls : List CacheCall}
      {answers : List (Option (List UInt8))} (inside : call.Inside medium.Has)
      (rest : Explains medium (memory.after call) calls answers last) :
      Explains medium memory (call :: calls) (some (memory.answer call) :: answers) last
  | failed {memory last : FlatMemory} {call : CacheCall} {calls : List CacheCall}
      {answers : List (Option (List UInt8))} (uncertain : ¬ call.Inside (medium.Reads · False))
      (rest : Explains medium memory calls answers last) :
      Explains medium memory (call :: calls) (none :: answers) last

/-- Calls that are made later are explained from the memory that was reached. -/
theorem Explains.append {reached : FlatMemory} {later : List CacheCall}
    {answersLater : List (Option (List UInt8))}
    (explains : Explains medium memory calls answers reached)
    (explainsLater : Explains medium reached later answersLater last) :
    Explains medium memory (calls ++ later) (answers ++ answersLater) last := by
  induction explains with
  | nil memory => exact explainsLater
  | answered inside rest inductionHypothesis =>
    exact .answered inside (inductionHypothesis explainsLater)
  | failed uncertain rest inductionHypothesis =>
    exact .failed uncertain (inductionHypothesis explainsLater)

/-- That there is an account of the transfers does not show. -/
theorem Explains.untraced (explains : Explains medium.traced memory calls answers last) :
    Explains medium memory calls answers last := by
  induction explains with
  | nil memory => exact .nil memory
  | answered inside rest inductionHypothesis => exact .answered inside inductionHypothesis
  | failed uncertain rest inductionHypothesis =>
    exact .failed (fun certain => uncertain (certain.imp fun _ => Medium.Reads.traced))
      inductionHypothesis

/-- In front of a storage exactly the calls that lie inside it are answered. -/
theorem Explains.answers_eq {storage : Storage δ N}
    (explains : Explains storage.medium memory calls answers last) :
    answers = memory.answers N calls := by
  induction explains with
  | nil memory => rfl
  | answered inside rest inductionHypothesis =>
    rw [FlatMemory.answers, if_pos (CacheCall.inside_iff_lies.mp inside), inductionHypothesis]
  | failed uncertain rest inductionHypothesis =>
    have outside : ¬ CacheCall.Lies N _ := fun lies =>
      uncertain ((CacheCall.inside_iff_lies.mpr lies).imp fun _ => storage.reads)
    rw [FlatMemory.answers, if_neg outside, inductionHypothesis]

end Explaining

end FlatMemory

namespace Cache

variable {δ : Type} [BlockDevice δ] {N : Nat}

section Calls

variable {medium : Medium δ} {cache : Cache δ}

/-- A call that succeeds is answered from the view, and changes it in the same way; one that fails
changes nothing of it. -/
theorem Consistent.call_ends (consistent : Consistent medium cache) {call : CacheCall}
    (answerable : call.Answerable medium) :
    Step.Ends call.step cache
      (fun bytes after => call.Inside medium.Has ∧ Consistent medium after ∧
        FlatMemory.ofSectors (after.view medium.sector) =
          (FlatMemory.ofSectors (cache.view medium.sector)).after call ∧
        bytes = (FlatMemory.ofSectors (cache.view medium.sector)).answer call)
      fun _ after => ¬ call.Inside (medium.Reads · False) ∧ Consistent medium after ∧
        after.view medium.sector = cache.view medium.sector := by
  cases call with
  | read s offset length =>
    by_cases range : offset + length ≤ sectorSize
    · apply (consistent.read_ends (answerable range).sharp range).imp
      · rintro bytes after ⟨has, rfl, consistentAfter, view⟩
        refine ⟨⟨has, range⟩, consistentAfter, by rw [view]; rfl, ?_⟩
        rw [Block.slice_eq_map_byteAt _ range]
        rfl
      · exact fun _ _ ⟨uncertain, same⟩ => ⟨fun inside => uncertain inside.1, same⟩
    · rw [CacheCall.step, Cache.read, Step.ends_bind]
      apply (ensureInside_refuses (Nat.not_le.mp range)).imp
      · exact fun _ _ impossible => impossible.elim
      · rintro _ _ rfl
        exact ⟨fun inside => range inside.2, consistent, rfl⟩
  | write s offset data =>
    rw [CacheCall.step, Step.ends_bind]
    by_cases range : offset + data.length ≤ sectorSize
    · apply (consistent.write_ends (answerable range).sharp range).imp
      · rintro _ after ⟨has, consistentAfter, view⟩
        rw [Step.ends_pure, view, FlatMemory.ofSectors_write _ range]
        exact ⟨⟨has, range⟩, consistentAfter, rfl, rfl⟩
      · exact fun _ _ ⟨uncertain, same⟩ => ⟨fun inside => uncertain inside.1, same⟩
    · rw [Cache.write, Step.ends_bind]
      apply (ensureInside_refuses (Nat.not_le.mp range)).imp
      · exact fun _ _ impossible => impossible.elim
      · rintro _ _ rfl
        exact ⟨fun inside => range inside.2, consistent, rfl⟩
  | flush =>
    apply Step.Yields.bind consistent.flush_yields
    intro _ after ended
    obtain ⟨consistentAfter, view, -⟩ := ended
    rw [Step.ends_pure]
    exact ⟨trivial, consistentAfter, by rw [view]; rfl, rfl⟩

/-- From a consistent cache on, the answers are those of a flat memory that starts as its view, and
the view at the end is what has become of that memory. -/
theorem Consistent.serve (consistent : Consistent medium cache) {calls : List CacheCall}
    (answerable : ∀ call ∈ calls, call.Answerable medium) :
    Consistent medium (cache.serve calls).2 ∧
      FlatMemory.Explains medium (FlatMemory.ofSectors (cache.view medium.sector)) calls
        ((cache.serve calls).1.map Except.toOption)
        (FlatMemory.ofSectors ((cache.serve calls).2.view medium.sector)) := by
  -- the view of the cache is the memory at every point, so the memory goes along with the cache
  induction calls generalizing cache with
  | nil => exact ⟨consistent, .nil _⟩
  | cons call rest inductionHypothesis =>
    obtain ⟨first, others⟩ := List.forall_mem_cons.mp answerable
    have ends := consistent.call_ends first
    cases run : call.step.run cache with
    | ok bytes after =>
      obtain ⟨inside, consistentAfter, memory, rfl⟩ := ends.done_of_run run
      obtain ⟨consistentEnd, explains⟩ := inductionHypothesis consistentAfter others
      rw [memory] at explains
      rw [Cache.serve, List.map_cons, Step.runAll_cons_of_ok run]
      exact ⟨consistentEnd, .answered inside explains⟩
    | error fault after =>
      obtain ⟨uncertain, consistentAfter, view⟩ := ends.stopped_of_run run
      obtain ⟨consistentEnd, explains⟩ := inductionHypothesis consistentAfter others
      rw [view] at explains
      rw [Cache.serve, List.map_cons, Step.runAll_cons_of_error run]
      exact ⟨consistentEnd, .failed uncertain explains⟩

/-- The caches that runs of calls reach, each the only user of a device in service from the start. -/
inductive Reachable (medium : Medium δ) : Cache δ → Prop where
  | run (device : δ) (calls : List CacheCall) (serves : medium.Serves device)
      (answerable : ∀ call ∈ calls, call.Answerable medium) :
      Reachable medium (({ device } : Cache δ).serve calls).2

theorem Reachable.consistent (reachable : Reachable medium cache) : Consistent medium cache := by
  cases reachable with
  | run _ _ serves answerable => exact ((Consistent.fresh medium serves).1.serve answerable).1

end Calls

namespace Coherent

variable {storage : BoundedStorage δ N} {cache : Cache δ}

theorem answers_of_calls (coherent : Coherent storage.toStorage cache)
    (calls : List CacheCall) :
    (cache.serve calls).1.map Except.toOption =
      (FlatMemory.ofSectors (cache.view storage.sector)).answers N calls :=
  ((coherent_iff.mp coherent).serve fun call _ =>
    call.answerable_of_bounded storage).2.answers_eq

theorem serve (coherent : Coherent storage.toStorage cache) (calls : List CacheCall) :
    Coherent storage.toStorage (cache.serve calls).2 :=
  coherent_iff.mpr ((coherent_iff.mp coherent).serve fun call _ =>
    call.answerable_of_bounded storage).1

end Coherent

end Cache

namespace Cache

variable {δ : Type} [BlockDevice δ] {N : Nat}

/-- A new cache in front of a device of `N` sectors, which nobody else uses, answers every run of
calls as the flat memory does that starts with the contents of the device: each call that lies
inside a sector succeeds, reading gives the bytes that were last written, and a call that fails
changes nothing. -/
theorem answers_as_flat_memory (storage : BoundedStorage δ N) {device : δ}
    (serves : storage.Serves device) (calls : List CacheCall) :
    (({ device } : Cache δ).serve calls).1.map Except.toOption =
      (FlatMemory.ofSectors (storage.sector device)).answers N calls := by
  obtain ⟨coherent, view⟩ := Coherent.fresh storage.toStorage serves
  rw [coherent.answers_of_calls calls, view]

theorem answers_on_two_sectors :
    (RamDisk.storage 2).Serves { sectors := 2 } ∧
      (({ device := { sectors := 2 } } : Cache RamDisk).serve [.write ⟨1⟩ 3 [7, 8], .read ⟨2⟩ 0 1,
          .flush, .write ⟨0⟩ 511 [9, 9], .read ⟨1⟩ 2 4]).1.map Except.toOption =
        [some [], none, some [], none, some [0, 7, 8, 0]] := by
  have serves : (RamDisk.storage 2).Serves { sectors := 2 } := rfl
  refine ⟨serves, ?_⟩
  rw [answers_as_flat_memory (RamDisk.storage 2) serves]
  decide

/-- In every state that a run of calls on a new cache reaches, the slots and the device are
coherent.  All that is ever written to the device, also when the cache is flushed at the end, are
sectors that it has, and no writing fails. -/
theorem reachable_coherent (storage : BoundedStorage δ N) {device : δ}
    (serves : storage.Serves device) (calls : List CacheCall) :
    let reached := (({ device } : Cache δ).serve calls).2
    let flushed := (({ device := { device } } : Cache (Watched δ)).serve (calls ++ [.flush])).2
    reached.slots.toList.length = slotCount ∧ (reached.hand : Nat) < slotCount ∧
      Coherent storage.toStorage reached ∧
      ∀ entry ∈ flushed.device.writes, entry.1.toNat < N ∧ entry.2 = true := by
  intro reached flushed
  refine ⟨Vector.length_toList, Fin.isLt _, ?_, ?_⟩
  · exact (Coherent.fresh storage.toStorage serves).1.serve calls
  · -- a watched device is out of service after a wrong or failing transfer, and coherence keeps it in
    have watched : storage.watched.Serves { device } := ⟨serves, by simp⟩
    exact ((Coherent.fresh storage.watched.toStorage watched).1.serve _).serves.2

theorem reachable_coherent_on_two_sectors :
    (RamDisk.storage 2).Serves { sectors := 2 } ∧
      Coherent (RamDisk.storage 2).toStorage (({ device := { sectors := 2 } } : Cache RamDisk).serve
        [.write ⟨1⟩ 3 [7, 8], .read ⟨2⟩ 0 1]).2 := by
  have serves : (RamDisk.storage 2).Serves { sectors := 2 } := rfl
  exact ⟨serves, (reachable_coherent (RamDisk.storage 2) serves _).2.2.1⟩

end Cache

end Residency
