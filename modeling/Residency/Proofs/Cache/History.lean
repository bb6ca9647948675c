import Residency.Proofs.Cache.Durability

/-!
# The history of a cache

A run of calls, call by call.  An `Episode` is one call that was made, with the cache before it and
the cache after it, and `Cache.history` lists those of a run.

What a call may do, in front of any device with an account of its transfers, is `CacheCall.Does`: it
finds the sector that it accesses, or brings it in, or flushes.  A call that does none of it has
failed, and has left all sectors in their slots (`CacheCall.step_ends`).

Of the device as such, `CacheCall.ends_of_transfers` says that a call does nothing to it but read
sectors and write those that it lacks: what these transfers keep, the call keeps.
-/

namespace Residency

namespace CacheCall

/-- The sector that a call accesses.  A call that reaches past the end of its sector is refused and
accesses none. -/
def accessed? : CacheCall → Option SectorNo
  | .read s offset length => if offset + length ≤ sectorSize then some s else none
  | .write s offset data => if offset + data.length ≤ sectorSize then some s else none
  | .flush => none

/-- A call that does not reach past the end of its sector. -/
def Fits (call : CacheCall) : Prop :=
  call.Inside fun _ => True

instance : DecidablePred CacheCall.Fits
  | .read .. => inferInstanceAs (Decidable (True ∧ _))
  | .write .. => inferInstanceAs (Decidable (True ∧ _))
  | .flush => inferInstanceAs (Decidable True)

def isFlush : CacheCall → Bool
  | .flush => true
  | .read .. | .write .. => false

/-- How a call accesses its sector, if it does. -/
def mode : CacheCall → Access
  | .write .. => .write
  | .read .. | .flush => .read

theorem accessed?_eq_none {call : CacheCall} (refused : ¬ call.Fits) : call.accessed? = none := by
  cases call with
  | read s offset length => exact if_neg fun range => refused ⟨trivial, range⟩
  | write s offset data => exact if_neg fun range => refused ⟨trivial, range⟩
  | flush => rfl

theorem fits_of_accessed {call : CacheCall} {s : SectorNo} (accessed : call.accessed? = some s) :
    call.Fits := by
  by_contra refused
  rw [accessed?_eq_none refused] at accessed
  cases accessed

/-- A call accesses a sector, or flushes, or is refused. -/
theorem fits_cases (call : CacheCall) :
    (∃ s, call.accessed? = some s) ∨ call = .flush ∨ ¬ call.Fits := by
  by_cases fits : call.Fits
  · cases call with
    | read s offset length => exact Or.inl ⟨s, if_pos fits.2⟩
    | write s offset data => exact Or.inl ⟨s, if_pos fits.2⟩
    | flush => exact Or.inr (Or.inl rfl)
  · exact Or.inr (Or.inr fits)

theorem isFlush_eq_false {call : CacheCall} {s : SectorNo} (accessed : call.accessed? = some s) :
    call.isFlush = false := by
  cases call with
  | read | write => rfl
  | flush => cases accessed

end CacheCall

/-! ## Episodes -/

/-- A call that was made, with the cache that it found and the one that it left. -/
structure Episode (δ : Type) where
  call : CacheCall
  before : Cache δ
  result : Except Fault (List UInt8)
  after : Cache δ

namespace Episode

variable {δ : Type}

/-- Whether the call accessed a sector that had a slot. -/
def isHit (episode : Episode δ) : Bool :=
  episode.call.accessed?.any (· ∈ episode.before.resident)

/-- Whether the call accessed a sector that had no slot. -/
def isMiss (episode : Episode δ) : Bool :=
  episode.call.accessed?.any (· ∉ episode.before.resident)

theorem isHit_eq {episode : Episode δ} {s : SectorNo}
    (accessed : episode.call.accessed? = some s) :
    episode.isHit = decide (s ∈ episode.before.resident) := by
  rw [isHit, accessed, Option.any_some]

theorem isMiss_eq {episode : Episode δ} {s : SectorNo}
    (accessed : episode.call.accessed? = some s) :
    episode.isMiss = decide (s ∉ episode.before.resident) := by
  rw [isMiss, accessed, Option.any_some]

/-- The sectors that have lost their slots. -/
def evicted (episode : Episode δ) : List SectorNo :=
  episode.before.resident.filter (· ∉ episode.after.resident)

/-- The transfers that the call has asked for. -/
def transfers (episode : Episode (Traced δ)) : List Transfer :=
  episode.after.device.transfers.drop episode.before.device.transfers.length

theorem transfers_eq {episode : Episode (Traced δ)} {transfers : List Transfer}
    (account : episode.after.device.transfers = episode.before.device.transfers ++ transfers) :
    episode.transfers = transfers := by
  rw [Episode.transfers, account, List.drop_left]

end Episode

section Making

variable {δ : Type} [BlockDevice δ] {call : CacheCall} {cache : Cache δ}

/-- Makes a call. -/
def CacheCall.made (call : CacheCall) (cache : Cache δ) : Episode δ :=
  match call.step.run cache with
  | .ok bytes after => { call, before := cache, result := .ok bytes, after }
  | .error fault after => { call, before := cache, result := .error fault, after }

@[simp] theorem CacheCall.made_call : (call.made cache).call = call := by
  unfold CacheCall.made
  split <;> rfl

@[simp] theorem CacheCall.made_before : (call.made cache).before = cache := by
  unfold CacheCall.made
  split <;> rfl

/-- How a call was made is how its step ends. -/
theorem CacheCall.made_cases {done : List UInt8 → Cache δ → Prop}
    {stopped : Fault → Cache δ → Prop} (ends : Step.Ends call.step cache done stopped) :
    (∃ bytes, (call.made cache).result = .ok bytes ∧ done bytes (call.made cache).after) ∨
      ∃ fault, (call.made cache).result = .error fault ∧ stopped fault (call.made cache).after := by
  unfold CacheCall.made
  cases run : call.step.run cache with
  | ok bytes after => exact Or.inl ⟨bytes, rfl, ends.done_of_run run⟩
  | error fault after => exact Or.inr ⟨fault, rfl, ends.stopped_of_run run⟩

/-- Makes calls one after the other, and keeps all that there was on the way. -/
def Cache.history (cache : Cache δ) : List CacheCall → List (Episode δ)
  | [] => []
  | call :: rest => call.made cache :: (call.made cache).after.history rest

theorem Cache.serve_nil : (cache.serve []).2 = cache :=
  rfl

theorem Cache.serve_cons (rest : List CacheCall) :
    (cache.serve (call :: rest)).2 = ((call.made cache).after.serve rest).2 := by
  unfold CacheCall.made
  rw [Cache.serve, List.map_cons]
  cases run : call.step.run cache with
  | ok bytes after => rw [Step.runAll_cons_of_ok run]; rfl
  | error fault after => rw [Step.runAll_cons_of_error run]; rfl

theorem Cache.map_call_history (cache : Cache δ) (calls : List CacheCall) :
    (cache.history calls).map (·.call) = calls := by
  induction calls generalizing cache with
  | nil => rfl
  | cons call rest inductionHypothesis =>
    rw [Cache.history, List.map_cons, CacheCall.made_call, inductionHypothesis]

theorem Cache.call_mem_of_mem_history {calls : List CacheCall} {episode : Episode δ}
    (member : episode ∈ cache.history calls) : episode.call ∈ calls := by
  have called : episode.call ∈ (cache.history calls).map (·.call) := List.mem_map_of_mem member
  rwa [Cache.map_call_history] at called

theorem Cache.exists_made_of_mem_history {calls : List CacheCall} {episode : Episode δ}
    (member : episode ∈ cache.history calls) :
    ∃ (call : CacheCall) (before : Cache δ), episode = call.made before := by
  induction calls generalizing cache with
  | nil => exact absurd member List.not_mem_nil
  | cons call rest inductionHypothesis =>
    rcases List.mem_cons.mp member with rfl | later
    · exact ⟨call, cache, rfl⟩
    · exact inductionHypothesis later

/-- What every call of a run preserves, the run preserves. -/
theorem Cache.history_invariant (invariant : Cache δ → Prop)
    (preserved : ∀ (call : CacheCall) cache, invariant cache → invariant (call.made cache).after)
    (start : invariant cache) (calls : List CacheCall) :
    (∀ episode ∈ cache.history calls, invariant episode.before) ∧
      invariant (cache.serve calls).2 := by
  induction calls generalizing cache with
  | nil => exact ⟨fun _ none => absurd none List.not_mem_nil, start⟩
  | cons call rest inductionHypothesis =>
    obtain ⟨later, last⟩ := inductionHypothesis (preserved call cache start)
    rw [Cache.serve_cons]
    refine ⟨List.forall_mem_cons.mpr ⟨?_, later⟩, last⟩
    rw [CacheCall.made_before]
    exact start

end Making

/-! ## What a call does -/

namespace CacheCall

variable {δ : Type} [BlockDevice δ] {cache : Cache δ} {call : CacheCall}

/-- A call that accesses a sector does what finding the slot of the sector does, whatever becomes of
the bytes in that slot. -/
theorem ends_of_access {s : SectorNo} (accessed : call.accessed? = some s)
    (done : Access → Fin slotCount → Cache δ → Prop) {stopped : Fault → Cache δ → Prop}
    (modified : ∀ mode i after (f : Sector → Sector), done mode i after →
      done mode i (after.modifySlot i fun slot => { slot with data := f slot.data }))
    (reaches : ∀ mode, Step.Ends (Cache.slotFor s mode) cache (done mode) stopped) :
    Step.Ends call.step cache (fun _ after => ∃ i, done call.mode i after) stopped := by
  cases call with
  | read t offset length =>
    obtain ⟨range, same⟩ := Option.ite_none_right_eq_some.mp accessed
    cases same
    apply Step.Yields.bind (Cache.ensureInside_yields range)
    rintro - start rfl
    apply Step.Ends.bind (reaches .read)
    intro i after holds
    simp only [Step.ends_bind, Step.ends_get, Step.ends_pure]
    exact ⟨i, holds⟩
  | write t offset data =>
    obtain ⟨range, same⟩ := Option.ite_none_right_eq_some.mp accessed
    cases same
    rw [CacheCall.step, Cache.write, Step.ends_bind]
    apply Step.Yields.bind (Cache.ensureInside_yields range)
    rintro - start rfl
    apply Step.Ends.bind (reaches .write)
    intro i after holds
    simp only [Step.ends_modify, Step.ends_pure]
    exact ⟨i, modified .write i after (·.overwrite offset data) holds⟩
  | flush => cases accessed

theorem ends_of_refused (refused : ¬ call.Fits) :
    Step.Ends call.step cache (fun _ _ => False) fun _ after => after = cache := by
  cases call with
  | read s offset length =>
    have outside : sectorSize < offset + length :=
      Nat.not_le.mp fun range => refused ⟨trivial, range⟩
    rw [CacheCall.step, Cache.read, Step.ends_bind]
    exact (Cache.ensureInside_refuses outside).imp (fun _ _ impossible => impossible.elim)
      fun _ _ => id
  | write s offset data =>
    have outside : sectorSize < offset + data.length :=
      Nat.not_le.mp fun range => refused ⟨trivial, range⟩
    rw [CacheCall.step, Cache.write, Step.ends_bind, Step.ends_bind]
    exact (Cache.ensureInside_refuses outside).imp (fun _ _ impossible => impossible.elim)
      fun _ _ => id
  | flush => exact absurd trivial refused

section Transfers

variable {kept failed : δ → Prop}
  (reading : ∀ s buffer device, kept device → Step.Ends (readBlock s) (buffer, device)
    (fun _ after => kept after.2) fun _ after => failed after.2)
  (writing : ∀ (i : Fin slotCount) s data device, (cache.slot i).unsaved? = some (s, data) →
    kept device → Step.Ends (writeBlock s data) device (fun _ after => kept after)
      fun _ after => failed after)

include writing in
theorem save_of_transfers (i : Fin slotCount) (device : δ) (start : kept device) :
    Step.Ends (cache.slot i).save device (fun _ after => kept after)
      fun _ after => failed after := by
  rw [Slot.save]
  cases unsaved : (cache.slot i).unsaved? with
  | none => exact (Step.ends_pure _).mpr start
  | some entry => exact writing i entry.1 entry.2 device unsaved start

include writing in
theorem flush_of_transfers (start : kept cache.device) :
    Step.Ends Cache.flush cache (fun _ after => kept after.device)
      fun _ after => failed after.device := by
  -- the slots that are left still lack on the device what they lacked at first
  let invariant (left : List (Fin slotCount)) (reached : Cache δ) : Prop :=
    left.Nodup ∧ (∀ j ∈ left, reached.slot j = cache.slot j) ∧ kept reached.device
  have each (i : Fin slotCount) (left : List (Fin slotCount)) (reached : Cache δ) :
      invariant (i :: left) reached →
        Step.Ends (Cache.flushSlot i) reached (fun _ after => invariant left after)
          fun _ after => failed after.device := by
    rintro ⟨distinct, slots, holds⟩
    obtain ⟨new, distinct⟩ := List.nodup_cons.mp distinct
    obtain ⟨first, slots⟩ := List.forall_mem_cons.mp slots
    rw [Cache.flushSlot, Step.ends_bind, Cache.ends_saveSlot, first]
    apply (save_of_transfers writing i reached.device holds).imp
    · intro _ device holds
      split
      · refine (Step.ends_modify _).mpr ⟨distinct, fun j member => ?_, holds⟩
        have other : i ≠ j := by
          rintro rfl
          exact new member
        rw [Cache.slot_modifySlot, if_neg other]
        exact slots j member
      · exact (Step.ends_pure _).mpr ⟨distinct, slots, holds⟩
    · exact fun _ _ => id
  apply (Step.Ends.forM invariant each _ ⟨List.nodup_finRange _, fun _ _ => rfl, start⟩).imp
  · exact fun _ _ ended => ended.2.2
  · exact fun _ _ => id

include reading writing in
theorem slotFor_of_transfers (start : kept cache.device) (s : SectorNo) (mode : Access) :
    Step.Ends (Cache.slotFor s mode) cache (fun _ after => kept after.device)
      fun _ after => failed after.device := by
  cases found : cache.find? s with
  | some i =>
    apply Step.Yields.imp (Cache.slotFor_yields_of_found mode found)
    rintro _ after ⟨-, finds⟩
    rw [finds.device]
    exact start
  | none =>
    apply (Cache.ends_slotFor_of_absent mode (Cache.find?_eq_none_iff.mp found)).mpr
    have brings := Cache.ends_bringIn (s := s) mode failed (fun _ device => kept device)
      (save_of_transfers writing cache.victim cache.device start)
      fun device holds => reading s _ device holds
    exact brings.imp (fun _ _ => And.right) fun _ _ => And.right

include reading writing in
/-- A call does nothing to the device but read sectors and write what the slots have and the device
lacks.  It fails only where one of these fails, or because it is refused. -/
theorem ends_of_transfers (start : kept cache.device) (call : CacheCall) :
    Step.Ends call.step cache (fun _ after => kept after.device)
      fun _ after => failed after.device ∨ ¬ call.Fits ∧ after = cache := by
  rcases call.fits_cases with ⟨s, accessed⟩ | rfl | refused
  · have ends := ends_of_access accessed (fun _ _ after => kept after.device)
      (fun _ _ _ _ => id) (slotFor_of_transfers reading writing start s)
    exact ends.imp (fun _ _ ⟨_, holds⟩ => holds) fun _ _ => Or.inl
  · rw [CacheCall.step, Step.ends_bind]
    exact (flush_of_transfers writing start).imp
      (fun _ _ holds => (Step.ends_pure _).mpr holds) fun _ _ => Or.inl
  · exact (ends_of_refused refused).imp (fun _ _ => False.elim)
      fun _ _ same => Or.inr ⟨refused, same⟩

end Transfers

end CacheCall

namespace Cache

variable {δ : Type}

/-- A sector that had no slot was brought into the slot `i`, after what that slot held was written
to the device if it was changed. -/
structure Loads (before : Cache (Traced δ)) (s : SectorNo) (mode : Access) (i : Fin slotCount)
    (after : Cache (Traced δ)) : Prop where
  absent : ∀ j : Fin slotCount, (before.slot j).sector ≠ some s
  brings : BringsIn before s mode i after
  transfers : after.device.transfers =
    before.device.transfers ++ ((before.slot i).unsaved?.toList.map .saving ++ [.read s])

theorem Loads.modifyData {before after : Cache (Traced δ)} {s : SectorNo} {mode : Access}
    {i : Fin slotCount} (loads : Loads before s mode i after) (f : Sector → Sector) :
    Loads before s mode i (after.modifySlot i fun slot => { slot with data := f slot.data }) :=
  ⟨loads.absent, loads.brings.modifyData f, loads.transfers⟩

variable [BlockDevice δ]

theorem readBlock_traced (s : SectorNo) (buffer : Sector) (traced : Traced δ) :
    Step.Ends (readBlock s) (buffer, traced)
      (fun _ after => after.2.transfers = traced.transfers ++ [.read s]) fun _ _ => True := by
  simp only [readBlock, Step.ends_bind, Step.ends_modify, Step.ends_on]
  apply (Step.ends_run _ _).imp
  · exact fun _ _ _ => List.reverse_cons
  · exact fun _ _ _ => trivial

theorem slotFor_ends_traced (cache : Cache (Traced δ)) (s : SectorNo) (mode : Access) :
    Step.Ends (slotFor s mode) cache
      (fun i after => Finds cache s mode i after ∨ Loads cache s mode i after)
      fun _ after => KeepsSectors cache after := by
  cases found : cache.find? s with
  | some i =>
    apply (slotFor_yields_of_found mode found).imp
    rintro chosen after ⟨rfl, finds⟩
    exact Or.inl finds
  | none =>
    have absent := find?_eq_none_iff.mp found
    apply (ends_slotFor_of_absent mode absent).mpr
    have brings := ends_bringIn (s := s) mode (fun _ => True)
      (fun _ device => device.transfers = cache.device.transfers ++
        ((cache.slot cache.victim).unsaved?.toList.map .saving ++ [.read s]))
      (save_traced (cache.slot cache.victim) cache.device) fun device saved =>
        (readBlock_traced s _ device).imp
          (fun _ _ read => by rw [read, saved, List.append_assoc]) fun _ _ => id
    apply brings.imp
    · rintro i after ⟨broughtIn, transfers⟩
      rw [← broughtIn.victim] at transfers
      exact Or.inr ⟨absent, broughtIn, transfers⟩
    · exact fun _ _ => And.left

end Cache

/-- What a call that succeeds does. -/
inductive CacheCall.Does {δ : Type} (call : CacheCall)
    (before after : Cache (Traced δ)) : Prop where
  | found {s : SectorNo} {mode : Access} {i : Fin slotCount} (accessed : call.accessed? = some s)
      (finds : Cache.Finds before s mode i after)
  | loaded {s : SectorNo} {mode : Access} {i : Fin slotCount} (accessed : call.accessed? = some s)
      (loads : Cache.Loads before s mode i after)
  | flushed (flush : call = .flush)
      (slots : ∀ i : Fin slotCount, after.slot i = (before.slot i).cleaned)
      (hand : after.hand = before.hand) (stats : after.stats = before.stats)
      (transfers : after.device.transfers =
        before.device.transfers ++ before.unsaved.map .saving)

namespace CacheCall

variable {δ : Type} [BlockDevice δ]

/-- A call that succeeds does one of three things; one that fails leaves all sectors in their slots,
and changes nothing at all if it is refused. -/
theorem step_ends {cache : Cache (Traced δ)} (orderly : cache.Orderly) (call : CacheCall) :
    Step.Ends call.step cache (fun _ after => call.Does cache after)
      fun _ after => cache.KeepsSectors after ∧ (call.Fits ∨ after = cache) := by
  rcases call.fits_cases with ⟨s, accessed⟩ | rfl | refused
  · have ends := ends_of_access accessed
      (fun mode i after => Cache.Finds cache s mode i after ∨ Cache.Loads cache s mode i after)
      (fun mode i after f reached => reached.imp (·.modifyData f) (·.modifyData f))
      (Cache.slotFor_ends_traced cache s)
    apply ends.imp
    · rintro _ after ⟨i, finds | loads⟩
      · exact .found accessed finds
      · exact .loaded accessed loads
    · exact fun _ _ keeps => ⟨keeps, Or.inl (fits_of_accessed accessed)⟩
  · rw [CacheCall.step, Step.ends_bind]
    apply (Cache.flush_ends_traced orderly).imp
    · rintro _ after ⟨slots, hand, stats, transfers⟩
      exact (Step.ends_pure _).mpr (.flushed rfl slots hand stats transfers)
    · exact fun _ _ keeps => ⟨keeps, Or.inl trivial⟩
  · apply (ends_of_refused refused).imp
    · exact fun _ _ impossible => impossible.elim
    · rintro _ _ rfl
      exact ⟨.refl _, Or.inr rfl⟩

omit [BlockDevice δ] in
theorem Does.orderly {call : CacheCall} {before after : Cache (Traced δ)}
    (does : call.Does before after) (orderly : before.Orderly) : after.Orderly := by
  cases does with
  | found accessed finds => exact finds.keepsSectors.orderly orderly
  | loaded accessed loads => exact loads.brings.orderly orderly loads.absent
  | flushed flush slots =>
    exact (orderly.keepsSectors_of_cleaned fun i => Or.inl (slots i)).orderly orderly

/-- A call that was made did what such calls do, or failed and left all sectors in their slots. -/
theorem made_does {cache : Cache (Traced δ)} (orderly : cache.Orderly) (call : CacheCall) :
    (∃ bytes, (call.made cache).result = .ok bytes) ∧ call.Does cache (call.made cache).after ∨
      (∃ fault, (call.made cache).result = .error fault) ∧
        cache.KeepsSectors (call.made cache).after ∧
        (call.Fits ∨ (call.made cache).after = cache) := by
  rcases call.made_cases (call.step_ends orderly) with ⟨bytes, ok, does⟩ | ⟨fault, error, keeps⟩
  · exact Or.inl ⟨⟨bytes, ok⟩, does⟩
  · exact Or.inr ⟨⟨fault, error⟩, keeps⟩

theorem does_of_ok {cache : Cache (Traced δ)} (orderly : cache.Orderly) {call : CacheCall}
    (succeeds : ∃ bytes, (call.made cache).result = .ok bytes) :
    call.Does cache (call.made cache).after := by
  rcases call.made_does orderly with ⟨-, does⟩ | ⟨⟨fault, error⟩, -⟩
  · exact does
  · obtain ⟨bytes, ok⟩ := succeeds
    cases ok.symm.trans error

theorem made_orderly {cache : Cache (Traced δ)} (orderly : cache.Orderly) (call : CacheCall) :
    (call.made cache).after.Orderly := by
  rcases call.made_does orderly with ⟨-, does⟩ | ⟨-, keeps, -⟩
  · exact does.orderly orderly
  · exact keeps.orderly orderly

end CacheCall

theorem Cache.Orderly.throughout {δ : Type} [BlockDevice δ] {cache : Cache (Traced δ)}
    (orderly : cache.Orderly) (calls : List CacheCall) :
    (∀ episode ∈ cache.history calls, episode.before.Orderly) ∧ (cache.serve calls).2.Orderly :=
  history_invariant Orderly (fun call _ holds => call.made_orderly holds) orderly calls

/-! ## Runs in front of a bounded storage -/

namespace Cache

variable {δ : Type} [BlockDevice δ] {N : Nat} {storage : BoundedStorage δ N}

theorem Consistent.made {medium : Medium δ} {cache : Cache δ} {call : CacheCall}
    (consistent : Consistent medium cache) (answerable : call.Answerable medium) :
    Consistent medium (call.made cache).after := by
  rcases call.made_cases (consistent.call_ends answerable) with
    ⟨_, -, -, consistentAfter, -⟩ | ⟨_, -, -, consistentAfter, -⟩
  · exact consistentAfter
  · exact consistentAfter

/-- A call changes the view as it changes a memory, or does not lie inside the storage. -/
theorem Consistent.view_made {cache : Cache δ} {memory : FlatMemory}
    (consistent : Consistent storage.medium cache)
    (view : FlatMemory.ofSectors (cache.view storage.sector) = memory) (call : CacheCall) :
    FlatMemory.ofSectors ((call.made cache).after.view storage.sector) =
      if call.Lies N then memory.after call else memory := by
  subst view
  rcases call.made_cases (consistent.call_ends (call.answerable_of_bounded storage)) with
    ⟨_, -, inside, -, written, -⟩ | ⟨_, -, uncertain, -, same⟩
  · rw [if_pos (CacheCall.inside_iff_lies.mp inside)]
    exact written
  · have outside : ¬ call.Lies N := fun lies =>
      uncertain ((CacheCall.inside_iff_lies.mpr lies).imp fun _ => storage.toStorage.reads)
    rw [if_neg outside]
    exact congrArg FlatMemory.ofSectors same

/-- Calls that lie inside the storage succeed. -/
theorem Consistent.history_succeeds {cache : Cache (Traced δ)}
    (consistent : Consistent storage.medium.traced cache) {calls : List CacheCall}
    {episode : Episode (Traced δ)} (member : episode ∈ cache.history calls)
    (lies : episode.call.Lies N) : ∃ bytes, episode.result = .ok bytes := by
  have answerable (call : CacheCall) : call.Answerable storage.medium.traced :=
    (call.answerable_of_bounded storage).traced
  have before := (history_invariant _ (fun call _ holds => holds.made (answerable call)) consistent
    calls).1 episode member
  obtain ⟨call, reached, rfl⟩ := exists_made_of_mem_history member
  rw [CacheCall.made_call] at lies
  rw [CacheCall.made_before] at before
  rcases call.made_cases (before.call_ends (answerable call)) with
    ⟨bytes, ok, -⟩ | ⟨_, -, uncertain, -⟩
  · exact ⟨bytes, ok⟩
  · have certain : call.Inside (storage.medium.traced.Reads · False) :=
      (CacheCall.inside_iff_lies.mpr lies).imp fun _ has => (storage.toStorage.reads has).traced
    exact absurd certain uncertain

end Cache

end Residency
