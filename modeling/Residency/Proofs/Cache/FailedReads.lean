import Residency.Proofs.Cache.History

/-!
# Sectors that cannot be read

What is left of a cache when the device fails to read the sector that an access needs:
`failed_read_loses_nothing`.  The hand has been on its way by then, and what the slot that it chose
held was written to the device if it was changed.  But the slot is not given up before the new
sector is there, so all slots hold what they held (`SparesVictim`).

Hence failing accesses may come in any number, and the calls that succeed are still answered from
one memory.  That is `Consistent.serve`, in front of any medium whose reading may fail.
-/

namespace Residency

namespace Cache

variable {δ : Type}

/-- A slot was chosen, but it was not given up after all. -/
structure SparesVictim (before after : Cache δ) : Prop where
  slots : ∀ i : Fin slotCount, after.slot i = before.swept i
  hand : after.hand = nextInCircle before.victim
  stats : after.stats = { before.stats with
    misses := before.stats.misses + 1
    writeBacks := if (before.slot before.victim).unsaved?.isSome then before.stats.writeBacks + 1
      else before.stats.writeBacks }

theorem SparesVictim.keepsSectors {before after : Cache δ} (spares : SparesVictim before after) :
    KeepsSectors before after :=
  keepsSectors_of_swept fun i => ⟨_, spares.slots i⟩

variable [BlockDevice δ]

section Failing

variable {cache : Cache δ} {s : SectorNo}

/-- Bringing in a sector that cannot be read, after what the device lacked of the slot is safe. -/
theorem bringIn_fails (mode : Access) (failed : Fault → δ → Prop) {saved : δ → Prop}
    (saves : Step.Yields (cache.slot cache.victim).save cache.device fun _ => saved)
    (fails : ∀ device, saved device →
      Step.Ends (readBlock s) ((cache.slot cache.victim).data, device) (fun _ _ => False)
        fun fault after => after.1 = (cache.slot cache.victim).data ∧ failed fault after.2) :
    Step.Ends (bringIn s mode) cache (fun _ _ => False)
      fun fault after => SparesVictim cache after ∧ failed fault after.device := by
  rw [ends_bringIn_iff]
  apply Step.Yields.imp saves
  intro _ device saved
  apply (fails device saved).imp
  · exact fun _ _ impossible => impossible.elim
  · intro fault after ended
    obtain ⟨data, device⟩ := after
    obtain ⟨rfl, failed⟩ := ended
    refine ⟨⟨fun j => ?_, rfl, rfl⟩, failed⟩
    -- what comes back into the slot that was chosen is what it held
    rw [slot_modifySlot, slot_choosing]
    split
    next chosen =>
      subst chosen
      rw [← data_swept]
    next => rfl

end Failing

/-! ## Transfers on the account -/

section Account

variable {traced : Traced δ} {s : SectorNo}

theorem save_yields_traced {slot : Slot} {saved : δ}
    (saves : (slot.save : Step δ Unit).run traced.device = .ok () saved) :
    Step.Yields (slot.save : Step (Traced δ) Unit) traced fun _ after => after.device = saved ∧
      after.transfers = traced.transfers ++ slot.unsaved?.toList.map .saving := by
  have device : Step.Yields (slot.save : Step (Traced δ) Unit) traced fun _ after =>
      after.device = saved := by
    rw [Slot.save] at saves ⊢
    cases unsaved : slot.unsaved? with
    | none =>
      rw [unsaved] at saves
      cases saves
      exact (Step.ends_pure _).mpr rfl
    | some entry =>
      rw [unsaved] at saves
      simp only [writeBlock, Step.ends_bind, Step.ends_modify, Step.ends_on]
      exact Step.Ends.of_run saves rfl
  exact device.and (save_traced slot traced)

theorem readBlock_fails_traced {buffer : Sector} {fault : Fault} {failed : δ}
    (fails : (readBlock s).run (buffer, traced.device) = .error fault (buffer, failed)) :
    Step.Ends (readBlock s) (buffer, traced) (fun _ _ => False) fun fault' after =>
      after.1 = buffer ∧ fault' = fault ∧ after.2.device = failed ∧
        after.2.transfers = traced.transfers ++ [.read s] := by
  simp only [readBlock, Step.ends_bind, Step.ends_modify, Step.ends_on]
  exact Step.Ends.of_fault fails ⟨rfl, rfl, rfl, List.reverse_cons⟩

end Account

end Cache

namespace CacheCall

variable {δ : Type} [BlockDevice δ] {call : CacheCall}

/-- An access to a sector that cannot be read. -/
theorem step_fails {cache : Cache (Traced δ)} {s : SectorNo} {saved failed : δ} {fault : Fault}
    (accessed : call.accessed? = some s)
    (absent : ∀ i : Fin slotCount, (cache.slot i).sector ≠ some s)
    (saves : ((cache.slot cache.victim).save : Step δ Unit).run cache.device.device = .ok () saved)
    (fails : (readBlock s).run ((cache.slot cache.victim).data, saved) =
      .error fault ((cache.slot cache.victim).data, failed)) :
    Step.Ends call.step cache (fun _ _ => False) fun fault' after =>
      Cache.SparesVictim cache after ∧ fault' = fault ∧ after.device.device = failed ∧
        after.device.transfers = cache.device.transfers ++
          ((cache.slot cache.victim).unsaved?.toList.map .saving ++ [.read s]) := by
  have unread (mode : Access) := Cache.bringIn_fails (s := s) mode
    (fun fault' device => fault' = fault ∧ device.device = failed ∧
      device.transfers = cache.device.transfers ++
        ((cache.slot cache.victim).unsaved?.toList.map .saving ++ [.read s]))
    (Cache.save_yields_traced saves) fun device saved => by
      obtain ⟨rfl, account⟩ := saved
      apply (Cache.readBlock_fails_traced fails).imp
      · exact fun _ _ => id
      · intro _ after ended
        rw [account, List.append_assoc] at ended
        exact ended
  apply (ends_of_access accessed (fun _ _ _ => False) (fun _ _ _ _ => id) fun mode =>
    (Cache.ends_slotFor_of_absent mode absent).mpr (unread mode)).imp
  · rintro _ _ ⟨_, impossible⟩
    exact impossible
  · exact fun _ _ => id

theorem made_refused {cache : Cache δ} (refused : ¬ call.Fits) :
    ∃ fault, (call.made cache).result = .error fault ∧ (call.made cache).after = cache := by
  have ends : Step.Ends call.step cache (fun _ _ => False) fun _ after => after = cache :=
    ends_of_refused refused
  rcases call.made_cases ends with ⟨_, -, impossible⟩ | ended
  · exact impossible.elim
  · exact ended

end CacheCall

namespace Cache

variable {δ : Type} [BlockDevice δ]

/-- A cache that any run of calls has reached, in front of any device, and an access to a sector
that has no slot, where the device takes what it lacks of the slot to be given up, if it lacks
anything, but fails to read the sector and leaves the buffer as it was.

Let `k` be the number of slots in a row that the hand has to pass.  These lose their marks of use;
apart from that all slots are as before, and the same sectors are resident.  The hand ends behind
the slot that it chose.  The one transfer before the reading is the writing of what that slot holds,
to its own sector and only if it is marked as changed.  The counters count one miss, and one
write-back if there was that writing.  A call that does not lie inside a sector changes nothing.

However many accesses have failed in a run, with others between them that succeed, what was answered
is what a memory has held that the calls have written to which succeeded. -/
theorem failed_read_loses_nothing {device : δ} {calls : List CacheCall} :
    let served := ({ device := { device } } : Cache (Traced δ)).serve calls
    let reached := served.2
    let k := sparedFrom reached.slots reached.hand
    let chosen := reached.slot (inCircle reached.hand k)
    (∀ (call : CacheCall) (s : SectorNo) (saved failed : δ) (fault : Fault),
      call.accessed? = some s → s ∉ reached.resident →
      (chosen.save : Step δ Unit).run reached.device.device = .ok () saved →
      (readBlock s).run (chosen.data, saved) = .error fault (chosen.data, failed) →
      let episode := call.made reached
      episode.result = .error fault ∧ episode.after.device.device = failed ∧
        episode.after.resident = reached.resident ∧
        (∀ i : Fin slotCount, episode.after.slot i =
          if ∃ m < k, inCircle reached.hand m = i then { reached.slot i with accessed := false }
          else reached.slot i) ∧
        episode.after.hand = inCircle reached.hand (k + 1) ∧
        (chosen.dirty = false → saved = reached.device.device ∧ episode.transfers = [.read s] ∧
          episode.after.stats = { reached.stats with misses := reached.stats.misses + 1 }) ∧
        (chosen.dirty = true → ∃ t, chosen.sector = some t ∧
          (writeBlock t chosen.data).run reached.device.device = .ok () saved ∧
          episode.transfers = [.write t chosen.data, .read s] ∧
          episode.after.stats = { reached.stats with
            misses := reached.stats.misses + 1
            writeBacks := reached.stats.writeBacks + 1 })) ∧
      (∀ call : CacheCall, ¬ call.Fits →
        ∃ fault, (call.made reached).result = .error fault ∧ (call.made reached).after = reached) ∧
      ∀ medium : Medium δ, medium.Serves device → (∀ call ∈ calls, call.Answerable medium) →
        ∃ memory, FlatMemory.Explains medium (FlatMemory.ofSectors (medium.sector device)) calls
          (served.1.map Except.toOption) memory := by
  intro served reached k chosen
  refine ⟨?_, fun call refused => CacheCall.made_refused refused, ?_⟩
  · intro call s saved failed fault accessed new saves fails episode
    have orderly : reached.Orderly := ((Orderly.fresh _).throughout calls).2
    have victim : reached.victim = inCircle reached.hand k := by
      rw [Cache.victim, sweep_chosen, passed_eq_sparedFrom]
    have absent : ∀ j : Fin slotCount, (reached.slot j).sector ≠ some s :=
      fun j held => new (mem_resident_iff.mpr ⟨j, held⟩)
    have chosen_eq : reached.slot reached.victim = chosen := by rw [victim]
    rw [← chosen_eq] at saves fails
    have found : episode.before = reached := CacheCall.made_before
    rcases call.made_cases (CacheCall.step_fails accessed absent saves fails) with
      ⟨_, -, impossible⟩ | ⟨fault', error, spares, rfl, device, account⟩
    · exact impossible.elim
    · have transfers := episode.transfers_eq (by rw [found]; exact account)
      have stats := spares.stats
      refine ⟨error, device, spares.keepsSectors.resident, fun i => ?_, ?_, fun clean => ?_,
        fun changed => ?_⟩
      · rw [spares.slots, swept_eq, passed_eq_sparedFrom]
        rfl
      · rw [spares.hand, victim, nextInCircle_inCircle]
      · rw [chosen_eq, Slot.unsaved?_of_clean clean] at transfers stats
        rw [chosen_eq, Slot.save, Slot.unsaved?_of_clean clean] at saves
        cases saves
        exact ⟨rfl, transfers, stats⟩
      · obtain ⟨t, held, unsaved⟩ := orderly.unsaved?_of_dirty changed
        rw [chosen_eq, unsaved] at transfers stats
        rw [chosen_eq, Slot.save, unsaved] at saves
        exact ⟨t, held, saves, transfers, stats⟩
  · intro medium serves answerable
    have servesTraced : medium.traced.Serves { device } := serves
    obtain ⟨fresh, view⟩ := Consistent.fresh medium.traced servesTraced
    obtain ⟨-, explains⟩ := fresh.serve fun call member => (answerable call member).traced
    rw [view] at explains
    exact ⟨_, explains.untraced⟩

/-! ## A cache that was filled by writing -/

section Filling

/-- The first `n` slots of a cache hold sectors that were written, the others none, and the hand
stands between them. -/
structure Filled (n : Nat) (cache : Cache δ) : Prop where
  hand : cache.hand = inCircle 0 n
  full : ∀ i : Fin slotCount, i < n →
    ∃ data, cache.slot i = { data, sector := some (.ofNat i), accessed := true, dirty := true }
  empty : ∀ i : Fin slotCount, n ≤ i → (cache.slot i).sector = none

variable {cache : Cache (Traced δ)} {n : Nat}

omit [BlockDevice δ] in
theorem Filled.fresh (device : δ) : Filled 0 ({ device } : Cache δ) where
  hand := (inCircle_zero _).symm
  full _ before := absurd before (Nat.not_lt_zero _)
  empty i _ := by rw [slot_fresh]

theorem Filled.next (filled : Filled n cache) (room : n < slotCount) {data : List UInt8}
    (range : 0 + data.length ≤ sectorSize)
    (succeeds : ∃ bytes, ((CacheCall.write (.ofNat n) 0 data).made cache).result = .ok bytes) :
    Filled (n + 1) ((CacheCall.write (.ofNat n) 0 data).made cache).after := by
  have number {k : Nat} (small : k < slotCount) : (SectorNo.ofNat k).toNat = k :=
    SectorNo.toNat_ofNat (Nat.lt_trans small (by decide))
  have hand : cache.hand.val = n := by
    rw [filled.hand]
    show (0 + n) % slotCount = n
    rw [Nat.zero_add, Nat.mod_eq_of_lt room]
  have stop : ¬ cache.slots[cache.hand].isSpared := by
    have empty : (cache.slot cache.hand).sector = none := filled.empty _ (Nat.le_of_eq hand.symm)
    rw [Slot.isSpared, show cache.slots[cache.hand].sector = none from empty]
    exact Bool.false_ne_true
  have swept (j : Fin slotCount) : cache.swept j = cache.slot j := by
    rw [Cache.swept, sweep_of_not_spared stop]
  have absent (j : Fin slotCount) : (cache.slot j).sector ≠ some (.ofNat n) := by
    intro held
    rcases Nat.lt_or_ge j n with before | behind
    · obtain ⟨_, slot⟩ := filled.full j before
      rw [slot] at held
      have same := congrArg SectorNo.toNat (Option.some.inj held)
      rw [number j.isLt, number room] at same
      exact Nat.ne_of_lt before same
    · cases (filled.empty j behind).symm.trans held
  have accessed : (CacheCall.write (.ofNat n) 0 data).accessed? = some (.ofNat n) := if_pos range
  have ends := CacheCall.ends_of_access accessed
    (fun mode i after => Finds cache (.ofNat n) mode i after ∨ Loads cache (.ofNat n) mode i after)
    (fun _ _ _ f reached => reached.imp (·.modifyData f) (·.modifyData f))
    (slotFor_ends_traced cache (.ofNat n))
  rcases CacheCall.made_cases ends with ⟨_, -, i, finds | loads⟩ | ⟨_, error, -⟩
  · exact absurd finds.held (absent i)
  · have brings := loads.brings
    obtain rfl : i = cache.hand := by
      rw [brings.victim, victim, sweep_of_not_spared stop]
    refine ⟨?_, fun j before => ?_, fun j behind => ?_⟩
    · rw [brings.hand, filled.hand, nextInCircle_inCircle]
    · by_cases here : cache.hand = j
      · subst here
        rw [brings.held, hand]
        exact ⟨_, rfl⟩
      · rw [brings.others j here, swept]
        exact filled.full j (by omega)
    · have elsewhere : cache.hand ≠ j := by
        rintro rfl
        omega
      rw [brings.others j elsewhere, swept]
      exact filled.empty j (by omega)
  · obtain ⟨bytes, ok⟩ := succeeds
    cases ok.symm.trans error

/-- Writing to as many sectors as there are slots fills them in order. -/
theorem Consistent.filled {N : Nat} {storage : BoundedStorage δ N}
    (consistent : Consistent storage.medium.traced cache) (filled : Filled n cache) {m : Nat}
    (room : n + m ≤ slotCount) (large : slotCount ≤ N) :
    Filled (n + m) (cache.serve ((List.range' n m).map fun k => .write (.ofNat k) 0 [7])).2 := by
  induction m generalizing n cache with
  | zero => exact filled
  | succ m inductionHypothesis =>
    have small : (SectorNo.ofNat n).toNat < N := by
      rw [SectorNo.toNat_ofNat (Nat.lt_of_lt_of_le (by omega) (show slotCount ≤ _ by decide))]
      omega
    let call : CacheCall := .write (.ofNat n) 0 [7]
    have only : call.made cache ∈ cache.history [call] := List.mem_singleton.mpr rfl
    have lies : (call.made cache).call.Lies N := by
      rw [CacheCall.made_call]
      exact ⟨small, by decide⟩
    rw [List.range'_succ, List.map_cons, serve_cons, ← Nat.succ_add_eq_add_succ]
    apply inductionHypothesis
    · exact consistent.made (call.answerable_of_bounded storage).traced
    · exact filled.next (by omega) (by decide) (consistent.history_succeeds only lies)
    · omega

end Filling

/-- All slots are changed when a sector beyond the disk is asked for.  The hand takes the marks of
use of all of them and stops where it came from, and what that slot holds is written for nothing. -/
theorem failed_read_after_a_round :
    let calls : List CacheCall := (List.range slotCount).map fun k => .write (.ofNat k) 0 [7]
    let reached :=
      (({ device := { device := { sectors := 64 } } } : Cache (Traced RamDisk)).serve calls).2
    let episode := (CacheCall.read ⟨64⟩ 0 1).made reached
    sparedFrom reached.slots reached.hand = slotCount ∧ (reached.slot 0).dirty = true ∧
      ⟨64⟩ ∉ reached.resident ∧ episode.result = .error (.unreadableSector ⟨64⟩) ∧
      episode.after.resident = reached.resident ∧ episode.after.hand = 1 ∧
      (∀ i : Fin slotCount, episode.after.slot i = { reached.slot i with accessed := false }) ∧
      episode.transfers = [.write ⟨0⟩ (reached.slot 0).data, .read ⟨64⟩] := by
  intro calls
  have serves : (RamDisk.storage 64).medium.traced.Serves { device := { sectors := 64 } } := rfl
  have fresh : Consistent (RamDisk.storage 64).medium.traced
      { device := { device := { sectors := 64 } } } := (Consistent.fresh _ serves).1
  have consistent := (fresh.serve fun call (_ : call ∈ calls) =>
    (call.answerable_of_bounded _).traced).1
  have filled := fresh.filled (.fresh _) (m := slotCount) (Nat.le_refl _) (Nat.le_refl 64)
  rw [Nat.zero_add, ← List.range_eq_range'] at filled
  have failing := (@failed_read_loses_nothing RamDisk _ { sectors := 64 } calls).1
    (.read ⟨64⟩ 0 1) ⟨64⟩
  -- nothing more has to be known of the run, and it is not to be computed
  dsimp only at failing
  generalize (({ device := { device := { sectors := 64 } } } : Cache (Traced RamDisk)).serve
    calls).2 = reached at consistent filled failing ⊢
  have hand : reached.hand = 0 := filled.hand.trans (inCircle_size 0)
  have round : sparedFrom reached.slots reached.hand = slotCount := by
    apply sparedFrom_eq_size
    intro k _
    obtain ⟨data, slot⟩ := filled.full (inCircle reached.hand k) (Fin.isLt _)
    rw [show reached.slots[inCircle reached.hand k] = _ from slot]
    rfl
  have new : ⟨64⟩ ∉ reached.resident := by
    rw [mem_resident_iff]
    rintro ⟨i, held⟩
    exact absurd (show 64 < 64 from consistent.has held) (Nat.lt_irrefl 64)
  obtain ⟨data, slot⟩ := filled.full 0 (by decide)
  have chosen : reached.slot (inCircle reached.hand (sparedFrom reached.slots reached.hand)) =
      reached.slot 0 := by rw [round, hand]; rfl
  have size : reached.device.device.sectors = 64 := consistent.serves
  have writes (disk : RamDisk) (size : disk.sectors = 64) : (writeBlock ⟨0⟩ data).run disk =
      .ok () { disk with contents := disk.contents.insert ⟨0⟩ data } := by
    simp [writeBlock, size, SectorNo.toNat]
  have fails (disk : RamDisk) (size : disk.sectors = 64) (contents) :
      (readBlock ⟨64⟩).run (data, { disk with contents }) =
        .error (.unreadableSector ⟨64⟩) (data, { disk with contents }) := by
    simp [readBlock, size, SectorNo.toNat]
  obtain ⟨result, -, resident, slots, handAfter, -, changed⟩ := failing _ _ _ rfl new
    (by rw [chosen, slot]; exact writes _ size) (by rw [chosen, slot]; exact fails _ size _)
  have dirty : (reached.slot 0).dirty = true := by rw [slot]
  obtain ⟨t, held, -, transfers, -⟩ := changed (by rw [chosen, dirty])
  rw [chosen] at held transfers
  refine ⟨round, dirty, new, result, resident, ?_, fun i => ?_, ?_⟩
  · rw [handAfter, round, hand]
    rfl
  · rw [slots, if_pos]
    refine ⟨stepsTo reached.hand i, ?_, inCircle_stepsTo ..⟩
    rw [round]
    exact stepsTo_lt ..
  · rw [slot] at held
    cases held
    exact transfers

end Cache

end Residency
