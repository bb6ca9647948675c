import Residency.Proofs.Cache.FlatMemory

/-!
# What flushing leaves on the device

Flushing a cache that a run of calls has reached writes each changed slot to the device once and
does nothing else, and leaves on the device what the calls have written: `flush_is_durable`.  It
does not matter whether the device could always be read on the way, as long as what was read can be
written.

The transfers are those in the account of a `Traced` device.  That they are exactly the right ones
is shown slot by slot: at every point of the loop, those that were made and those for the slots that
are left are the same together.
-/

namespace Residency

/-- The transfer that brings a changed sector to the device. -/
def Transfer.saving (entry : SectorNo × Sector) : Transfer :=
  .write entry.1 entry.2

/-- The sectors that the device lacks, with their bytes, in the order of their slots. -/
def Cache.unsaved {δ : Type} (cache : Cache δ) : List (SectorNo × Sector) :=
  (List.finRange slotCount).filterMap fun i => (cache.slot i).unsaved?

namespace Slot

def cleaned (slot : Slot) : Slot :=
  { slot with dirty := false }

theorem cleaned_eq_self {slot : Slot} (clean : slot.dirty = false) : slot.cleaned = slot := by
  rw [cleaned, ← clean]

end Slot

variable {δ : Type} [BlockDevice δ]

theorem Traced.writeBlock_ends (traced : Traced δ) (s : SectorNo) (data : Sector) :
    Step.Ends (writeBlock s data) traced
      (fun _ after => after.transfers = traced.transfers ++ [.write s data]) fun _ _ => True := by
  simp only [writeBlock, Step.ends_bind, Step.ends_modify, Step.ends_on]
  apply (Step.ends_run _ _).imp
  · exact fun _ _ _ => List.reverse_cons
  · exact fun _ _ _ => trivial

namespace Cache

/-! ## One slot -/

section Slots

variable {cache : Cache (Traced δ)}

theorem save_traced (slot : Slot) (traced : Traced δ) :
    Step.Ends (slot.save : Step (Traced δ) Unit) traced
      (fun _ after => after.transfers = traced.transfers ++ slot.unsaved?.toList.map .saving)
      fun _ _ => True := by
  rw [Slot.save]
  cases slot.unsaved? with
  | none => exact (Step.ends_pure _).mpr (List.append_nil _).symm
  | some entry => exact Traced.writeBlock_ends traced entry.1 entry.2

theorem flushSlot_traced (orderly : Orderly cache) (i : Fin slotCount) :
    Step.Ends (flushSlot i) cache
      (fun _ after => (∀ j : Fin slotCount, after.slot j =
          if i = j then (cache.slot j).cleaned else cache.slot j) ∧
        after.hand = cache.hand ∧ after.stats = cache.stats ∧
        after.device.transfers =
          cache.device.transfers ++ (cache.slot i).unsaved?.toList.map .saving)
      fun _ after => KeepsSectors cache after := by
  rw [flushSlot, Step.ends_bind, ends_saveSlot, orderly.isSome_unsaved?]
  apply (save_traced (cache.slot i) cache.device).imp
  · intro _ device transfers
    cases changed : (cache.slot i).dirty with
    | false =>
      rw [if_neg Bool.false_ne_true, Step.ends_pure]
      refine ⟨fun j => ?_, rfl, rfl, transfers⟩
      split
      next same =>
        subst same
        exact (Slot.cleaned_eq_self changed).symm
      next => rfl
    | true =>
      rw [if_pos rfl, Step.ends_modify]
      exact ⟨fun j => slot_modifySlot .., rfl, rfl, transfers⟩
  · exact fun _ _ _ => ⟨fun _ => rfl, fun _ _ => ⟨rfl, rfl⟩⟩

end Slots

/-! ## All slots -/

omit [BlockDevice δ] in
/-- Slots of which some were cleaned keep their sectors. -/
theorem Orderly.keepsSectors_of_cleaned {cache after : Cache δ} (orderly : Orderly cache)
    (slots : ∀ i : Fin slotCount, after.slot i = (cache.slot i).cleaned ∨
      after.slot i = cache.slot i) : KeepsSectors cache after where
  sector i := by
    rcases slots i with cleaned | same
    · rw [cleaned]; rfl
    · rw [same]
  empty i empty := by
    rcases slots i with cleaned | same
    · rw [cleaned]
      exact ⟨rfl, (orderly.empty empty).2.symm⟩
    · rw [same]
      exact ⟨rfl, rfl⟩

/-- What flushing makes of an orderly cache, in front of a device that may fail. -/
theorem flush_ends_traced {cache : Cache (Traced δ)} (orderly : Orderly cache) :
    Step.Ends flush cache
      (fun _ after => (∀ i : Fin slotCount, after.slot i = (cache.slot i).cleaned) ∧
        after.hand = cache.hand ∧ after.stats = cache.stats ∧
        after.device.transfers = cache.device.transfers ++ cache.unsaved.map .saving)
      fun _ after => KeepsSectors cache after := by
  -- the slots that are left are as they were, and the transfers for them are yet to be made
  let invariant (left : List (Fin slotCount)) (reached : Cache (Traced δ)) : Prop :=
    left.Nodup ∧
      (∀ j : Fin slotCount, reached.slot j =
        if j ∈ left then cache.slot j else (cache.slot j).cleaned) ∧
      reached.hand = cache.hand ∧ reached.stats = cache.stats ∧
      reached.device.transfers ++
          (left.filterMap fun j => (cache.slot j).unsaved?).map .saving =
        cache.device.transfers ++ cache.unsaved.map .saving
  have each (i : Fin slotCount) (left : List (Fin slotCount)) (reached : Cache (Traced δ)) :
      invariant (i :: left) reached →
        Step.Ends (flushSlot i) reached (fun _ after => invariant left after)
          fun _ after => KeepsSectors cache after := by
    rintro ⟨distinct, slots, hand, stats, transfers⟩
    obtain ⟨new, distinctLeft⟩ := List.nodup_cons.mp distinct
    have before : reached.slot i = cache.slot i := by
      rw [slots, if_pos (List.mem_cons_self ..)]
    have keeps : KeepsSectors cache reached := by
      apply orderly.keepsSectors_of_cleaned
      intro j
      rw [slots]
      split
      · exact Or.inr rfl
      · exact Or.inl rfl
    apply (flushSlot_traced (keeps.orderly orderly) i).imp
    · rintro _ after ⟨slotsAfter, handAfter, statsAfter, transfersAfter⟩
      refine ⟨distinctLeft, fun j => ?_, handAfter.trans hand, statsAfter.trans stats, ?_⟩
      · rw [slotsAfter]
        by_cases same : i = j
        · subst same
          rw [if_pos rfl, if_neg new, before]
        · rw [if_neg same, slots]
          simp only [List.mem_cons, Ne.symm same, false_or]
      · have first : (i :: left).filterMap (fun j => (cache.slot j).unsaved?) =
            (cache.slot i).unsaved?.toList ++
              left.filterMap fun j => (cache.slot j).unsaved? := by
          rw [List.filterMap_cons]
          cases (cache.slot i).unsaved? <;> rfl
        rw [transfersAfter, before, ← transfers, first, List.map_append, List.append_assoc]
    · exact fun _ _ => keeps.trans
  have start : invariant (List.finRange slotCount) cache :=
    ⟨List.nodup_finRange _, fun j => (if_pos (List.mem_finRange j)).symm, rfl, rfl, rfl⟩
  apply (Step.Ends.forM invariant each _ start).imp
  · rintro _ after ⟨-, slots, hand, stats, transfers⟩
    refine ⟨fun i => ?_, hand, stats, ?_⟩
    · rw [slots, if_neg List.not_mem_nil]
    · rw [← transfers]
      exact (List.append_nil _).symm
  · exact fun _ _ => id

theorem flush_traced {medium : Medium (Traced δ)} {cache : Cache (Traced δ)}
    (consistent : Consistent medium cache) :
    Step.Yields flush cache fun _ after =>
      (∀ i : Fin slotCount, after.slot i = (cache.slot i).cleaned) ∧
        after.hand = cache.hand ∧ after.stats = cache.stats ∧
        after.device.transfers = cache.device.transfers ++ cache.unsaved.map .saving :=
  (consistent.flush_yields.and (flush_ends_traced consistent.orderly)).imp fun _ _ => And.right

/-- Without changed slots there is nothing to flush. -/
theorem flush_of_clean {cache : Cache δ}
    (clean : ∀ i : Fin slotCount, (cache.slot i).dirty = false) :
    Step.Yields flush cache fun _ after => after = cache := by
  apply Step.Ends.forM (fun _ reached => reached = cache) _ _ rfl
  rintro i - cache rfl
  simp only [flushSlot, saveSlot, Step.ends_bind, Step.ends_get, Slot.unsaved?_of_clean (clean i),
    Step.ends_pure, Bool.false_eq_true, if_false]

/-! ## After any run -/

theorem Consistent.length_unsaved {medium : Medium δ} {cache : Cache δ}
    (consistent : Consistent medium cache) :
    cache.unsaved.length = (List.finRange slotCount).countP fun i => (cache.slot i).dirty := by
  rw [unsaved, List.length_filterMap_eq_countP]
  simp only [consistent.orderly.isSome_unsaved?]

/-- A new cache, the only user of a device in service, after any run of calls, of which some may
have failed because the device failed to read a sector.  There is a memory that starts as the device
did, was changed by the writing that succeeded, and gave the answers that the calls got.

Flushing the cache succeeds.  It makes one transfer for each slot that is marked as changed, in the
order of the slots, which writes what the slot holds, and takes the mark from it; nothing else of
the cache changes.  The device then holds that memory, and flushing again does nothing at all.
A new cache on the device answers all that is asked of it from the same memory as the old one. -/
theorem flush_is_durable (medium : Medium δ) {device : δ} (serves : medium.Serves device)
    {calls : List CacheCall} (answerable : ∀ call ∈ calls, call.Answerable medium) :
    let served := ({ device := { device } } : Cache (Traced δ)).serve calls
    let reached := served.2
    ∃ memory : FlatMemory,
      FlatMemory.Explains medium (FlatMemory.ofSectors (medium.sector device)) calls
        (served.1.map Except.toOption) memory ∧
      reached.unsaved.length = (List.finRange slotCount).countP (fun i => (reached.slot i).dirty) ∧
      Step.Yields flush reached fun _ after =>
        after.device.transfers = reached.device.transfers ++ reached.unsaved.map .saving ∧
          (∀ i : Fin slotCount, after.slot i = { reached.slot i with dirty := false }) ∧
          after.hand = reached.hand ∧ after.stats = reached.stats ∧
          FlatMemory.ofSectors (medium.sector after.device.device) = memory ∧
          (Step.Yields flush after fun _ again => again = after) ∧
          ∀ later : List CacheCall, (∀ call ∈ later, call.Answerable medium) →
            (∃ last, FlatMemory.Explains medium memory later
              ((({ device := after.device.device } : Cache δ).serve later).1.map Except.toOption)
              last) ∧
            ∃ last, FlatMemory.Explains medium memory later
              ((reached.serve later).1.map Except.toOption) last := by
  intro served reached
  have traced {calls : List CacheCall} (answerable : ∀ call ∈ calls, call.Answerable medium) :
      ∀ call ∈ calls, call.Answerable medium.traced :=
    fun call member => (answerable call member).traced
  have servesTraced : medium.traced.Serves { device } := serves
  obtain ⟨fresh, view⟩ := Consistent.fresh medium.traced servesTraced
  obtain ⟨consistent, explains⟩ := fresh.serve (traced answerable)
  rw [view] at explains
  refine ⟨_, explains.untraced, consistent.length_unsaved, ?_⟩
  apply Step.Yields.imp (consistent.flush_yields.and (flush_traced consistent))
  rintro _ after ⟨⟨consistentAfter, -, onDevice⟩, slots, hand, stats, transfers⟩
  refine ⟨transfers, slots, hand, stats, congrArg FlatMemory.ofSectors onDevice,
    flush_of_clean fun i => ?_, fun later answerableLater => ?_⟩
  · rw [slots]
    rfl
  · have servesLater : medium.Serves after.device.device := consistentAfter.serves
    obtain ⟨freshLater, viewLater⟩ := Consistent.fresh medium servesLater
    have explainsNew := (freshLater.serve answerableLater).2
    have explainsOld := (consistent.serve (traced answerableLater)).2.untraced
    rw [viewLater] at explainsNew
    rw [← onDevice] at explainsOld ⊢
    exact ⟨⟨_, explainsNew⟩, _, explainsOld⟩

/-- What was flushed before is kept beside what is flushed now, and what failed does not show. -/
theorem flush_is_durable_on_two_sectors :
    let calls : List CacheCall := [.write ⟨1⟩ 3 [7, 8], .read ⟨2⟩ 0 1, .write ⟨0⟩ 511 [9, 9],
      .flush, .write ⟨1⟩ 4 [5]]
    (RamDisk.storage 2).Serves { sectors := 2 } ∧
      (∀ call ∈ calls, call.Answerable (RamDisk.storage 2).medium) ∧
      Step.Yields flush (({ device := { device := { sectors := 2 } } } :
          Cache (Traced RamDisk)).serve calls).2 fun _ after =>
        (({ device := after.device.device } : Cache RamDisk).serve
            [.read ⟨1⟩ 2 4, .read ⟨0⟩ 511 1]).1.map Except.toOption =
          [some [0, 7, 5, 0], some [0]] := by
  intro calls
  have serves : (RamDisk.storage 2).Serves { sectors := 2 } := rfl
  have answerable (calls : List CacheCall) :
      ∀ call ∈ calls, call.Answerable (RamDisk.storage 2).medium :=
    fun call _ => call.answerable_of_bounded _
  refine ⟨serves, answerable calls, ?_⟩
  obtain ⟨memory, explains, -, flushes⟩ :=
    flush_is_durable (RamDisk.storage 2).medium serves (answerable calls)
  apply Step.Yields.imp flushes
  rintro _ after ⟨-, -, -, -, -, -, later⟩
  obtain ⟨last, explainsLater⟩ := (later _ (answerable _)).1
  have whole := (explains.append explainsLater).answers_eq
  rw [explains.answers_eq] at whole
  apply List.append_cancel_left (whole.trans _)
  decide +kernel

end Cache

end Residency
