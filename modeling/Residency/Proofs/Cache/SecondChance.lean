import Residency.Proofs.Cache.Coherence

/-!
# Second chance

Which slot is given up for a sector that has none, and what becomes of the others on the way to it:
`takes_first_unspared_slot`.  This holds of any slots at all, reachable or not, and in front of any
medium that gives the sector and takes those in the slots.
-/

namespace Residency

namespace Cache

variable {δ : Type} [BlockDevice δ]

/-- How a sector that has no slot comes by one, whatever the slots and the hand are, in front of a
device that reads the sector and writes those in the slots.

Let `k` be the least number such that the slot `k` steps from the hand is empty or unmarked, or the
number of slots if none is.  The hand looks at `k + 1` slots.  The first `k` lose their marks, the
last one takes the sector, marked as used and as changed if it is to be written to, and the hand
ends behind it.  Nothing else changes.  A sector that was used since the hand last passed is given
up only if all slots hold such sectors. -/
theorem takes_first_unspared_slot (medium : Medium δ) {cache : Cache δ} {s : SectorNo}
    (mode : Access) (serves : medium.Serves cache.device)
    (writable : ∀ (i : Fin slotCount) t, (cache.slot i).sector = some t → medium.Has t)
    (readable : medium.Reads s False) (absent : s ∉ cache.resident) :
    let k := sparedFrom cache.slots cache.hand
    (sweep cache.slots cache.hand).passed = k ∧ k ≤ slotCount ∧
      Step.Yields (slotFor s mode) cache fun i after =>
        i = inCircle cache.hand k ∧ after.hand = inCircle cache.hand (k + 1) ∧
          (∀ j : Fin slotCount, after.slot j =
            if i = j then
              { data := medium.sector cache.device s
                sector := some s
                accessed := mode == .write
                dirty := mode == .write }
            else if ∃ m < k, inCircle cache.hand m = j then { cache.slot j with accessed := false }
            else cache.slot j) ∧
          ((cache.slot i).isSpared → ∀ j : Fin slotCount, (cache.slot j).isSpared) := by
  intro k
  have passed : (sweep cache.slots cache.hand).passed = k := passed_eq_sparedFrom ..
  have absent : ∀ j : Fin slotCount, (cache.slot j).sector ≠ some s :=
    fun j held => absent (mem_resident_iff.mpr ⟨j, held⟩)
  have chosen : cache.victim = inCircle cache.hand k := by rw [victim, sweep_chosen, passed]
  refine ⟨passed, passed ▸ passed_le .., ?_⟩
  have brings := ends_bringIn (s := s) mode (fun _ => False)
    (fun data _ => data = medium.sector cache.device s)
    (save_yields medium serves (writable cache.victim)) fun device saved =>
      (readable (cache.slot cache.victim).data saved.1).imp
        (fun _ _ read => read.2.1.trans (saved.2 s (absent cache.victim))) fun _ _ => And.left
  apply (ends_slotFor_of_absent mode absent).mpr
  apply brings.imp
  · rintro i after ⟨broughtIn, data⟩
    obtain rfl := broughtIn.victim
    refine ⟨chosen, ?_, fun j => ?_, fun spared j => ?_⟩
    · rw [broughtIn.hand, chosen, nextInCircle_inCircle]
    · split
      next same =>
        subst same
        rw [broughtIn.held, Slot.hold, data]
      next other =>
        rw [broughtIn.others j other, swept_eq, passed]
        rfl
    · -- the hand has gone a whole round, and came by every slot
      have round : (sweep cache.slots cache.hand).passed = slotCount :=
        passed_eq_of_isSpared_chosen spared
      have within : stepsTo cache.hand j < (sweep cache.slots cache.hand).passed := by
        rw [round]
        exact stepsTo_lt cache.hand j
      have reached := (isSpared_of_passed within).1
      simp only [inCircle_stepsTo] at reached
      exact reached
  · exact fun _ _ fails => fails.2

/-- Where all slots were used, all lose their marks, and the one that the hand came from is given
up. -/
theorem takes_slot_after_a_round :
    let cache : Cache RamDisk := {
      device := { sectors := 128 }
      slots := .ofFn fun i =>
        { sector := some (.ofNat i), accessed := true, dirty := i.val % 2 = 0 }
      hand := 5 }
    (RamDisk.storage 128).medium.Serves cache.device ∧
      (∀ (i : Fin slotCount) t, (cache.slot i).sector = some t →
        (RamDisk.storage 128).medium.Has t) ∧
      (RamDisk.storage 128).medium.Reads ⟨100⟩ False ∧ ⟨100⟩ ∉ cache.resident ∧
      (sweep cache.slots cache.hand).passed = slotCount ∧
      Step.Yields (slotFor ⟨100⟩ .write) cache fun i after => i = 5 ∧ after.hand = 6 ∧
        (after.slot 5).sector = some ⟨100⟩ ∧ (after.slot 5).dirty = true ∧
        ∀ j : Fin slotCount, j ≠ 5 → after.slot j = { cache.slot j with accessed := false } := by
  intro cache
  have slots (i : Fin slotCount) : cache.slot i =
      { sector := some (.ofNat i), accessed := true, dirty := i.val % 2 = 0 } :=
    Vector.getElem_ofFn i.isLt
  have number (i : Fin slotCount) : (SectorNo.ofNat i).toNat = i :=
    SectorNo.toNat_ofNat (Nat.lt_trans i.isLt (by decide))
  have writable (i : Fin slotCount) (t : SectorNo) (held : (cache.slot i).sector = some t) :
      (RamDisk.storage 128).medium.Has t := by
    rw [slots] at held
    cases held
    show (SectorNo.ofNat i).toNat < 128
    rw [number]
    exact Nat.lt_trans i.isLt (by decide)
  have readable : (RamDisk.storage 128).medium.Reads ⟨100⟩ False :=
    (RamDisk.storage 128).toStorage.reads (by decide)
  have absent : ⟨100⟩ ∉ cache.resident := by
    rw [mem_resident_iff]
    rintro ⟨i, held⟩
    rw [slots] at held
    have same := congrArg SectorNo.toNat (Option.some.inj held)
    rw [number] at same
    exact absurd i.isLt (by rw [same]; decide)
  have round : sparedFrom cache.slots cache.hand = slotCount := by
    rw [sparedFrom]
    conv_rhs => rw [← List.length_range (n := slotCount)]
    rw [List.findIdx_eq_length]
    intro k _
    rw [show cache.slots[inCircle cache.hand k] = _ from slots _]
    rfl
  have serves : (RamDisk.storage 128).medium.Serves cache.device := rfl
  obtain ⟨passed, -, yields⟩ :=
    takes_first_unspared_slot (RamDisk.storage 128).medium .write serves writable readable absent
  refine ⟨serves, writable, readable, absent, passed.trans round, yields.imp ?_⟩
  rw [round]
  rintro i after ⟨chosen, hand, slotsAfter, -⟩
  obtain rfl : i = 5 := chosen.trans (inCircle_size cache.hand)
  refine ⟨rfl, hand.trans (by decide), ?_, ?_, fun j other => ?_⟩
  · rw [slotsAfter, if_pos rfl]
  · rw [slotsAfter, if_pos rfl]; rfl
  · rw [slotsAfter, if_neg (Ne.symm other),
      if_pos ⟨stepsTo cache.hand j, stepsTo_lt .., inCircle_stepsTo ..⟩]

end Cache

end Residency
