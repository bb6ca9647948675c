import Residency.Proofs.Cache.Coherence

/-!
# Accesses of a cache

What the operations of a consistent cache do to its view.

* `Consistent.read_ends`: reading gives the bytes of the view and changes none of them;
* `Consistent.write_ends`: writing replaces its bytes in its own sector and changes no others;
* `Consistent.flush_yields`: flushing changes nothing of the view, and puts all of it on the device.

An access to a sector that has no slot fails where the device fails to read the sector, and that
changes nothing of the view.  In front of a storage it happens to no sector inside it
(`Coherent.read_yields`, `Coherent.write_yields`).
-/

namespace Residency.Cache

variable {δ : Type}

theorem ensureInside_yields {cache : Cache δ} {offset length : Nat}
    (inside : offset + length ≤ sectorSize) :
    Step.Yields (ensureInside offset length) cache fun _ after => after = cache := by
  have fits : offset + length < wordLimit := Nat.lt_of_le_of_lt inside (by decide)
  simp [ensureInside, fits, inside]

/-- A range of bytes that does not lie inside a sector is refused before anything happens. -/
theorem ensureInside_refuses {cache : Cache δ} {offset length : Nat}
    (outside : sectorSize < offset + length) :
    Step.Ends (ensureInside offset length) cache (fun _ _ => False) fun _ after =>
      after = cache := by
  simp only [ensureInside, Step.ends_bind, Step.ends_addSizes, Step.ends_ensure,
    decide_eq_true_eq, if_neg (Nat.not_le.mpr outside)]
  split <;> trivial

variable [BlockDevice δ]

namespace Consistent

section Accesses

variable {medium : Medium δ} {cache : Cache δ} {s : SectorNo}

structure Holds (medium : Medium δ) (cache : Cache δ) (s : SectorNo) (mode : Access)
    (i : Fin slotCount) (after : Cache δ) : Prop where
  consistent : Consistent medium after
  view : after.view medium.sector = cache.view medium.sector
  held : (after.slot i).sector = some s
  changed : mode = .write → (after.slot i).dirty = true

theorem Holds.has {mode : Access} {i : Fin slotCount} {after : Cache δ}
    (holds : Holds medium cache s mode i after) : medium.Has s :=
  holds.consistent.has holds.held

section Reading

variable {mayFail : Prop} (reads : medium.Reads s mayFail)
include reads

/-- A slot that holds nothing the device lacks takes another sector, or keeps what it holds. -/
theorem load_ends (consistent : Consistent medium cache) {i : Fin slotCount}
    (safe : IsSafe medium cache i) (absent : ∀ j : Fin slotCount, (cache.slot j).sector ≠ some s)
    (mode : Access) :
    Step.Ends (do
        loadSlot i s
        modify (·.modifySlot i (·.hold s mode))
        return i) cache
      (fun i after => Holds medium cache s mode i after)
      fun _ after => mayFail ∧ Consistent medium after ∧
        after.view medium.sector = cache.view medium.sector := by
  simp only [loadSlot, Step.ends_bind, Step.ends_on, Step.ends_modify, Step.ends_pure]
  apply (reads (cache.slot i).data consistent.serves).imp
  · rintro _ ⟨data, device⟩ ⟨has, rfl, serves, unchanged⟩
    -- reading into the buffer and taking the name of the sector are one change of the slot
    set after : Cache δ := ({ cache with device } : Cache δ).modifySlot i fun slot =>
      Slot.hold { slot with data := medium.sector cache.device s } s mode
    have once : ({ cache.modifySlot i ({ · with data := medium.sector cache.device s }) with
        device } : Cache δ).modifySlot i (·.hold s mode) = after :=
      modifySlot_modifySlot ({ cache with device } : Cache δ) i
        ({ · with data := medium.sector cache.device s }) (·.hold s mode)
    have slots (j : Fin slotCount) : after.slot j =
        if i = j then Slot.hold { cache.slot j with data := medium.sector cache.device s } s mode
        else cache.slot j :=
      slot_modifySlot ({ cache with device } : Cache δ) i j _
    have admits : Admits medium cache i s mode after := {
      absent := absent
      has := has
      serves := serves
      device := unchanged
      chosen := (slots i).trans (if_pos rfl)
      others := fun j different => (slots j).trans (if_neg different) }
    rw [once]
    refine ⟨admits.consistent consistent, admits.view consistent safe, admits.held, ?_⟩
    intro same
    subst same
    rw [admits.chosen]
    rfl
  · rintro _ ⟨data, device⟩ ⟨mayFail, rfl, serves, unchanged⟩
    -- the buffer comes back as it was, so the slot that was chosen still holds its old sector
    have slots (j : Fin slotCount) :
        (cache.modifySlot i ({ · with data := (cache.slot i).data })).slot j = cache.slot j := by
      rw [slot_modifySlot]
      split
      next same => subst same; rfl
      next => rfl
    have keeps : Keeps medium cache { cache.modifySlot i ({ · with
        data := (cache.slot i).data }) with device } :=
      ⟨serves, unchanged, fun j => congrArg Slot.sector (slots j),
        fun j => congrArg Slot.data (slots j), fun j => (congrArg Slot.dirty (slots j)).symm.trans,
        fun j _ => slots j⟩
    exact ⟨mayFail, consistent.of_keeps keeps⟩

/-- A sector that has no slot is brought in by reading it into a slot that holds nothing the device
lacks; up to there nothing can go wrong. -/
theorem bringIn_ends (consistent : Consistent medium cache) (mode : Access)
    (absent : ∀ j : Fin slotCount, (cache.slot j).sector ≠ some s) :
    Step.Ends (bringIn s mode) cache (fun i after => Holds medium cache s mode i after)
      fun _ after => mayFail ∧ Consistent medium after ∧
        after.view medium.sector = cache.view medium.sector := by
  have loads {before : Cache δ} {i : Fin slotCount} (consistentBefore : Consistent medium before)
      (view : before.view medium.sector = cache.view medium.sector)
      (safe : IsSafe medium before i)
      (absentBefore : ∀ j : Fin slotCount, (before.slot j).sector ≠ some s) :
      Step.Ends (do
          loadSlot i s
          modify (·.modifySlot i (·.hold s mode))
          return i) before
        (fun i after => Holds medium cache s mode i after)
        fun _ after => mayFail ∧ Consistent medium after ∧
          after.view medium.sector = cache.view medium.sector := by
    apply (load_ends reads consistentBefore safe absentBefore mode).imp
    · exact fun _ _ ⟨holds, same, held, changed⟩ => ⟨holds, same.trans view, held, changed⟩
    · exact fun _ _ ⟨mayFail, unharmed, same⟩ => ⟨mayFail, unharmed, same.trans view⟩
  simp only [bringIn, Step.ends_bind, Step.ends_modify]
  obtain ⟨counted, view⟩ := consistent.of_keeps
    (consistent.keeps_modifyStats fun stats => { stats with misses := stats.misses + 1 })
  apply Step.Yields.imp counted.chooseSlot_keeps
  intro i swept keeps
  obtain ⟨consistentSwept, viewSwept⟩ := counted.of_keeps keeps
  apply Step.Yields.imp (consistentSwept.saveSlot_yields i)
  intro saved before ended
  obtain ⟨consistentBefore, viewBefore, safe, slots, -⟩ := ended
  -- neither the hand nor the saving moves a sector, so the wanted one is still in no slot
  have absentBefore : ∀ j : Fin slotCount, (before.slot j).sector ≠ some s := by
    intro j
    rw [slots, keeps.sector j]
    exact absent j
  have viewAll := (viewBefore.trans viewSwept).trans view
  cases saved with
  | false =>
    simp only [Bool.false_eq_true, if_false]
    exact loads consistentBefore viewAll safe absentBefore
  | true =>
    obtain ⟨consistentCounted, viewCounted⟩ := consistentBefore.of_keeps
      (consistentBefore.keeps_modifyStats fun stats =>
        { stats with writeBacks := stats.writeBacks + 1 })
    rw [if_pos rfl, Step.ends_bind, Step.ends_modify]
    exact loads consistentCounted (viewCounted.trans viewAll) safe absentBefore

theorem slotFor_ends (consistent : Consistent medium cache) (mode : Access) :
    Step.Ends (slotFor s mode) cache (fun i after => Holds medium cache s mode i after)
      fun _ after => mayFail ∧ Consistent medium after ∧
        after.view medium.sector = cache.view medium.sector := by
  cases found : cache.find? s with
  | none =>
    have absent := find?_eq_none_iff.mp found
    exact (ends_slotFor_of_absent mode absent).mpr (consistent.bringIn_ends reads mode absent)
  | some i =>
    have held := find?_eq_some found
    rw [ends_slotFor_of_found mode found]
    obtain ⟨counted, view⟩ := consistent.of_keeps
      (consistent.keeps_modifyStats fun stats => { stats with hits := stats.hits + 1 })
    obtain ⟨touched, viewTouched⟩ := counted.of_keeps (counted.keeps_touch held mode)
    refine ⟨touched, viewTouched.trans view, ?_, ?_⟩
    · rw [slot_modifySlot, if_pos rfl]
      exact held
    · intro same
      subst same
      rw [slot_modifySlot, if_pos rfl]
      simp [Slot.touch]

theorem read_ends (consistent : Consistent medium cache) {offset length : Nat}
    (range : offset + length ≤ sectorSize) :
    Step.Ends (read s offset length) cache
      (fun bytes after => medium.Has s ∧
        bytes = (cache.view medium.sector s).slice offset length ∧ Consistent medium after ∧
        after.view medium.sector = cache.view medium.sector)
      fun _ after => mayFail ∧ Consistent medium after ∧
        after.view medium.sector = cache.view medium.sector := by
  apply Step.Yields.bind (ensureInside_yields range)
  rintro - _ rfl
  apply (consistent.slotFor_ends reads .read).bind
  intro i after holds
  simp only [Step.ends_bind, Step.ends_get, Step.ends_pure]
  refine ⟨holds.has, ?_, holds.consistent, holds.view⟩
  rw [← holds.view, holds.consistent.view_of_resident holds.held]

theorem write_ends (consistent : Consistent medium cache) {offset : Nat} {data : List UInt8}
    (range : offset + data.length ≤ sectorSize) :
    Step.Ends (write s offset data) cache
      (fun _ after => medium.Has s ∧ Consistent medium after ∧
        after.view medium.sector = Function.update (cache.view medium.sector) s
          ((cache.view medium.sector s).overwrite offset data))
      fun _ after => mayFail ∧ Consistent medium after ∧
        after.view medium.sector = cache.view medium.sector := by
  apply Step.Yields.bind (ensureInside_yields range)
  rintro - _ rfl
  apply (consistent.slotFor_ends reads .write).bind
  intro i after holds
  rw [Step.ends_modify, ← holds.view]
  exact ⟨holds.has,
    holds.consistent.overwrite holds.held (holds.changed rfl) (·.overwrite offset data)⟩

end Reading

/-! ### Faults

Saving what the device lacks never fails, so it is the reading that an access can fail in. -/

theorem slotFor_refused (consistent : Consistent medium cache) (s : SectorNo) (mode : Access) :
    Step.Ends (slotFor s mode) cache (fun _ _ => True)
      fun fault after => medium.Refuses s fault after.device := by
  cases found : cache.find? s with
  | some i => exact Step.Yields.imp (slotFor_yields_of_found mode found) fun _ _ _ => trivial
  | none =>
    rw [ends_slotFor_of_absent mode (find?_eq_none_iff.mp found), ends_bringIn_iff]
    apply Step.Yields.imp (save_yields medium consistent.serves fun t held => consistent.has held)
    intro _ device saved
    apply (Step.ends_run _ _).imp
    · exact fun _ _ _ => trivial
    · exact fun fault after run => ⟨_, device, after.1, saved.1, run⟩

theorem read_refused (consistent : Consistent medium cache) {offset length : Nat}
    (range : offset + length ≤ sectorSize) :
    Step.Ends (read s offset length) cache (fun _ _ => True)
      fun fault after => medium.Refuses s fault after.device := by
  apply Step.Yields.bind (ensureInside_yields range)
  intro _ _ same
  subst same
  apply (consistent.slotFor_refused s .read).bind
  intro i after _
  simp only [Step.ends_bind, Step.ends_get, Step.ends_pure]

theorem write_refused (consistent : Consistent medium cache) {offset : Nat} {data : List UInt8}
    (range : offset + data.length ≤ sectorSize) :
    Step.Ends (write s offset data) cache (fun _ _ => True)
      fun fault after => medium.Refuses s fault after.device := by
  apply Step.Yields.bind (ensureInside_yields range)
  intro _ _ same
  subst same
  apply (consistent.slotFor_refused s .write).bind
  intro i after _
  rw [Step.ends_modify]
  trivial

theorem read_yields (consistent : Consistent medium cache) (reads : medium.Reads s False)
    {offset length : Nat} (range : offset + length ≤ sectorSize) :
    Step.Yields (read s offset length) cache fun bytes after =>
      bytes = (cache.view medium.sector s).slice offset length ∧ Consistent medium after ∧
        after.view medium.sector = cache.view medium.sector :=
  (consistent.read_ends reads range).imp (fun _ _ => And.right) fun _ _ => And.left

theorem write_yields (consistent : Consistent medium cache) (reads : medium.Reads s False)
    {offset : Nat} {data : List UInt8} (range : offset + data.length ≤ sectorSize) :
    Step.Yields (write s offset data) cache fun _ after => Consistent medium after ∧
      after.view medium.sector = Function.update (cache.view medium.sector) s
        ((cache.view medium.sector s).overwrite offset data) :=
  (consistent.write_ends reads range).imp (fun _ _ => And.right) fun _ _ => And.left

/-! ## Flushing -/

theorem flushSlot_yields (consistent : Consistent medium cache) (i : Fin slotCount) :
    Step.Yields (flushSlot i) cache fun _ after => Consistent medium after ∧
      after.view medium.sector = cache.view medium.sector ∧
      ∀ j : Fin slotCount, (after.slot j).dirty = true → i ≠ j ∧ (cache.slot j).dirty = true := by
  simp only [flushSlot, Step.ends_bind]
  apply Step.Yields.imp (consistent.saveSlot_yields i)
  intro saved before ended
  obtain ⟨consistentBefore, view, safe, slots, changed⟩ := ended
  cases saved with
  | false =>
    -- the slot was not written because it was clean
    simp only [Bool.false_eq_true, if_false, Step.ends_pure]
    refine ⟨consistentBefore, view, fun j dirty => ?_⟩
    rw [slots] at dirty
    refine ⟨?_, dirty⟩
    intro same
    subst same
    cases changed.trans dirty
  | true =>
    obtain ⟨consistentAfter, viewAfter⟩ := consistentBefore.clean safe
    rw [if_pos rfl, Step.ends_modify]
    refine ⟨consistentAfter, viewAfter.trans view, fun j dirty => ?_⟩
    rw [slot_modifySlot] at dirty
    split at dirty
    next => cases dirty
    next different => exact ⟨different, by rw [← slots]; exact dirty⟩

theorem flush_yields (consistent : Consistent medium cache) :
    Step.Yields flush cache fun _ after => Consistent medium after ∧
      after.view medium.sector = cache.view medium.sector ∧
      medium.sector after.device = cache.view medium.sector := by
  -- the slots that are still changed are among those that are left
  let invariant (left : List (Fin slotCount)) (reached : Cache δ) : Prop :=
    Consistent medium reached ∧ reached.view medium.sector = cache.view medium.sector ∧
      ∀ j : Fin slotCount, (reached.slot j).dirty = true → j ∈ left
  have each (i : Fin slotCount) (left : List (Fin slotCount)) (reached : Cache δ) :
      invariant (i :: left) reached →
        Step.Yields (flushSlot i) reached fun _ after => invariant left after := by
    intro ended
    obtain ⟨consistentReached, view, dirty⟩ := ended
    apply Step.Yields.imp (consistentReached.flushSlot_yields i)
    intro _ after ended
    obtain ⟨consistentAfter, viewAfter, stillDirty⟩ := ended
    refine ⟨consistentAfter, viewAfter.trans view, fun j hj => ?_⟩
    obtain ⟨different, before⟩ := stillDirty j hj
    exact (List.mem_cons.mp (dirty j before)).resolve_left (Ne.symm different)
  have start : invariant (List.finRange slotCount) cache :=
    ⟨consistent, rfl, fun j _ => List.mem_finRange j⟩
  apply Step.Yields.imp (Step.Ends.forM invariant each _ start)
  intro _ after ended
  obtain ⟨consistentAfter, view, dirty⟩ := ended
  refine ⟨consistentAfter, view, funext fun s => ?_⟩
  rw [← view]
  -- without changed slots there is no difference between the view and the device
  by_cases resident : ∃ j : Fin slotCount, (after.slot j).sector = some s
  · obtain ⟨j, held⟩ := resident
    have clean : (after.slot j).dirty = false := by
      apply Bool.eq_false_iff.mpr
      intro changed
      cases dirty j changed
    rw [consistentAfter.view_of_resident held, consistentAfter.saved held clean]
  · rw [view_of_absent _ (not_exists.mp resident)]

end Accesses

end Consistent

/-! ## In front of a storage -/

namespace Coherent

variable {N : Nat} {storage : Storage δ N} {cache : Cache δ} {s : SectorNo}

theorem read_yields (coherent : Coherent storage cache) (inside : s.toNat < N)
    {offset length : Nat} (range : offset + length ≤ sectorSize) :
    Step.Yields (read s offset length) cache fun bytes after =>
      bytes = (cache.view storage.sector s).slice offset length ∧ Coherent storage after ∧
        after.view storage.sector = cache.view storage.sector := by
  apply Step.Yields.imp ((coherent_iff.mp coherent).read_yields (storage.reads inside) range)
  exact fun _ _ ⟨bytes_eq, consistent, view⟩ => ⟨bytes_eq, coherent_iff.mpr consistent, view⟩

theorem write_yields (coherent : Coherent storage cache) (inside : s.toNat < N)
    {offset : Nat} {data : List UInt8} (range : offset + data.length ≤ sectorSize) :
    Step.Yields (write s offset data) cache fun _ after => Coherent storage after ∧
      after.view storage.sector = Function.update (cache.view storage.sector) s
        ((cache.view storage.sector s).overwrite offset data) := by
  apply Step.Yields.imp ((coherent_iff.mp coherent).write_yields (storage.reads inside) range)
  exact fun _ _ ⟨consistent, view⟩ => ⟨coherent_iff.mpr consistent, view⟩

theorem flush_yields (coherent : Coherent storage cache) :
    Step.Yields flush cache fun _ after => Coherent storage after ∧
      after.view storage.sector = cache.view storage.sector ∧
      storage.sector after.device = cache.view storage.sector := by
  apply Step.Yields.imp (coherent_iff.mp coherent).flush_yields
  exact fun _ _ ⟨consistent, same⟩ => ⟨coherent_iff.mpr consistent, same⟩

end Coherent

end Residency.Cache
