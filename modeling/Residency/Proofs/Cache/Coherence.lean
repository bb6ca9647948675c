import Mathlib.Tactic.Set
import Residency.Proofs.Cache.Slots
import Residency.Proofs.Storage

/-!
# Coherence of the cache

A cache is `Coherent` with the storage behind it when each sector has at most one slot, and each
slot either is marked as changed or holds what the device has.  What reading a sector gives is then
`Cache.view`: the bytes of its slot if it has one, else those on the device.

All of this is about sectors that were read before, so it is shown of any `Medium`, where it is
called `Consistent`.

The steps of which an access is made keep both: `Consistent.saveSlot_yields` for writing a changed
slot to the device, `Consistent.Admits` for a slot that takes another sector, `Consistent.Keeps` for
all that touches marks and counters only.  `Consistent.overwrite` is the one that changes the view.
-/

namespace Residency

namespace Cache

variable {δ : Type}

theorem view_of_absent {cache : Cache δ} {s : SectorNo} (onDevice : δ → SectorNo → Sector)
    (absent : ∀ i : Fin slotCount, (cache.slot i).sector ≠ some s) :
    cache.view onDevice s = onDevice cache.device s := by
  rw [view, find?_eq_none_iff.mpr absent]

/-! ## Coherence -/

variable [BlockDevice δ]

/-- A cache and the storage behind it fit together. -/
structure Coherent {N : Nat} (storage : Storage δ N) (cache : Cache δ) : Prop where
  serves : storage.Serves cache.device
  distinct : ∀ {i j : Fin slotCount} {s : SectorNo},
    (cache.slot i).sector = some s → (cache.slot j).sector = some s → i = j
  inside : ∀ {i : Fin slotCount} {s : SectorNo}, (cache.slot i).sector = some s → s.toNat < N
  empty : ∀ {i : Fin slotCount}, (cache.slot i).sector = none →
    (cache.slot i).accessed = false ∧ (cache.slot i).dirty = false
  /-- What is not marked as changed is what the device has. -/
  saved : ∀ {i : Fin slotCount} {s : SectorNo}, (cache.slot i).sector = some s →
    (cache.slot i).dirty = false → (cache.slot i).data = storage.sector cache.device s

/-- A cache and the medium behind it fit together. -/
structure Consistent (medium : Medium δ) (cache : Cache δ) : Prop where
  serves : medium.Serves cache.device
  distinct : ∀ {i j : Fin slotCount} {s : SectorNo},
    (cache.slot i).sector = some s → (cache.slot j).sector = some s → i = j
  has : ∀ {i : Fin slotCount} {s : SectorNo}, (cache.slot i).sector = some s → medium.Has s
  empty : ∀ {i : Fin slotCount}, (cache.slot i).sector = none →
    (cache.slot i).accessed = false ∧ (cache.slot i).dirty = false
  /-- What is not marked as changed is what the device has. -/
  saved : ∀ {i : Fin slotCount} {s : SectorNo}, (cache.slot i).sector = some s →
    (cache.slot i).dirty = false → (cache.slot i).data = medium.sector cache.device s

theorem coherent_iff {N : Nat} {storage : Storage δ N} {cache : Cache δ} :
    Coherent storage cache ↔ Consistent storage.medium cache :=
  ⟨fun ⟨serves, distinct, inside, empty, saved⟩ => ⟨serves, distinct, inside, empty, saved⟩,
    fun ⟨serves, distinct, has, empty, saved⟩ => ⟨serves, distinct, has, empty, saved⟩⟩

/-- What the device is asked to write is no other sector than the one in the slot. -/
theorem save_yields (medium : Medium δ) {device : δ} (serves : medium.Serves device) {slot : Slot}
    (writable : ∀ t, slot.sector = some t → medium.Has t) :
    Step.Yields (slot.save : Step δ Unit) device fun _ after => medium.Serves after ∧
      ∀ t, slot.sector ≠ some t → medium.sector after t = medium.sector device t := by
  rw [Slot.save]
  cases unsaved : slot.unsaved? with
  | none => exact (Step.ends_pure _).mpr ⟨serves, fun _ _ => rfl⟩
  | some entry =>
    obtain ⟨t, data⟩ := entry
    obtain ⟨-, held, -⟩ := Slot.unsaved?_eq_some_iff.mp unsaved
    apply (medium.writeBlock_yields data serves (writable t held)).imp
    rintro _ after ⟨servesAfter, written⟩
    refine ⟨servesAfter, fun other different => ?_⟩
    rw [written, Function.update_of_ne]
    intro same
    exact different (same ▸ held)

namespace Consistent

variable {medium : Medium δ} {cache : Cache δ}

theorem orderly (consistent : Consistent medium cache) : Orderly cache :=
  ⟨consistent.distinct, consistent.empty⟩

theorem view_of_resident (consistent : Consistent medium cache) {i : Fin slotCount} {s : SectorNo}
    (resident : (cache.slot i).sector = some s) :
    cache.view medium.sector s = (cache.slot i).data := by
  cases found : cache.find? s with
  | none => exact absurd resident (find?_eq_none_iff.mp found i)
  | some j =>
    rw [view, found, consistent.distinct resident (find?_eq_some found)]

theorem ne_of_other_slot (consistent : Consistent medium cache) {i j : Fin slotCount}
    {s t : SectorNo} (held : (cache.slot i).sector = some s)
    (heldThere : (cache.slot j).sector = some t) (different : i ≠ j) : t ≠ s := by
  intro same
  subst same
  exact different (consistent.distinct held heldThere)

omit [BlockDevice δ] in
theorem ne_of_absent {i : Fin slotCount} {s t : SectorNo} (held : (cache.slot i).sector = some s)
    (absent : ∀ j : Fin slotCount, (cache.slot j).sector ≠ some t) : t ≠ s := by
  intro same
  subst same
  exact absent i held

theorem fresh (medium : Medium δ) {device : δ} (serves : medium.Serves device) :
    Consistent medium { device := device } ∧
      view { device := device } medium.sector = medium.sector device := by
  have absent (i : Fin slotCount) (s : SectorNo) :
      (({ device := device } : Cache δ).slot i).sector ≠ some s := by
    rw [slot_fresh]
    intro held
    cases held
  constructor
  · exact {
      serves := serves
      distinct := fun held => absurd held (absent _ _)
      has := fun held => absurd held (absent _ _)
      empty := (Orderly.fresh device).empty
      saved := fun held => absurd held (absent _ _) }
  · funext s
    exact view_of_absent medium.sector fun i => absent i s

/-! ## Slots that keep their sectors -/

/-- Slots that keep their sectors stay consistent if those that are not marked as changed hold what
the device has. -/
theorem of_sectors (consistent : Consistent medium cache) (after : Cache δ)
    (serves : medium.Serves after.device)
    (sectors : ∀ i : Fin slotCount, (after.slot i).sector = (cache.slot i).sector)
    (empty : ∀ i : Fin slotCount, (cache.slot i).sector = none →
      (after.slot i).accessed = (cache.slot i).accessed ∧
        (after.slot i).dirty = (cache.slot i).dirty)
    (saved : ∀ (i : Fin slotCount) s, (cache.slot i).sector = some s →
      (after.slot i).dirty = false → (after.slot i).data = medium.sector after.device s) :
    Consistent medium after where
  serves := serves
  distinct := by
    intro i j s hi hj
    rw [sectors] at hi hj
    exact consistent.distinct hi hj
  has := by
    intro i s hi
    rw [sectors] at hi
    exact consistent.has hi
  empty := by
    intro i hi
    rw [sectors] at hi
    rw [(empty i hi).1, (empty i hi).2]
    exact consistent.empty hi
  saved := by
    intro i s hi clean
    rw [sectors] at hi
    exact saved i s hi clean

/-- With the same sectors in the slots, a sector is read from the same slot or from the device. -/
theorem view_of_sectors {after : Cache δ} (consistent : Consistent medium cache)
    (consistentAfter : Consistent medium after)
    (sectors : ∀ i : Fin slotCount, (after.slot i).sector = (cache.slot i).sector)
    (s : SectorNo) :
    (∃ i : Fin slotCount, (cache.slot i).sector = some s ∧
        cache.view medium.sector s = (cache.slot i).data ∧
        after.view medium.sector s = (after.slot i).data) ∨
      (∀ i : Fin slotCount, (cache.slot i).sector ≠ some s) ∧
        cache.view medium.sector s = medium.sector cache.device s ∧
        after.view medium.sector s = medium.sector after.device s := by
  by_cases resident : ∃ i : Fin slotCount, (cache.slot i).sector = some s
  · obtain ⟨i, hi⟩ := resident
    exact Or.inl ⟨i, hi, consistent.view_of_resident hi,
      consistentAfter.view_of_resident ((sectors i).trans hi)⟩
  · have absent := not_exists.mp resident
    exact Or.inr ⟨absent, view_of_absent _ absent,
      view_of_absent _ fun i => by rw [sectors]; exact absent i⟩

/-! ## Marks, counters and the hand -/

/-- Every slot keeps its sector and its bytes, none becomes clean and the empty ones stay as they
are, in front of a device that holds the same. -/
structure Keeps (medium : Medium δ) (before after : Cache δ) : Prop where
  serves : medium.Serves after.device
  device : medium.sector after.device = medium.sector before.device
  sector : ∀ i : Fin slotCount, (after.slot i).sector = (before.slot i).sector
  data : ∀ i : Fin slotCount, (after.slot i).data = (before.slot i).data
  dirty : ∀ i : Fin slotCount, (after.slot i).dirty = false → (before.slot i).dirty = false
  empty : ∀ i : Fin slotCount, (before.slot i).sector = none → after.slot i = before.slot i

theorem of_keeps {after : Cache δ} (consistent : Consistent medium cache)
    (keeps : Keeps medium cache after) :
    Consistent medium after ∧ after.view medium.sector = cache.view medium.sector := by
  have consistentAfter : Consistent medium after := by
    apply consistent.of_sectors after keeps.serves keeps.sector
    · intro i empty
      rw [keeps.empty i empty]
      exact ⟨rfl, rfl⟩
    · intro i s held clean
      rw [keeps.data, keeps.device]
      exact consistent.saved held (keeps.dirty i clean)
  refine ⟨consistentAfter, funext fun s => ?_⟩
  rcases consistent.view_of_sectors consistentAfter keeps.sector s with
    ⟨i, -, before, after⟩ | ⟨-, before, after⟩
  · rw [before, after, keeps.data]
  · rw [before, after, keeps.device]

/-- Passing slots takes marks of use only. -/
theorem chooseSlot_keeps (consistent : Consistent medium cache) :
    Step.Yields chooseSlot cache fun _ after => Keeps medium cache after := by
  apply (chooseSlot_yields cache).imp
  rintro _ after ⟨-, slots, -, -, device⟩
  refine ⟨?_, ?_, fun i => ?_, fun i => ?_, fun i clean => ?_, fun i empty => ?_⟩
  · rw [device]
    exact consistent.serves
  · rw [device]
  · rw [slots, sector_swept]
  · rw [slots, data_swept]
  · rw [slots, dirty_swept] at clean
    exact clean
  · rw [slots, swept_of_empty empty]

theorem keeps_modifyStats (consistent : Consistent medium cache) (f : Stats → Stats) :
    Keeps medium cache (cache.modifyStats f) :=
  ⟨consistent.serves, rfl, fun _ => rfl, fun _ => rfl, fun _ => id, fun _ _ => rfl⟩

theorem keeps_touch (consistent : Consistent medium cache) {i : Fin slotCount} {s : SectorNo}
    (resident : (cache.slot i).sector = some s) (mode : Access) :
    Keeps medium cache (cache.modifySlot i (·.touch mode)) := by
  refine ⟨consistent.serves, rfl, fun j => ?_, fun j => ?_, fun j => ?_, fun j empty => ?_⟩
  all_goals rw [slot_modifySlot]
  · split <;> rfl
  · split <;> rfl
  · split
    · simp only [Slot.touch, Bool.or_eq_false_iff]
      exact And.left
    · exact id
  · -- the slot that is used has a sector, hence is not the empty one
    have other : i ≠ j := by
      intro same
      subst same
      rw [resident] at empty
      cases empty
    rw [if_neg other]

/-! ## Sectors that come and go -/

/-- What a slot holds is safe on the device. -/
def IsSafe (medium : Medium δ) (cache : Cache δ) (i : Fin slotCount) : Prop :=
  ∀ s, (cache.slot i).sector = some s → (cache.slot i).data = medium.sector cache.device s

/-- Writing a changed slot to the device. -/
theorem written (consistent : Consistent medium cache) {i : Fin slotCount} {s : SectorNo}
    (held : (cache.slot i).sector = some s) {device : δ} (serves : medium.Serves device)
    (writes : medium.sector device =
      Function.update (medium.sector cache.device) s (cache.slot i).data) :
    Consistent medium { cache with device } ∧
      ({ cache with device } : Cache δ).view medium.sector = cache.view medium.sector ∧
      IsSafe medium { cache with device } i := by
  have safe : IsSafe medium { cache with device } i := by
    intro t heldToo
    cases held.symm.trans heldToo
    show (cache.slot i).data = medium.sector device s
    rw [writes, Function.update_self]
  have consistentAfter : Consistent medium { cache with device } := by
    refine consistent.of_sectors { cache with device } serves (fun _ => rfl)
      (fun _ _ => ⟨rfl, rfl⟩) fun j t heldThere clean => ?_
    by_cases same : i = j
    · subst same
      exact safe t heldThere
    · -- no other slot holds the sector that was written, so its device bytes are as before
      have other := consistent.ne_of_other_slot held heldThere same
      show (cache.slot j).data = medium.sector device t
      rw [writes, Function.update_of_ne other]
      exact consistent.saved heldThere clean
  refine ⟨consistentAfter, funext fun t => ?_, safe⟩
  rcases consistent.view_of_sectors consistentAfter (fun _ => rfl) t with
    ⟨j, -, before, after⟩ | ⟨absent, before, after⟩
  · rw [before, after]
    rfl
  · rw [before, after]
    show medium.sector device t = medium.sector cache.device t
    rw [writes, Function.update_of_ne (ne_of_absent held absent)]

theorem saveSlot_yields (consistent : Consistent medium cache) (i : Fin slotCount) :
    Step.Yields (saveSlot i) cache fun saved after =>
      Consistent medium after ∧ after.view medium.sector = cache.view medium.sector ∧
        IsSafe medium after i ∧ (∀ j : Fin slotCount, after.slot j = cache.slot j) ∧
        saved = (cache.slot i).dirty := by
  simp only [saveSlot, Step.ends_bind, Step.ends_get]
  cases unsaved : (cache.slot i).unsaved? with
  | none =>
    have clean : (cache.slot i).dirty = false := by
      rw [← consistent.orderly.isSome_unsaved?, unsaved]
      rfl
    rw [Step.ends_pure]
    exact ⟨consistent, rfl, fun s held => consistent.saved held clean, fun _ => rfl, clean.symm⟩
  | some entry =>
    obtain ⟨s, data⟩ := entry
    obtain ⟨changed, held, rfl⟩ := Slot.unsaved?_eq_some_iff.mp unsaved
    simp only [Step.ends_bind, Step.ends_on, Step.ends_pure]
    apply Step.Yields.imp
      (medium.writeBlock_yields (cache.slot i).data consistent.serves (consistent.has held))
    intro _ device ended
    obtain ⟨serves, writes⟩ := ended
    obtain ⟨consistentAfter, view, safe⟩ := consistent.written held serves writes
    exact ⟨consistentAfter, view, safe, fun _ => rfl, changed.symm⟩

/-- Slot `i` takes the sector `s` as the device has it, and the other slots stay as they are. -/
structure Admits (medium : Medium δ) (before : Cache δ) (i : Fin slotCount) (s : SectorNo)
    (mode : Access) (after : Cache δ) : Prop where
  absent : ∀ j : Fin slotCount, (before.slot j).sector ≠ some s
  has : medium.Has s
  serves : medium.Serves after.device
  device : medium.sector after.device = medium.sector before.device
  chosen : after.slot i =
    Slot.hold { before.slot i with data := medium.sector before.device s } s mode
  others : ∀ j : Fin slotCount, i ≠ j → after.slot j = before.slot j

namespace Admits

variable {after : Cache δ} {i : Fin slotCount} {s : SectorNo} {mode : Access}

theorem held (admits : Admits medium cache i s mode after) :
    (after.slot i).sector = some s := by
  rw [admits.chosen]
  rfl

theorem held_before (admits : Admits medium cache i s mode after) {j : Fin slotCount}
    {t : SectorNo} (there : (after.slot j).sector = some t) (different : i ≠ j) :
    (cache.slot j).sector = some t := by
  rw [← admits.others j different]
  exact there

/-- What a slot holds is the new sector, in the chosen slot, or was there before. -/
theorem held_cases (admits : Admits medium cache i s mode after) {j : Fin slotCount}
    {t : SectorNo} (there : (after.slot j).sector = some t) :
    i = j ∧ s = t ∨ i ≠ j ∧ (cache.slot j).sector = some t := by
  by_cases first : i = j
  · subst first
    cases admits.held.symm.trans there
    exact Or.inl ⟨rfl, rfl⟩
  · exact Or.inr ⟨first, admits.held_before there first⟩

theorem consistent (admits : Admits medium cache i s mode after)
    (consistent : Consistent medium cache) : Consistent medium after where
  serves := admits.serves
  distinct := by
    intro j k t hj hk
    -- a second slot with the new sector would have held it before, where it was absent
    rcases admits.held_cases hj with ⟨first, new⟩ | ⟨-, heldThere⟩ <;>
      rcases admits.held_cases hk with ⟨second, newToo⟩ | ⟨-, heldToo⟩
    · rw [← first, ← second]
    · subst new
      exact absurd heldToo (admits.absent k)
    · subst newToo
      exact absurd heldThere (admits.absent j)
    · exact consistent.distinct heldThere heldToo
  has := by
    intro j t hj
    rcases admits.held_cases hj with ⟨-, new⟩ | ⟨-, heldThere⟩
    · rw [← new]
      exact admits.has
    · exact consistent.has heldThere
  empty := by
    intro j hj
    have other : i ≠ j := by
      intro same
      subst same
      cases admits.held.symm.trans hj
    rw [admits.others j other] at hj ⊢
    exact consistent.empty hj
  saved := by
    intro j t hj clean
    rw [admits.device]
    rcases admits.held_cases hj with ⟨first, new⟩ | ⟨other, heldThere⟩
    · subst first new
      rw [admits.chosen]
      rfl
    · rw [admits.others j other] at clean ⊢
      exact consistent.saved heldThere clean

/-- A sector that is in no other slot than the one given up is read from the device afterwards. -/
theorem view_of_elsewhere (admits : Admits medium cache i s mode after) {t : SectorNo}
    (other : t ≠ s) (elsewhere : ∀ k : Fin slotCount, i ≠ k → (cache.slot k).sector ≠ some t) :
    after.view medium.sector t = medium.sector cache.device t := by
  rw [← admits.device]
  apply view_of_absent
  intro k there
  rcases admits.held_cases there with ⟨-, new⟩ | ⟨second, heldThere⟩
  · exact other new.symm
  · exact elsewhere k second heldThere

theorem view (admits : Admits medium cache i s mode after) (consistent : Consistent medium cache)
    (safe : IsSafe medium cache i) : after.view medium.sector = cache.view medium.sector := by
  funext t
  by_cases wanted : t = s
  · -- the new sector was read from the device before and is read from the slot now
    subst wanted
    rw [(admits.consistent consistent).view_of_resident admits.held, view_of_absent _ admits.absent,
      admits.chosen]
    rfl
  by_cases resident : ∃ j : Fin slotCount, (cache.slot j).sector = some t
  · obtain ⟨j, hj⟩ := resident
    rw [consistent.view_of_resident hj]
    by_cases first : i = j
    · -- the sector that gave up its slot is read from the device again
      subst first
      have elsewhere (k : Fin slotCount) (second : i ≠ k) : (cache.slot k).sector ≠ some t :=
        fun there => second (consistent.distinct hj there)
      rw [admits.view_of_elsewhere wanted elsewhere, safe t hj]
    · have heldThere : (after.slot j).sector = some t := by
        rw [admits.others j first]
        exact hj
      rw [(admits.consistent consistent).view_of_resident heldThere, admits.others j first]
  · have absent := not_exists.mp resident
    rw [admits.view_of_elsewhere wanted fun k _ => absent k, view_of_absent _ absent]

end Admits

theorem overwrite (consistent : Consistent medium cache) {i : Fin slotCount} {s : SectorNo}
    (held : (cache.slot i).sector = some s) (changed : (cache.slot i).dirty = true)
    (f : Sector → Sector) :
    Consistent medium (cache.modifySlot i fun slot => { slot with data := f slot.data }) ∧
      (cache.modifySlot i fun slot => { slot with data := f slot.data }).view medium.sector =
        Function.update (cache.view medium.sector) s (f (cache.view medium.sector s)) := by
  set after := cache.modifySlot i fun slot => { slot with data := f slot.data } with after_eq
  have chosen : after.slot i = { cache.slot i with data := f (cache.slot i).data } := by
    rw [after_eq, slot_modifySlot, if_pos rfl]
  have others (j : Fin slotCount) (different : i ≠ j) : after.slot j = cache.slot j := by
    rw [after_eq, slot_modifySlot, if_neg different]
  have sectors (j : Fin slotCount) : (after.slot j).sector = (cache.slot j).sector := by
    by_cases same : i = j
    · subst same; rw [chosen]
    · rw [others j same]
  have consistentAfter : Consistent medium after := by
    apply consistent.of_sectors after consistent.serves sectors
    · intro j empty
      have different : i ≠ j := by
        intro same
        subst same
        cases held.symm.trans empty
      rw [others j different]
      exact ⟨rfl, rfl⟩
    · intro j t heldThere clean
      -- the slot that is written into is marked, so `saved` asks nothing of it
      by_cases same : i = j
      · subst same
        rw [chosen] at clean
        cases changed.symm.trans clean
      · rw [others j same] at clean ⊢
        exact consistent.saved heldThere clean
  refine ⟨consistentAfter, funext fun t => ?_⟩
  rw [consistent.view_of_resident held]
  rcases consistent.view_of_sectors consistentAfter sectors t with
    ⟨j, heldThere, before, view⟩ | ⟨absent, before, view⟩
  · by_cases same : i = j
    · subst same
      cases held.symm.trans heldThere
      rw [view, chosen, Function.update_self]
    · have other := consistent.ne_of_other_slot held heldThere same
      rw [view, others j same, Function.update_of_ne other, before]
  · rw [view, Function.update_of_ne (ne_of_absent held absent), before]
    rfl

theorem clean (consistent : Consistent medium cache) {i : Fin slotCount}
    (safe : IsSafe medium cache i) :
    Consistent medium (cache.modifySlot i ({ · with dirty := false })) ∧
      (cache.modifySlot i ({ · with dirty := false })).view medium.sector =
        cache.view medium.sector := by
  set after := cache.modifySlot i ({ · with dirty := false }) with after_eq
  have slots (j : Fin slotCount) : after.slot j =
      if i = j then { cache.slot j with dirty := false } else cache.slot j := by
    rw [after_eq, slot_modifySlot]
  have sectors (j : Fin slotCount) : (after.slot j).sector = (cache.slot j).sector := by
    rw [slots]; split <;> rfl
  have consistentAfter : Consistent medium after := by
    apply consistent.of_sectors after consistent.serves sectors
    · intro j empty
      rw [slots]
      split
      · exact ⟨rfl, (consistent.empty empty).2.symm⟩
      · exact ⟨rfl, rfl⟩
    · intro j t held clean
      rw [slots] at clean ⊢
      split at clean
      next same =>
        subst same
        rw [if_pos rfl]
        exact safe t held
      next different =>
        rw [if_neg different]
        exact consistent.saved held clean
  refine ⟨consistentAfter, funext fun t => ?_⟩
  rcases consistent.view_of_sectors consistentAfter sectors t with
    ⟨j, -, before, view⟩ | ⟨-, before, view⟩
  · rw [view, before, slots]
    split <;> rfl
  · rw [view, before]
    rfl

end Consistent

theorem Coherent.fresh {N : Nat} (storage : Storage δ N) {device : δ}
    (serves : storage.Serves device) :
    Coherent storage { device := device } ∧
      view { device := device } storage.sector = storage.sector device :=
  (Consistent.fresh storage.medium serves).imp_left coherent_iff.mpr

end Cache

end Residency
