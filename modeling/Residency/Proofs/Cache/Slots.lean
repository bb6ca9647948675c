import Residency.Cache.Basic
import Residency.Proofs.Cache.Sweep
import Residency.Proofs.Step

/-!
# What accesses do to the slots

What finding a sector in a slot, or bringing it into one, does to the slots, the hand and the
counters.  It is the same in front of every device, and only the bytes that are read depend on it:
`slotFor_yields_of_found` and `ends_bringIn_iff` leave the transfers to the device.

A cache is `Orderly` when no sector has two slots and no empty slot has a mark.  This too depends on
no device: what keeps all sectors in their slots keeps it (`KeepsSectors.orderly`), and so does
bringing in a sector that has no slot (`BringsIn.orderly`).
-/

namespace Residency

namespace Slot

theorem unsaved?_eq_some_iff {slot : Slot} {s : SectorNo} {data : Sector} :
    slot.unsaved? = some (s, data) ↔
      slot.dirty = true ∧ slot.sector = some s ∧ slot.data = data := by
  cases held : slot.sector <;> simp [unsaved?, held]

theorem unsaved?_of_clean {slot : Slot} (clean : slot.dirty = false) : slot.unsaved? = none := by
  rw [unsaved?, clean]
  rfl

/-- Writes what the device lacks of a slot. -/
def save {δ : Type} [BlockDevice δ] (slot : Slot) : Step δ Unit :=
  match slot.unsaved? with
  | some (s, data) => writeBlock s data
  | none => pure ()

end Slot

namespace Cache

variable {δ : Type}

theorem slot_modifySlot (cache : Cache δ) (i j : Fin slotCount) (f : Slot → Slot) :
    (cache.modifySlot i f).slot j = if i = j then f (cache.slot j) else cache.slot j := by
  simp only [slot, modifySlot, Fin.getElem_fin, Vector.getElem_set, Fin.ext_iff]
  split
  next same => simp only [same]
  next => rfl

theorem modifySlot_modifySlot (cache : Cache δ) (i : Fin slotCount) (f g : Slot → Slot) :
    (cache.modifySlot i f).modifySlot i g = cache.modifySlot i fun slot => g (f slot) := by
  simp [modifySlot, slot]

/-! ## Where a sector is -/

theorem find?_eq_some {cache : Cache δ} {s : SectorNo} {i : Fin slotCount}
    (found : cache.find? s = some i) : (cache.slot i).sector = some s := by
  simpa using List.find?_some found

theorem find?_eq_none_iff {cache : Cache δ} {s : SectorNo} :
    cache.find? s = none ↔ ∀ i : Fin slotCount, (cache.slot i).sector ≠ some s := by
  simp [find?]

theorem resident_eq_filterMap (cache : Cache δ) :
    cache.resident = (List.finRange slotCount).filterMap fun i => (cache.slot i).sector := by
  have slots : cache.slots.toList = (List.finRange slotCount).map cache.slot := by
    apply List.ext_getElem
    · rw [Vector.length_toList, List.length_map, List.length_finRange]
    · intro i _ _
      rw [Vector.getElem_toList, List.getElem_map, List.getElem_finRange]
      rfl
  rw [resident, slots, List.filterMap_map]
  rfl

theorem mem_resident_iff {cache : Cache δ} {s : SectorNo} :
    s ∈ cache.resident ↔ ∃ i : Fin slotCount, (cache.slot i).sector = some s := by
  simp [resident_eq_filterMap]

/-! ## The slot that is given up -/

/-- The slot that is given up for the next sector that has none. -/
def victim (cache : Cache δ) : Fin slotCount :=
  (sweep cache.slots cache.hand).chosen

/-- A slot as the hand leaves it on its way to the one that is given up. -/
def swept (cache : Cache δ) (i : Fin slotCount) : Slot :=
  ({ cache with slots := (sweep cache.slots cache.hand).slots } : Cache δ).slot i

theorem swept_eq (cache : Cache δ) (i : Fin slotCount) :
    cache.swept i =
      if ∃ k < (sweep cache.slots cache.hand).passed, inCircle cache.hand k = i then
        (cache.slot i).pass
      else cache.slot i :=
  get_sweep_slots cache.slots cache.hand i

theorem swept_cases (cache : Cache δ) (i : Fin slotCount) :
    cache.swept i = cache.slot i ∨
      (cache.slot i).sector.isSome ∧ cache.swept i = (cache.slot i).pass :=
  sweep_slots cache.slots cache.hand i

section Swept

variable (cache : Cache δ) (i : Fin slotCount)

@[simp] theorem sector_swept : (cache.swept i).sector = (cache.slot i).sector := by
  rcases cache.swept_cases i with same | ⟨-, passed⟩
  · rw [same]
  · rw [passed]; rfl

@[simp] theorem data_swept : (cache.swept i).data = (cache.slot i).data := by
  rcases cache.swept_cases i with same | ⟨-, passed⟩
  · rw [same]
  · rw [passed]; rfl

@[simp] theorem dirty_swept : (cache.swept i).dirty = (cache.slot i).dirty := by
  rcases cache.swept_cases i with same | ⟨-, passed⟩
  · rw [same]
  · rw [passed]; rfl

@[simp] theorem unsaved?_swept : (cache.swept i).unsaved? = (cache.slot i).unsaved? := by
  simp only [Slot.unsaved?, sector_swept, data_swept, dirty_swept]

theorem save_swept [BlockDevice δ] :
    (cache.swept i).save = ((cache.slot i).save : Step δ Unit) := by
  rw [Slot.save, Slot.save, unsaved?_swept]

end Swept

theorem swept_of_empty {cache : Cache δ} {i : Fin slotCount}
    (empty : (cache.slot i).sector = none) : cache.swept i = cache.slot i := by
  rcases cache.swept_cases i with same | ⟨occupied, -⟩
  · exact same
  · rw [empty] at occupied
    cases occupied

/-- The cache after the hand has chosen a slot for a sector that has none, in front of a device that
may have taken what it lacked of that slot. -/
def choosing (cache : Cache δ) (saved : Bool) (device : δ) : Cache δ where
  device
  slots := (sweep cache.slots cache.hand).slots
  hand := nextInCircle cache.victim
  stats := { cache.stats with
    misses := cache.stats.misses + 1
    writeBacks := if saved then cache.stats.writeBacks + 1 else cache.stats.writeBacks }

theorem slot_choosing (cache : Cache δ) (saved : Bool) (device : δ) (i : Fin slotCount) :
    (cache.choosing saved device).slot i = cache.swept i :=
  rfl

/-! ## Slots in order -/

/-- No sector has two slots, and an empty slot has no marks. -/
structure Orderly (cache : Cache δ) : Prop where
  distinct : ∀ {i j : Fin slotCount} {s : SectorNo},
    (cache.slot i).sector = some s → (cache.slot j).sector = some s → i = j
  empty : ∀ {i : Fin slotCount}, (cache.slot i).sector = none →
    (cache.slot i).accessed = false ∧ (cache.slot i).dirty = false

theorem slot_fresh (device : δ) (i : Fin slotCount) :
    ({ device := device } : Cache δ).slot i = {} := by
  simp [slot]

theorem Orderly.fresh (device : δ) : Orderly ({ device := device } : Cache δ) where
  distinct held := by
    rw [slot_fresh] at held
    cases held
  empty _ := by
    rw [slot_fresh]
    exact ⟨rfl, rfl⟩

/-- In an orderly cache exactly the slots that are marked as changed hold what the device lacks. -/
theorem Orderly.isSome_unsaved? {cache : Cache δ} (orderly : Orderly cache) (i : Fin slotCount) :
    (cache.slot i).unsaved?.isSome = (cache.slot i).dirty := by
  cases held : (cache.slot i).sector with
  | none => simp [Slot.unsaved?, (orderly.empty held).2]
  | some s => cases changed : (cache.slot i).dirty <;> simp [Slot.unsaved?, held, changed]

theorem Orderly.unsaved?_of_dirty {cache : Cache δ} (orderly : Orderly cache) {i : Fin slotCount}
    (changed : (cache.slot i).dirty = true) : ∃ s, (cache.slot i).sector = some s ∧
      (cache.slot i).unsaved? = some (s, (cache.slot i).data) := by
  cases held : (cache.slot i).sector with
  | none => cases (orderly.empty held).2.symm.trans changed
  | some s => exact ⟨s, rfl, Slot.unsaved?_eq_some_iff.mpr ⟨changed, held, rfl⟩⟩

/-- Every slot keeps its sector, and an empty one its marks. -/
structure KeepsSectors (before after : Cache δ) : Prop where
  sector : ∀ i : Fin slotCount, (after.slot i).sector = (before.slot i).sector
  empty : ∀ i : Fin slotCount, (before.slot i).sector = none →
    (after.slot i).accessed = (before.slot i).accessed ∧
      (after.slot i).dirty = (before.slot i).dirty

namespace KeepsSectors

variable {before middle after : Cache δ}

theorem refl (cache : Cache δ) : KeepsSectors cache cache :=
  ⟨fun _ => rfl, fun _ _ => ⟨rfl, rfl⟩⟩

theorem trans (first : KeepsSectors before middle) (second : KeepsSectors middle after) :
    KeepsSectors before after where
  sector i := (second.sector i).trans (first.sector i)
  empty i empty := by
    obtain ⟨accessed, dirty⟩ := second.empty i ((first.sector i).trans empty)
    exact ⟨accessed.trans (first.empty i empty).1, dirty.trans (first.empty i empty).2⟩

theorem orderly (keeps : KeepsSectors before after) (orderly : Orderly before) :
    Orderly after where
  distinct hi hj := by
    rw [keeps.sector] at hi hj
    exact orderly.distinct hi hj
  empty {i} hi := by
    rw [keeps.sector] at hi
    rw [(keeps.empty i hi).1, (keeps.empty i hi).2]
    exact orderly.empty hi

theorem resident (keeps : KeepsSectors before after) : after.resident = before.resident := by
  simp only [resident_eq_filterMap, keeps.sector]

end KeepsSectors

/-! ## Accesses -/

/-- The sector `s` was found in the slot `i`.  What is done with its bytes is left open. -/
structure Finds (before : Cache δ) (s : SectorNo) (mode : Access) (i : Fin slotCount)
    (after : Cache δ) : Prop where
  held : (before.slot i).sector = some s
  touched : after.slot i = { (before.slot i).touch mode with data := (after.slot i).data }
  others : ∀ j : Fin slotCount, i ≠ j → after.slot j = before.slot j
  hand : after.hand = before.hand
  stats : after.stats = { before.stats with hits := before.stats.hits + 1 }
  device : after.device = before.device

/-- A slot was given up, and is the slot `i` of the sector `s` now.  What is done with its bytes is
left open. -/
structure BringsIn (before : Cache δ) (s : SectorNo) (mode : Access) (i : Fin slotCount)
    (after : Cache δ) : Prop where
  victim : i = before.victim
  hand : after.hand = nextInCircle i
  held : after.slot i = (after.slot i).hold s mode
  others : ∀ j : Fin slotCount, i ≠ j → after.slot j = before.swept j
  stats : after.stats = { before.stats with
    misses := before.stats.misses + 1
    writeBacks := if (before.slot i).unsaved?.isSome then before.stats.writeBacks + 1
      else before.stats.writeBacks }

section Accesses

variable {before after : Cache δ} {s : SectorNo} {mode : Access} {i : Fin slotCount}

theorem Finds.keepsSectors (finds : Finds before s mode i after) : KeepsSectors before after where
  sector j := by
    by_cases same : i = j
    · subst same
      rw [finds.touched]
      rfl
    · rw [finds.others j same]
  empty j empty := by
    by_cases same : i = j
    · subst same
      cases finds.held.symm.trans empty
    · rw [finds.others j same]
      exact ⟨rfl, rfl⟩

theorem Finds.modifyData (finds : Finds before s mode i after) (f : Sector → Sector) :
    Finds before s mode i (after.modifySlot i fun slot => { slot with data := f slot.data }) where
  held := finds.held
  touched := by
    rw [slot_modifySlot, if_pos rfl, finds.touched]
  others j other := by
    rw [slot_modifySlot, if_neg other, finds.others j other]
  hand := finds.hand
  stats := finds.stats
  device := finds.device

namespace BringsIn

theorem sector (brings : BringsIn before s mode i after) : (after.slot i).sector = some s := by
  rw [brings.held]
  rfl

theorem sector_of_ne (brings : BringsIn before s mode i after) {j : Fin slotCount}
    (other : i ≠ j) : (after.slot j).sector = (before.slot j).sector := by
  rw [brings.others j other, sector_swept]

theorem modifyData (brings : BringsIn before s mode i after) (f : Sector → Sector) :
    BringsIn before s mode i
      (after.modifySlot i fun slot => { slot with data := f slot.data }) where
  victim := brings.victim
  hand := brings.hand
  held := by
    rw [slot_modifySlot, if_pos rfl, brings.held]
    rfl
  others j other := by
    rw [slot_modifySlot, if_neg other, brings.others j other]
  stats := brings.stats

theorem orderly (brings : BringsIn before s mode i after) (orderly : Orderly before)
    (absent : ∀ j : Fin slotCount, (before.slot j).sector ≠ some s) : Orderly after where
  distinct {j k t} hj hk := by
    by_cases first : i = j <;> by_cases second : i = k
    · rw [← first, ← second]
    · -- the sector that was brought in had no other slot
      subst first
      cases brings.sector.symm.trans hj
      rw [brings.sector_of_ne second] at hk
      exact absurd hk (absent k)
    · subst second
      cases brings.sector.symm.trans hk
      rw [brings.sector_of_ne first] at hj
      exact absurd hj (absent j)
    · rw [brings.sector_of_ne first] at hj
      rw [brings.sector_of_ne second] at hk
      exact orderly.distinct hj hk
  empty {j} hj := by
    have other : i ≠ j := by
      intro same
      subst same
      cases brings.sector.symm.trans hj
    rw [brings.sector_of_ne other] at hj
    rw [brings.others j other, swept_of_empty hj]
    exact orderly.empty hj

end BringsIn

end Accesses

/-! ## The steps of an access -/

section Steps

variable {cache : Cache δ} {i : Fin slotCount} {s : SectorNo}

theorem chooseSlot_yields (cache : Cache δ) :
    Step.Yields chooseSlot cache fun i after => i = cache.victim ∧
      (∀ j : Fin slotCount, after.slot j = cache.swept j) ∧
      after.hand = nextInCircle cache.victim ∧ after.stats = cache.stats ∧
      after.device = cache.device := by
  refine (Step.ends_modifyGet _).mpr ?_
  exact ⟨rfl, fun _ => rfl, rfl, rfl, rfl⟩

theorem ends_chooseSlot {done : Fin slotCount → Cache δ → Prop}
    {stopped : Fault → Cache δ → Prop} :
    Step.Ends chooseSlot (cache.modifyStats fun stats => { stats with misses := stats.misses + 1 })
      done stopped ↔ done cache.victim (cache.choosing false cache.device) :=
  Step.ends_modifyGet _

/-- A cache that is as the hand has left `cache`, but perhaps for some bytes, keeps the sectors. -/
theorem keepsSectors_of_swept {reached : Cache δ}
    (slots : ∀ j : Fin slotCount, ∃ data, reached.slot j = { cache.swept j with data }) :
    KeepsSectors cache reached where
  sector j := by
    obtain ⟨data, same⟩ := slots j
    rw [same]
    exact sector_swept cache j
  empty j empty := by
    obtain ⟨data, same⟩ := slots j
    rw [same, swept_of_empty empty]
    exact ⟨rfl, rfl⟩

theorem ends_lookup {done : Option (Fin slotCount) → Cache δ → Prop}
    {stopped : Fault → Cache δ → Prop} (mode : Access) :
    Step.Ends (lookup s mode) cache done stopped ↔
      match cache.find? s with
      | some i => done (some i) ((cache.modifyStats fun stats =>
          { stats with hits := stats.hits + 1 }).modifySlot i (·.touch mode))
      | none => done none cache := by
  simp only [lookup, Step.ends_bind, Step.ends_get]
  cases cache.find? s with
  | some i => simp only [Step.ends_bind, Step.ends_modify, Step.ends_pure]
  | none => simp only [Step.ends_pure]

variable [BlockDevice δ]

theorem ends_saveSlot {done : Bool → Cache δ → Prop} {stopped : Fault → Cache δ → Prop} :
    Step.Ends (saveSlot i) cache done stopped ↔
      Step.Ends (cache.slot i).save cache.device
        (fun _ device => done (cache.slot i).unsaved?.isSome { cache with device })
        fun fault device => stopped fault { cache with device } := by
  simp only [saveSlot, Slot.save, Step.ends_bind, Step.ends_get]
  cases (cache.slot i).unsaved? with
  | none => simp only [Step.ends_pure, Option.isSome_none]
  | some entry => simp only [Step.ends_bind, Step.ends_on, Step.ends_pure, Option.isSome_some]

/-- Reading a sector into the slot that was chosen. -/
theorem ends_load (mode : Access) (saved : Bool) (device : δ)
    {done : Fin slotCount → Cache δ → Prop} {stopped : Fault → Cache δ → Prop} :
    Step.Ends (do
        loadSlot cache.victim s
        modify (·.modifySlot cache.victim (·.hold s mode))
        return cache.victim) (cache.choosing saved device) done stopped ↔
      Step.Ends (readBlock s) ((cache.slot cache.victim).data, device)
        (fun _ after => done cache.victim ((cache.choosing saved after.2).modifySlot cache.victim
          fun slot => Slot.hold { slot with data := after.1 } s mode))
        fun fault after => stopped fault
          ((cache.choosing saved after.2).modifySlot cache.victim ({ · with data := after.1 })) := by
  -- reading into the buffer and taking the name of the sector are one change of the slot
  have once (data : Sector) (reached : δ) :
      ({ (cache.choosing saved device).modifySlot cache.victim ({ · with data }) with
          device := reached } : Cache δ).modifySlot cache.victim (·.hold s mode) =
        (cache.choosing saved reached).modifySlot cache.victim
          fun slot => Slot.hold { slot with data } s mode :=
    modifySlot_modifySlot (cache.choosing saved reached) cache.victim ({ · with data })
      (·.hold s mode)
  simp only [loadSlot, Step.ends_bind, Step.ends_on, Step.ends_modify, Step.ends_pure,
    slot_choosing, data_swept, once]
  rfl

/-- Bringing in a sector, up to what the device does in the two transfers. -/
theorem ends_bringIn_iff (mode : Access) {done : Fin slotCount → Cache δ → Prop}
    {stopped : Fault → Cache δ → Prop} :
    Step.Ends (bringIn s mode) cache done stopped ↔
      Step.Ends (cache.slot cache.victim).save cache.device
        (fun _ device => Step.Ends (readBlock s) ((cache.slot cache.victim).data, device)
          (fun _ after => done cache.victim
            ((cache.choosing (cache.slot cache.victim).unsaved?.isSome after.2).modifySlot
              cache.victim fun slot => Slot.hold { slot with data := after.1 } s mode))
          fun fault after => stopped fault
            ((cache.choosing (cache.slot cache.victim).unsaved?.isSome after.2).modifySlot
              cache.victim ({ · with data := after.1 })))
        fun fault device => stopped fault (cache.choosing false device) := by
  rw [bringIn, Step.ends_bind, Step.ends_modify, Step.ends_bind, ends_chooseSlot, Step.ends_bind,
    ends_saveSlot, slot_choosing, save_swept, unsaved?_swept]
  simp only [← ends_load]
  cases (cache.slot cache.victim).unsaved?.isSome with
  | false =>
    simp only [Bool.false_eq_true, if_false]
    rfl
  | true =>
    simp only [if_true, Step.ends_bind, Step.ends_modify]
    rfl

/-- What bringing a sector in makes of the cache.  Only the two transfers may differ from device to
device: `saved` and `loaded` speak of the device between them and behind them, `failed` of the
device that has failed in one of them. -/
theorem ends_bringIn (mode : Access) (failed : δ → Prop) (loaded : Sector → δ → Prop)
    {saved : δ → Prop}
    (saves : Step.Ends (cache.slot cache.victim).save cache.device (fun _ => saved) fun _ => failed)
    (loads : ∀ device, saved device →
      Step.Ends (readBlock s) ((cache.slot cache.victim).data, device)
        (fun _ after => loaded after.1 after.2) fun _ after => failed after.2) :
    Step.Ends (bringIn s mode) cache
      (fun i after => BringsIn cache s mode i after ∧ loaded (after.slot i).data after.device)
      fun _ after => KeepsSectors cache after ∧ failed after.device := by
  rw [ends_bringIn_iff]
  apply saves.imp
  · intro _ device saved
    apply (loads device saved).imp
    · intro _ after holds
      simp only [slot_modifySlot, if_true]
      refine ⟨⟨rfl, rfl, ?_, fun j other => ?_, rfl⟩, holds⟩
      · simp only [slot_modifySlot, if_true]
        rfl
      · simp only [slot_modifySlot, if_neg other, slot_choosing]
    · intro _ after fails
      refine ⟨keepsSectors_of_swept fun j => ?_, fails⟩
      rw [slot_modifySlot, slot_choosing]
      split
      · exact ⟨after.1, rfl⟩
      · exact ⟨_, rfl⟩
  · exact fun _ device failed => ⟨keepsSectors_of_swept fun j => ⟨_, rfl⟩, failed⟩

theorem ends_slotFor_of_found (mode : Access) (found : cache.find? s = some i)
    {done : Fin slotCount → Cache δ → Prop} {stopped : Fault → Cache δ → Prop} :
    Step.Ends (slotFor s mode) cache done stopped ↔
      done i ((cache.modifyStats fun stats =>
        { stats with hits := stats.hits + 1 }).modifySlot i (·.touch mode)) := by
  simp only [slotFor, Step.ends_bind, ends_lookup, found, Step.ends_pure]

theorem slotFor_yields_of_found (mode : Access) (found : cache.find? s = some i) :
    Step.Yields (slotFor s mode) cache fun chosen after =>
      chosen = i ∧ Finds cache s mode i after := by
  rw [Step.Yields, ends_slotFor_of_found mode found]
  refine ⟨rfl, find?_eq_some found, ?_, fun j other => ?_, rfl, rfl, rfl⟩
  · rw [slot_modifySlot, if_pos rfl]
    rfl
  · rw [slot_modifySlot, if_neg other]
    rfl

theorem ends_slotFor_of_absent (mode : Access)
    (absent : ∀ j : Fin slotCount, (cache.slot j).sector ≠ some s)
    {done : Fin slotCount → Cache δ → Prop} {stopped : Fault → Cache δ → Prop} :
    Step.Ends (slotFor s mode) cache done stopped ↔
      Step.Ends (bringIn s mode) cache done stopped := by
  -- looking for the sector changes nothing, so that it is absent the second time as well
  simp only [slotFor, Step.ends_bind, ends_lookup, find?_eq_none_iff.mpr absent]

/-- What an access does in front of any device. -/
theorem slotFor_ends (cache : Cache δ) (s : SectorNo) (mode : Access) :
    Step.Ends (slotFor s mode) cache
      (fun i after => Finds cache s mode i after ∨ BringsIn cache s mode i after)
      fun _ after => KeepsSectors cache after := by
  cases found : cache.find? s with
  | some i =>
    apply (slotFor_yields_of_found mode found).imp
    rintro _ after ⟨rfl, finds⟩
    exact Or.inl finds
  | none =>
    apply (ends_slotFor_of_absent mode (find?_eq_none_iff.mp found)).mpr
    have brings := ends_bringIn (s := s) mode (fun _ => True) (fun _ _ => True)
      (Step.ends_somehow (cache.slot cache.victim).save cache.device)
      fun _ _ => Step.ends_somehow _ _
    exact brings.imp (fun _ _ ended => Or.inr ended.1) fun _ _ => And.left

end Steps

end Cache

end Residency
