import Residency.Proofs.Cache.History

/-!
# How long a sector stays

A sector that is no longer accessed leaves the cache: `leaves_within_two_rounds` says by when, in
front of any device.

The hand is what drives it out.  `Cache.turnsLeft` counts how often the hand may still stop
somewhere else.  Sectors that are found and flushing leave it as it is, for they move no hand and
mark no slot but their own.  Each miss lowers it, or takes the slot (`BringsIn.turnsLeft_lt`): the
hand either stops short of the slot and is nearer then, or passes it and takes the mark for which it
was passed.

`Cache.Departs` is what all calls of a run keep.  It also says where the bytes are that the device
lacked: in the slot still, or among those that were written.
-/

namespace Residency

namespace Cache

variable {δ : Type}

/-! ## Turns of the hand -/

/-- How often the hand can stop, at most, until it stops at a slot: the steps to the slot and the
stop there, after another round if the hand passes the slot first. -/
def turnsLeft (cache : Cache δ) (i : Fin slotCount) : Nat :=
  stepsTo cache.hand i + 1 + if (cache.slot i).accessed then slotCount else 0

theorem turnsLeft_pos (cache : Cache δ) (i : Fin slotCount) : 0 < cache.turnsLeft i := by
  rw [turnsLeft]
  omega

theorem turnsLeft_le (cache : Cache δ) (i : Fin slotCount) :
    cache.turnsLeft i ≤ 2 * slotCount := by
  have := stepsTo_lt cache.hand i
  rw [turnsLeft]
  split <;> omega

theorem turnsLeft_le_of_unmarked {cache : Cache δ} {i : Fin slotCount}
    (unmarked : (cache.slot i).accessed = false) : cache.turnsLeft i ≤ slotCount := by
  rw [turnsLeft, unmarked]
  exact stepsTo_lt cache.hand i

/-- Each sector that is brought into another slot takes one of the turns that are left. -/
theorem BringsIn.turnsLeft_lt {before after : Cache δ} {s : SectorNo} {mode : Access}
    {i j : Fin slotCount} (brings : BringsIn before s mode j after) (other : j ≠ i) :
    after.turnsLeft i < before.turnsLeft i := by
  have stopped : j = inCircle before.hand (sweep before.slots before.hand).passed :=
    brings.victim.trans (sweep_chosen ..)
  have hand := brings.hand
  rw [stopped, nextInCircle_inCircle] at hand
  have slot := brings.others i other
  rw [swept_eq] at slot
  have steps := stepsTo_lt before.hand i
  have leads := inCircle_stepsTo before.hand i
  rcases Nat.lt_trichotomy (sweep before.slots before.hand).passed (stepsTo before.hand i) with
    short | same | beyond
  · -- the hand stops on the way to the slot, which keeps its mark
    have unpassed :
        ¬ ∃ k < (sweep before.slots before.hand).passed, inCircle before.hand k = i := by
      rintro ⟨k, passed, rfl⟩
      rw [stepsTo_inCircle before.hand (by omega)] at short
      omega
    rw [if_neg unpassed] at slot
    have marks : (after.slot i).accessed = (before.slot i).accessed := by rw [slot]
    rw [turnsLeft, turnsLeft, hand, stepsTo_of_inCircle short, marks]
    omega
  · rw [same, leads] at stopped
    exact absurd stopped other
  · -- the hand passes the slot, which loses the mark that it must have had
    have spared := (isSpared_of_passed beyond).1
    simp only [leads, Slot.isSpared, Bool.and_eq_true] at spared
    rw [if_pos ⟨_, beyond, leads⟩] at slot
    have marked : (before.slot i).accessed = true := spared.2
    have unmarked : (after.slot i).accessed = false := by rw [slot]; rfl
    have := turnsLeft_le_of_unmarked unmarked
    rw [turnsLeft.eq_1 before, if_pos marked]
    omega

end Cache

/-! ## Other sectors -/

namespace CacheCall.Does

variable {δ : Type} {call : CacheCall} {before after : Cache (Traced δ)} {s : SectorNo}

/-- The account only grows. -/
theorem account (does : call.Does before after) :
    ∃ since, after.device.transfers = before.device.transfers ++ since := by
  cases does with
  | found accessed finds => exact ⟨[], by rw [finds.device, List.append_nil]⟩
  | loaded accessed loads => exact ⟨_, loads.transfers⟩
  | flushed flush slots hand stats transfers => exact ⟨_, transfers⟩

/-- A sector that is not accessed does not come back. -/
theorem absent (does : call.Does before after) (orderly : before.Orderly)
    (elsewhere : call.accessed? ≠ some s)
    (absent : ∀ j : Fin slotCount, (before.slot j).sector ≠ some s) (j : Fin slotCount) :
    (after.slot j).sector ≠ some s := by
  cases does with
  | found accessed finds =>
    rw [finds.keepsSectors.sector]
    exact absent j
  | @loaded t mode i accessed loads =>
    by_cases same : i = j
    · subst same
      rw [loads.brings.sector, ← accessed]
      exact elsewhere
    · rw [loads.brings.sector_of_ne same]
      exact absent j
  | flushed flush slots =>
    rw [(orderly.keepsSectors_of_cleaned fun i => Or.inl (slots i)).sector]
    exact absent j

end CacheCall.Does

namespace Cache

/-- What has become of the sector in a slot, by the time that other sectors have missed: it has used
up as many turns, or it has left.  What the device lacked is still in the slot, or was written. -/
inductive Departs {δ : Type} (start : Cache (Traced δ)) (i : Fin slotCount) (misses : Nat)
    (since : List Transfer) (reached : Cache (Traced δ)) : Prop where
  | rests (sector : (reached.slot i).sector = (start.slot i).sector)
      (turns : reached.turnsLeft i + misses ≤ start.turnsLeft i)
      (saved : ∀ entry, (start.slot i).unsaved? = some entry →
        (reached.slot i).unsaved? = some entry ∨ .saving entry ∈ since)
  | leaves (absent : ∀ j : Fin slotCount, (reached.slot j).sector ≠ (start.slot i).sector)
      (saved : ∀ entry, (start.slot i).unsaved? = some entry → .saving entry ∈ since)

end Cache

theorem CacheCall.Does.departs {δ : Type} {episode : Episode (Traced δ)} {s : SectorNo}
    {i : Fin slotCount} {since : List Transfer}
    (does : episode.call.Does episode.before episode.after)
    (orderly : episode.before.Orderly) (held : (episode.before.slot i).sector = some s)
    (elsewhere : episode.call.accessed? ≠ some s)
    (account : episode.after.device.transfers = episode.before.device.transfers ++ since) :
    Cache.Departs episode.before i ([episode].countP (·.isMiss)) since episode.after := by
  rw [List.countP_singleton]
  cases does with
  | @found t mode j accessed finds =>
    have other : j ≠ i := by
      rintro rfl
      exact elsewhere (accessed.trans (finds.held.symm.trans held))
    have member : t ∈ episode.before.resident := Cache.mem_resident_iff.mpr ⟨j, finds.held⟩
    have slot := finds.others i other
    refine .rests (by rw [slot]) ?_ fun entry unsaved => Or.inl (by rw [slot, unsaved])
    rw [Episode.isMiss_eq accessed, Cache.turnsLeft, Cache.turnsLeft, finds.hand, slot]
    simp [member]
  | @loaded t mode j accessed loads =>
    obtain rfl := List.append_cancel_left (account.symm.trans loads.transfers)
    by_cases same : j = i
    · subst same
      refine .leaves (fun k => ?_) fun entry unsaved => ?_
      · rw [held]
        by_cases chosen : j = k
        · subst chosen
          rw [loads.brings.sector, ← accessed]
          exact elsewhere
        · rw [loads.brings.sector_of_ne chosen]
          exact fun there => chosen (orderly.distinct held there)
      · rw [unsaved]
        exact List.mem_cons_self ..
    · refine .rests ?_ ?_ fun entry unsaved => Or.inl ?_
      · exact loads.brings.sector_of_ne same
      · have := loads.brings.turnsLeft_lt same
        split <;> omega
      · rw [loads.brings.others i same, Cache.unsaved?_swept, unsaved]
  | flushed flush slots hand stats transfers =>
    obtain rfl := List.append_cancel_left (account.symm.trans transfers)
    have noMiss : episode.isMiss = false := by rw [Episode.isMiss, flush]; rfl
    refine .rests (by rw [slots]; rfl) ?_ fun entry unsaved => Or.inr ?_
    · rw [noMiss, Cache.turnsLeft, Cache.turnsLeft, hand, slots]
      exact Nat.le_refl _
    · exact List.mem_map_of_mem (List.mem_filterMap.mpr ⟨i, List.mem_finRange i, unsaved⟩)

namespace Cache

variable {δ : Type} [BlockDevice δ] {start cache : Cache (Traced δ)} {s : SectorNo}
  {i : Fin slotCount}

/-- What has become of the sector after one more call. -/
theorem Departs.call {misses : Nat} {since : List Transfer} {call : CacheCall}
    (departs : Departs start i misses since cache) (orderly : cache.Orderly)
    (held : (start.slot i).sector = some s) (elsewhere : call.accessed? ≠ some s)
    (succeeds : ∃ bytes, (call.made cache).result = .ok bytes) :
    ∃ more, (call.made cache).after.device.transfers = cache.device.transfers ++ more ∧
      Departs start i (misses + [call.made cache].countP (·.isMiss)) (since ++ more)
        (call.made cache).after := by
  have does := CacheCall.does_of_ok orderly succeeds
  obtain ⟨more, account⟩ := does.account
  refine ⟨more, account, ?_⟩
  cases departs with
  | leaves absent saved =>
    rw [held] at absent
    refine .leaves ?_ fun entry unsaved => List.mem_append_left _ (saved entry unsaved)
    rw [held]
    exact does.absent orderly elsewhere absent
  | rests sector turns saved =>
    have called : (call.made cache).call = call := CacheCall.made_call
    have found : (call.made cache).before = cache := CacheCall.made_before
    generalize call.made cache = episode at *
    subst called found
    cases does.departs orderly (sector.trans held) elsewhere account with
    | rests sector' turns' saved' =>
      refine .rests (sector'.trans sector) (by omega) fun entry unsaved => ?_
      rcases saved entry unsaved with still | written
      · exact (saved' entry still).imp id (List.mem_append_right _)
      · exact Or.inr (List.mem_append_left _ written)
    | leaves absent saved' =>
      rw [sector] at absent
      refine .leaves absent fun entry unsaved => ?_
      rcases saved entry unsaved with still | written
      · exact List.mem_append_right _ (saved' entry still)
      · exact List.mem_append_left _ written

theorem Departs.history {misses : Nat} {since : List Transfer} {calls : List CacheCall}
    (departs : Departs start i misses since cache) (orderly : cache.Orderly)
    (held : (start.slot i).sector = some s)
    (account : cache.device.transfers = start.device.transfers ++ since)
    (elsewhere : ∀ call ∈ calls, call.accessed? ≠ some s)
    (succeed : ∀ episode ∈ cache.history calls, ∃ bytes, episode.result = .ok bytes) :
    ∃ since, (cache.serve calls).2.device.transfers = start.device.transfers ++ since ∧
      Departs start i (misses + (cache.history calls).countP (·.isMiss)) since
        (cache.serve calls).2 := by
  -- all is told from `start` on, which stays as it is while the run goes on
  induction calls generalizing cache misses since with
  | nil => exact ⟨since, account, departs⟩
  | cons call rest inductionHypothesis =>
    obtain ⟨away, elsewhere⟩ := List.forall_mem_cons.mp elsewhere
    obtain ⟨succeeds, succeed⟩ := List.forall_mem_cons.mp succeed
    obtain ⟨more, grown, departs⟩ := departs.call orderly held away succeeds
    rw [account, List.append_assoc] at grown
    obtain ⟨total, account, departs⟩ := inductionHypothesis departs
      (call.made_orderly orderly) grown elsewhere succeed
    refine ⟨total, by rw [serve_cons, account], ?_⟩
    rw [serve_cons, Cache.history, ← List.singleton_append, List.countP_append, ← Nat.add_assoc]
    exact departs

/-- Calls that access different sectors, none of which has a slot, all miss. -/
theorem Orderly.misses_of_scan (orderly : cache.Orderly) {calls : List CacheCall}
    (different : calls.Pairwise fun call later => later.accessed? ≠ call.accessed?)
    (new : ∀ call ∈ calls, ∃ s, call.accessed? = some s ∧ s ∉ cache.resident)
    (succeed : ∀ episode ∈ cache.history calls, ∃ bytes, episode.result = .ok bytes) :
    (cache.history calls).countP (·.isMiss) = calls.length := by
  induction calls generalizing cache with
  | nil => rfl
  | cons call rest inductionHypothesis =>
    obtain ⟨distinct, different⟩ := List.pairwise_cons.mp different
    obtain ⟨⟨t, accessed, absent⟩, new⟩ := List.forall_mem_cons.mp new
    obtain ⟨succeeds, succeed⟩ := List.forall_mem_cons.mp succeed
    have does := CacheCall.does_of_ok orderly succeeds
    have miss : (call.made cache).isMiss = true := by
      rw [Episode.isMiss_eq (by rw [CacheCall.made_call]; exact accessed), CacheCall.made_before,
        decide_eq_true absent]
    have newLater : ∀ later ∈ rest, ∃ s,
        later.accessed? = some s ∧ s ∉ (call.made cache).after.resident := by
      -- a sector comes into a slot only by being accessed, and the later ones are others
      intro later member
      obtain ⟨s, accessedLater, absent⟩ := new later member
      refine ⟨s, accessedLater, fun resident => ?_⟩
      have elsewhere : call.accessed? ≠ some s := by
        rw [← accessedLater]
        exact (distinct later member).symm
      obtain ⟨j, held⟩ := mem_resident_iff.mp resident
      exact does.absent orderly elsewhere
        (fun k there => absent (mem_resident_iff.mpr ⟨k, there⟩)) j held
    rw [Cache.history, List.countP_cons_of_pos miss,
      inductionHypothesis (call.made_orderly orderly) different newLater succeed, List.length_cons]

/-- A sector that has a slot in a cache that a run of calls has reached, in front of any device, and
a run of calls that go on from there, succeed and do not access that sector.  Some of them may find
their sectors, others may miss them, and others may flush.

If the sector has not been used since the hand last passed its slot, it is gone when as many have
missed as there are slots; if it has, it is gone when twice as many have missed.  What the device
lacked of it has then been written. -/
theorem leaves_within_two_rounds {device : δ} {calls later : List CacheCall} {s : SectorNo}
    {i : Fin slotCount} :
    let reached := (({ device := { device } } : Cache (Traced δ)).serve calls).2
    let last := (reached.serve later).2
    let misses := (reached.history later).countP (·.isMiss)
    (reached.slot i).sector = some s →
      (∀ call ∈ later, call.accessed? ≠ some s) →
      (∀ episode ∈ reached.history later, ∃ bytes, episode.result = .ok bytes) →
      ((reached.slot i).accessed = false ∧ slotCount ≤ misses) ∨ 2 * slotCount ≤ misses →
      s ∉ last.resident ∧
        ∃ since, last.device.transfers = reached.device.transfers ++ since ∧
          ((reached.slot i).dirty = true → .write s (reached.slot i).data ∈ since) := by
  intro reached last misses held elsewhere succeed enough
  have orderly : reached.Orderly := ((Orderly.fresh _).throughout calls).2
  -- a sector that still rested in its slot would have had more turns than there are
  have stays : Departs reached i 0 [] reached :=
    .rests rfl (Nat.le_refl _) fun entry unsaved => Or.inl unsaved
  obtain ⟨since, account, departs⟩ :=
    stays.history orderly held (List.append_nil _).symm elsewhere succeed
  rw [Nat.zero_add] at departs
  cases departs with
  | rests sector turns saved =>
    have more : misses < reached.turnsLeft i :=
      Nat.lt_of_lt_of_le (Nat.lt_add_of_pos_left (turnsLeft_pos last i)) turns
    rcases enough with ⟨unmarked, round⟩ | rounds
    · have := turnsLeft_le_of_unmarked unmarked
      omega
    · have := reached.turnsLeft_le i
      omega
  | leaves absent saved =>
    rw [held] at absent
    refine ⟨fun member => ?_, since, account, fun dirty => ?_⟩
    · obtain ⟨j, there⟩ := mem_resident_iff.mp member
      exact absent j there
    · exact saved _ (Slot.unsaved?_eq_some_iff.mpr ⟨dirty, held, rfl⟩)

/-- A sector that was written leaves when 128 others are read, and is safe by then. -/
theorem leaves_in_a_scan :
    let calls : List CacheCall := [.write ⟨0⟩ 0 [7]]
    let later : List CacheCall := (List.range 128).map fun k => .read (.ofNat (k + 1)) 0 1
    let reached :=
      (({ device := { device := { sectors := 129 } } } : Cache (Traced RamDisk)).serve calls).2
    (reached.slot 0).sector = some ⟨0⟩ ∧ (∀ call ∈ later, call.accessed? ≠ some ⟨0⟩) ∧
      (∀ episode ∈ reached.history later, ∃ bytes, episode.result = .ok bytes) ∧
      2 * slotCount ≤ (reached.history later).countP (·.isMiss) ∧
      ⟨0⟩ ∉ (reached.serve later).2.resident ∧
      .write ⟨0⟩ ((.zero : Sector).overwrite 0 [7]) ∈ (reached.serve later).2.device.transfers := by
  intro calls later reached
  have facts : (reached.slot 0).sector = some ⟨0⟩ ∧ (reached.slot 0).dirty = true ∧
      (reached.slot 0).data = (.zero : Sector).overwrite 0 [7] ∧ reached.resident = [⟨0⟩] := by
    decide +kernel
  obtain ⟨held, dirty, data, resident⟩ := facts
  have serves : (RamDisk.storage 129).medium.traced.Serves { device := { sectors := 129 } } := rfl
  have consistent : Consistent (RamDisk.storage 129).medium.traced reached :=
    ((Consistent.fresh _ serves).1.serve fun call _ => (call.answerable_of_bounded _).traced).1
  have accessed (k : Nat) : (CacheCall.read (.ofNat (k + 1)) 0 1).accessed? =
      some (.ofNat (k + 1)) := rfl
  have number {k : Nat} (member : k ∈ List.range 128) : (SectorNo.ofNat (k + 1)).toNat = k + 1 :=
    SectorNo.toNat_ofNat (Nat.lt_trans (Nat.succ_lt_succ (List.mem_range.mp member)) (by decide))
  have other {k : Nat} (member : k ∈ List.range 128) : SectorNo.ofNat (k + 1) ≠ ⟨0⟩ := by
    intro same
    exact Nat.succ_ne_zero k ((number member).symm.trans (congrArg SectorNo.toNat same))
  have elsewhere : ∀ call ∈ later, call.accessed? ≠ some ⟨0⟩ := by
    rw [List.forall_mem_map]
    intro k member same
    exact other member (Option.some.inj ((accessed k).symm.trans same))
  have lie : ∀ call ∈ later, call.Lies 129 := by
    rw [List.forall_mem_map]
    intro k member
    refine ⟨?_, by decide⟩
    rw [number member]
    exact Nat.succ_lt_succ (List.mem_range.mp member)
  have succeed : ∀ episode ∈ reached.history later, ∃ bytes, episode.result = .ok bytes :=
    fun episode member =>
      consistent.history_succeeds member (lie _ (call_mem_of_mem_history member))
  have misses : (reached.history later).countP (·.isMiss) = 2 * slotCount := by
    apply (consistent.orderly.misses_of_scan ?_ ?_ succeed).trans
    · exact (List.length_map _).trans List.length_range
    · rw [List.pairwise_map]
      apply List.nodup_range.imp_of_mem
      intro j k first second different same
      rw [accessed, accessed] at same
      have equal := congrArg SectorNo.toNat (Option.some.inj same)
      rw [number first, number second] at equal
      exact different (Nat.succ.inj equal).symm
    · rw [resident, List.forall_mem_map]
      exact fun k member => ⟨_, accessed k, fun held => other member (List.mem_singleton.mp held)⟩
  obtain ⟨gone, since, account, written⟩ :=
    leaves_within_two_rounds held elsewhere succeed (Or.inr (Nat.le_of_eq misses.symm))
  rw [data] at written
  refine ⟨held, elsewhere, succeed, Nat.le_of_eq misses.symm, gone, ?_⟩
  rw [account]
  exact List.mem_append_right _ (written dirty)

end Cache

end Residency
