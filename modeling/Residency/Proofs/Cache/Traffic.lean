import Mathlib.Data.List.Nodup
import Residency.Proofs.Cache.History

/-!
# Traffic and statistics

What the counters of a cache and the account of its device tell about a run of calls:
`traffic_accounts_for_accesses`.  The device may be any; the one thing that is asked of the run is
that no transfer fails in it, which an `Audited` device tells.  The only calls that fail are then
those that are refused (`history_succeeds_of_failures_eq`).

Both ends of a run and what has happened in between are tied together by `Cache.Balances`.  The
books of one call balance (`Orderly.balances_made`), one case for each thing that a call may do, and
balances of two runs in a row add up (`Balances.trans`).  That the counters do not wrap is part of
this: `Stats.AtMost` bounds each by the number of calls so far.

The one thing that has to be counted in the slots is what is evicted: a sector that is brought in
takes the place of the one in its slot, or of none (`BringsIn.resident_eq`).
-/

namespace Residency

namespace Cache

variable {δ : Type}

theorem Orderly.nodup_resident {cache : Cache δ} (orderly : Orderly cache) :
    cache.resident.Nodup := by
  rw [resident_eq_filterMap]
  apply (List.nodup_finRange _).filterMap
  exact fun i j s hi hj => orderly.distinct hi hj

namespace BringsIn

variable {before after : Cache δ} {s : SectorNo} {mode : Access} {i : Fin slotCount}

/-- A sector that is brought in stands where the one stood that has given up its slot, if there was
one. -/
theorem resident_eq (brings : BringsIn before s mode i after) : ∃ first last : List SectorNo,
    before.resident = first ++ ((before.slot i).sector.toList ++ last) ∧
      after.resident = first ++ s :: last := by
  -- the slots before and behind the one that is given up keep their sectors
  obtain ⟨first, last, split⟩ := List.append_of_mem (List.mem_finRange i)
  have distinct := List.nodup_finRange slotCount
  rw [split, List.nodup_middle, List.nodup_cons] at distinct
  have others {part : List (Fin slotCount)} (within : ∀ j ∈ part, j ∈ first ++ last) :
      part.filterMap (fun j => (after.slot j).sector) =
        part.filterMap fun j => (before.slot j).sector := by
    apply List.filterMap_congr
    intro j member
    apply brings.sector_of_ne
    rintro rfl
    exact distinct.1 (within i member)
  refine ⟨first.filterMap fun j => (before.slot j).sector,
    last.filterMap fun j => (before.slot j).sector, ?_, ?_⟩
  · rw [resident_eq_filterMap, split, List.filterMap_append, List.filterMap_cons]
    cases (before.slot i).sector <;> rfl
  · rw [resident_eq_filterMap, split, List.filterMap_append, List.filterMap_cons, brings.sector,
      others fun j member => List.mem_append_left _ member,
      others fun j member => List.mem_append_right _ member]

/-- The one sector that loses its slot is the one in the slot that is given up. -/
theorem evicted_eq (brings : BringsIn before s mode i after) (orderly : Orderly before)
    (absent : ∀ j : Fin slotCount, (before.slot j).sector ≠ some s) :
    before.resident.filter (· ∉ after.resident) = (before.slot i).sector.toList := by
  obtain ⟨first, last, residentBefore, residentAfter⟩ := brings.resident_eq
  have distinct := orderly.nodup_resident
  rw [residentBefore] at distinct ⊢
  rw [residentAfter, List.filter_append, List.filter_append]
  -- the sectors in the other slots are resident before and after, and none of them twice
  have stays {part : List SectorNo} (within : ∀ t ∈ part, t ∈ first ++ s :: last) :
      part.filter (· ∉ first ++ s :: last) = [] := by
    rw [List.filter_eq_nil_iff]
    intro t member
    rw [decide_eq_true_eq, not_not]
    exact within t member
  have goes : (before.slot i).sector.toList.filter (· ∉ first ++ s :: last) =
      (before.slot i).sector.toList := by
    rw [List.filter_eq_self]
    intro t held
    have other : t ≠ s := by
      rintro rfl
      exact absent i (Option.mem_toList.mp held)
    have inFirst : t ∉ first := fun member =>
      List.disjoint_of_nodup_append distinct member (List.mem_append_left _ held)
    have inLast : t ∉ last := fun member =>
      List.disjoint_of_nodup_append (List.nodup_append'.mp distinct).2.1 held member
    simp [other, inFirst, inLast]
  rw [stays fun t member => List.mem_append_left _ member,
    stays fun t member => List.mem_append_right _ (List.mem_cons_of_mem _ member), goes,
    List.nil_append, List.append_nil]

theorem length_resident (brings : BringsIn before s mode i after) (orderly : Orderly before)
    (absent : ∀ j : Fin slotCount, (before.slot j).sector ≠ some s) :
    after.resident.length + (before.resident.filter (· ∉ after.resident)).length =
      before.resident.length + 1 := by
  rw [brings.evicted_eq orderly absent]
  obtain ⟨first, last, residentBefore, residentAfter⟩ := brings.resident_eq
  simp only [residentBefore, residentAfter, List.length_append, List.length_cons]
  omega

end BringsIn

end Cache

/-! ## Runs without a failing transfer -/

/-- A device that counts its failures. -/
structure Audited (δ : Type) where
  device : δ
  /-- How many transfers were begun and have not succeeded. -/
  failures : Nat := 0

namespace Audited

variable {δ : Type} [BlockDevice δ]

-- a transfer counts as failed until it has succeeded
instance : BlockDevice (Audited δ) where
  readBlock s := do
    modify fun (buffer, audited) => (buffer, { audited with failures := audited.failures + 1 })
    Step.on (fun (buffer, audited) => (buffer, audited.device))
      (fun (buffer, device) (_, audited) => (buffer, { audited with device })) (readBlock s)
    modify fun (buffer, audited) => (buffer, { audited with failures := audited.failures - 1 })
  writeBlock s data := do
    modify fun audited => { audited with failures := audited.failures + 1 }
    Step.on Audited.device (fun device audited => { audited with device }) (writeBlock s data)
    modify fun audited => { audited with failures := audited.failures - 1 }

variable {count : Nat}

theorem readBlock_failures (s : SectorNo) (buffer : Sector) (traced : Traced (Audited δ))
    (counted : traced.device.failures = count) :
    Step.Ends (readBlock s) (buffer, traced) (fun _ after => after.2.device.failures = count)
      fun _ after => after.2.device.failures = count + 1 := by
  simp only [readBlock, Step.ends_bind, Step.ends_modify, Step.ends_on]
  exact (Step.ends_run _ _).imp (fun _ _ _ => counted) fun _ _ _ => congrArg (· + 1) counted

theorem writeBlock_failures (s : SectorNo) (data : Sector) (traced : Traced (Audited δ))
    (counted : traced.device.failures = count) :
    Step.Ends (writeBlock s data) traced (fun _ after => after.device.failures = count)
      fun _ after => after.device.failures = count + 1 := by
  simp only [writeBlock, Step.ends_bind, Step.ends_modify, Step.ends_on]
  exact (Step.ends_run _ _).imp (fun _ _ _ => counted) fun _ _ _ => congrArg (· + 1) counted

end Audited

namespace Cache

variable {δ : Type} [BlockDevice δ] {cache : Cache (Traced (Audited δ))}

/-- The transfers that have failed so far. -/
def failures (cache : Cache (Traced (Audited δ))) : Nat :=
  cache.device.device.failures

/-- A call that succeeds or is refused has seen no failure, and any other has seen one. -/
theorem made_failures (cache : Cache (Traced (Audited δ))) (call : CacheCall) :
    (call.made cache).after.failures = cache.failures ∧
        (call.Fits → ∃ bytes, (call.made cache).result = .ok bytes) ∨
      (call.made cache).after.failures = cache.failures + 1 := by
  have ends := call.ends_of_transfers Audited.readBlock_failures
    (fun _ s data traced _ => Audited.writeBlock_failures s data traced) (Eq.refl cache.failures)
  rcases call.made_cases ends with ⟨bytes, ok, same⟩ | ⟨fault, -, failed | ⟨refused, same⟩⟩
  · exact Or.inl ⟨same, fun _ => ⟨bytes, ok⟩⟩
  · exact Or.inr failed
  · exact Or.inl ⟨congrArg failures same, fun fits => absurd fits refused⟩

theorem failures_le_serve (cache : Cache (Traced (Audited δ))) (calls : List CacheCall) :
    cache.failures ≤ (cache.serve calls).2.failures := by
  apply (history_invariant (fun reached => cache.failures ≤ reached.failures) _
    (Nat.le_refl _) calls).2
  intro call reached atLeast
  rcases reached.made_failures call with ⟨same, -⟩ | failed <;> omega

/-- Where no transfer fails, only those calls fail that are refused. -/
theorem history_succeeds_of_failures_eq {calls : List CacheCall}
    (flawless : (cache.serve calls).2.failures = cache.failures) :
    ∀ episode ∈ cache.history calls, episode.call.Fits → ∃ bytes, episode.result = .ok bytes := by
  induction calls generalizing cache with
  | nil => exact fun _ none => absurd none List.not_mem_nil
  | cons call rest inductionHypothesis =>
    rw [serve_cons] at flawless
    have later := failures_le_serve (call.made cache).after rest
    -- a failure would stay in the account to the end of the run
    rcases cache.made_failures call with ⟨same, succeeds⟩ | failed
    · refine List.forall_mem_cons.mpr ⟨?_, inductionHypothesis (flawless.trans same.symm)⟩
      rw [CacheCall.made_call]
      exact succeeds
    · omega

end Cache

/-! ## The books of a run -/

def Transfer.isRead : Transfer → Bool
  | .read _ => true
  | .write .. => false

def Transfer.isWrite : Transfer → Bool
  | .read _ => false
  | .write .. => true

namespace Cache

variable {δ : Type}

/-- The sectors that were written because their slots were given up. -/
def writesOutsideFlush (episodes : List (Episode (Traced δ))) : Nat :=
  ((episodes.filter (!·.call.isFlush)).flatMap (·.transfers)).countP (·.isWrite)

/-- The counters and the slots at both ends of a run agree with what has happened in between. -/
structure Balances (before : Cache (Traced δ)) (episodes : List (Episode (Traced δ)))
    (after : Cache (Traced δ)) : Prop where
  hits : after.stats.hits.toNat = before.stats.hits.toNat + episodes.countP (·.isHit)
  misses : after.stats.misses.toNat = before.stats.misses.toNat + episodes.countP (·.isMiss)
  writeBacks : after.stats.writeBacks.toNat =
    before.stats.writeBacks.toNat + writesOutsideFlush episodes
  accesses : episodes.countP (·.isHit) + episodes.countP (·.isMiss) =
    episodes.countP (·.call.accessed?.isSome)
  reads : (episodes.flatMap (·.transfers)).countP (·.isRead) = episodes.countP (·.isMiss)
  writes_le : writesOutsideFlush episodes ≤ episodes.countP (·.isMiss)
  resident : after.resident.length + (episodes.map (·.evicted.length)).sum =
    before.resident.length + episodes.countP (·.isMiss)
  account : after.device.transfers = before.device.transfers ++ episodes.flatMap (·.transfers)

theorem Balances.trans {before middle after : Cache (Traced δ)}
    {first second : List (Episode (Traced δ))} (start : Balances before first middle)
    (rest : Balances middle second after) : Balances before (first ++ second) after := by
  obtain ⟨hits, misses, writeBacks, accesses, reads, writes, resident, account⟩ := start
  obtain ⟨hits', misses', writeBacks', accesses', reads', writes', resident', account'⟩ := rest
  have outside : writesOutsideFlush (first ++ second) =
      writesOutsideFlush first + writesOutsideFlush second := by
    simp only [writesOutsideFlush, List.filter_append, List.flatMap_append, List.countP_append]
  constructor
  case account => rw [account', account, List.flatMap_append, List.append_assoc]
  all_goals
    simp only [outside, List.countP_append, List.flatMap_append, List.map_append, List.sum_append]
    omega

/-- No counter is above `n`. -/
structure Stats.AtMost (stats : Stats) (n : Nat) : Prop where
  hits : stats.hits.toNat ≤ n
  misses : stats.misses.toNat ≤ n
  writeBacks : stats.writeBacks.toNat ≤ n

theorem Balances.atMost {before after : Cache (Traced δ)} {episode : Episode (Traced δ)} {n : Nat}
    (balances : Balances before [episode] after) (atMost : before.stats.AtMost n) :
    after.stats.AtMost (n + 1) := by
  obtain ⟨hits, misses, writeBacks, accesses, -, writes, -, -⟩ := balances
  have one : [episode].countP (·.call.accessed?.isSome) ≤ 1 := List.countP_le_length
  obtain ⟨hitsBefore, missesBefore, writeBacksBefore⟩ := atMost
  constructor <;> omega

end Cache

theorem toNat_add_one {count : UInt64} {n : Nat} (atMost : count.toNat ≤ n)
    (countable : n + 1 < wordLimit) : (count + 1).toNat = count.toNat + 1 := by
  rw [UInt64.toNat_add, UInt64.toNat_one, Nat.mod_eq_of_lt]
  have : wordLimit = 2 ^ 64 := rfl
  omega

namespace Episode

variable {δ : Type} {episode : Episode (Traced δ)}

theorem evicted_eq_nil (keeps : episode.before.KeepsSectors episode.after) :
    episode.evicted = [] := by
  rw [evicted, keeps.resident, List.filter_eq_nil_iff]
  intro s member
  rw [decide_eq_true_eq, not_not]
  exact member

theorem balances_of_found {s : SectorNo} {mode : Access} {i : Fin slotCount} {n : Nat}
    (atMost : episode.before.stats.AtMost n) (countable : n + 1 < wordLimit)
    (accessed : episode.call.accessed? = some s)
    (finds : Cache.Finds episode.before s mode i episode.after) :
    Cache.Balances episode.before [episode] episode.after := by
  have member : s ∈ episode.before.resident := Cache.mem_resident_iff.mpr ⟨i, finds.held⟩
  have hit : episode.isHit = true := by rw [isHit_eq accessed, decide_eq_true member]
  have miss : episode.isMiss = false := by
    rw [isMiss_eq accessed, decide_eq_false (not_not.mpr member)]
  have transfers : episode.transfers = [] := transfers_eq (by rw [finds.device, List.append_nil])
  have evicted := evicted_eq_nil finds.keepsSectors
  have resident := finds.keepsSectors.resident
  constructor <;> simp [hit, miss, accessed, transfers, evicted, resident, finds.stats,
    finds.device, Cache.writesOutsideFlush, toNat_add_one atMost.hits countable]

theorem balances_of_loaded {s : SectorNo} {mode : Access} {i : Fin slotCount} {n : Nat}
    (atMost : episode.before.stats.AtMost n) (countable : n + 1 < wordLimit)
    (orderly : episode.before.Orderly) (accessed : episode.call.accessed? = some s)
    (loads : Cache.Loads episode.before s mode i episode.after) :
    Cache.Balances episode.before [episode] episode.after := by
  have new : s ∉ episode.before.resident := by
    rw [Cache.mem_resident_iff]
    exact fun ⟨j, held⟩ => loads.absent j held
  have hit : episode.isHit = false := by rw [isHit_eq accessed, decide_eq_false new]
  have miss : episode.isMiss = true := by rw [isMiss_eq accessed, decide_eq_true new]
  have account := loads.transfers
  have transfers := transfers_eq account
  have flush := CacheCall.isFlush_eq_false accessed
  have resident : episode.after.resident.length + episode.evicted.length =
      episode.before.resident.length + 1 := loads.brings.length_resident orderly loads.absent
  have stats := loads.brings.stats
  cases unsaved : (episode.before.slot i).unsaved? with
  | none =>
    rw [unsaved] at account transfers stats
    constructor <;> simp [hit, miss, accessed, account, transfers, flush, resident, stats,
      Cache.writesOutsideFlush, toNat_add_one atMost.misses countable, Transfer.isRead,
      Transfer.isWrite]
  | some entry =>
    rw [unsaved] at account transfers stats
    constructor <;> simp [hit, miss, accessed, account, transfers, flush, resident, stats,
      Cache.writesOutsideFlush, toNat_add_one atMost.misses countable,
      toNat_add_one atMost.writeBacks countable, Transfer.isRead, Transfer.isWrite, Transfer.saving]

theorem balances_of_flushed (orderly : episode.before.Orderly) (flush : episode.call = .flush)
    (slots : ∀ i : Fin slotCount, episode.after.slot i = (episode.before.slot i).cleaned)
    (stats : episode.after.stats = episode.before.stats)
    (account : episode.after.device.transfers =
      episode.before.device.transfers ++ episode.before.unsaved.map .saving) :
    Cache.Balances episode.before [episode] episode.after := by
  have keeps := orderly.keepsSectors_of_cleaned fun i => Or.inl (slots i)
  have transfers := transfers_eq account
  have hit : episode.isHit = false := by rw [isHit, flush]; rfl
  have miss : episode.isMiss = false := by rw [isMiss, flush]; rfl
  have evicted := evicted_eq_nil keeps
  have resident := keeps.resident
  constructor <;> simp [hit, miss, flush, account, transfers, stats, evicted, resident,
    Cache.writesOutsideFlush, CacheCall.isFlush, CacheCall.accessed?, Transfer.saving,
    Transfer.isRead]

theorem balances_of_refused (refused : ¬ episode.call.Fits)
    (same : episode.after = episode.before) :
    Cache.Balances episode.before [episode] episode.after := by
  have accessed := CacheCall.accessed?_eq_none refused
  have hit : episode.isHit = false := by rw [isHit, accessed]; rfl
  have miss : episode.isMiss = false := by rw [isMiss, accessed]; rfl
  have transfers : episode.transfers = [] := transfers_eq (by rw [same, List.append_nil])
  have evicted : episode.evicted = [] := evicted_eq_nil (by rw [same]; exact .refl _)
  constructor <;> simp [hit, miss, accessed, transfers, same, evicted, Cache.writesOutsideFlush]

end Episode

namespace Cache

variable {δ : Type} [BlockDevice δ] {cache : Cache (Traced δ)}

/-- A call is in the books once it is made, unless it has failed on the device. -/
theorem Orderly.balances_made (orderly : Orderly cache) {n : Nat} (atMost : cache.stats.AtMost n)
    (countable : n + 1 < wordLimit) {call : CacheCall}
    (succeeds : call.Fits → ∃ bytes, (call.made cache).result = .ok bytes) :
    Balances cache [call.made cache] (call.made cache).after := by
  have ended := call.made_does orderly
  have called : (call.made cache).call = call := CacheCall.made_call
  have found : (call.made cache).before = cache := CacheCall.made_before
  generalize call.made cache = episode at *
  subst called found
  rcases ended with ⟨-, does⟩ | ⟨⟨fault, error⟩, -, unchanged⟩
  · cases does with
    | found accessed finds => exact Episode.balances_of_found atMost countable accessed finds
    | loaded accessed loads =>
      exact Episode.balances_of_loaded atMost countable orderly accessed loads
    | flushed flush slots hand stats transfers =>
      exact Episode.balances_of_flushed orderly flush slots stats transfers
  · have refused : ¬ episode.call.Fits := by
      intro fits
      obtain ⟨bytes, ok⟩ := succeeds fits
      cases ok.symm.trans error
    exact Episode.balances_of_refused refused (unchanged.resolve_left refused)

/-- The books of a run balance, if no call that is not refused has failed. -/
theorem Orderly.balances_history (orderly : Orderly cache) {n : Nat}
    (atMost : cache.stats.AtMost n) {calls : List CacheCall}
    (countable : n + calls.length < wordLimit)
    (succeed : ∀ episode ∈ cache.history calls, episode.call.Fits →
      ∃ bytes, episode.result = .ok bytes) :
    Balances cache (cache.history calls) (cache.serve calls).2 := by
  -- the counters have counted the calls so far at most, so their bound grows with each call
  induction calls generalizing cache n with
  | nil => constructor <;> simp [history, serve_nil, writesOutsideFlush]
  | cons call rest inductionHypothesis =>
    obtain ⟨first, others⟩ := List.forall_mem_cons.mp succeed
    rw [List.length_cons] at countable
    rw [CacheCall.made_call] at first
    have made := orderly.balances_made atMost (by omega) first
    rw [serve_cons]
    exact made.trans (inductionHypothesis (call.made_orderly orderly) (made.atMost atMost)
      (by omega) others)

/-- Of a sector that has a slot the device hears nothing.  One that has none is read, after the one
in the slot that is given up was written if it was changed. -/
theorem Orderly.transfers_of_access (orderly : Orderly cache) {call : CacheCall} {s : SectorNo}
    (accessed : call.accessed? = some s)
    (succeeds : ∃ bytes, (call.made cache).result = .ok bytes) :
    (s ∈ cache.resident → (call.made cache).transfers = []) ∧
      (s ∉ cache.resident → ∃ i : Fin slotCount,
        ((call.made cache).after.slot i).sector = some s ∧
        (call.made cache).evicted = (cache.slot i).sector.toList ∧
        (call.made cache).transfers =
          (if (cache.slot i).dirty then
              (call.made cache).evicted.map (.write · (cache.slot i).data)
            else []) ++ [.read s]) := by
  cases CacheCall.does_of_ok orderly succeeds with
  | @found t mode i accessed' finds =>
    cases accessed.symm.trans accessed'
    have member : s ∈ cache.resident := mem_resident_iff.mpr ⟨i, finds.held⟩
    refine ⟨fun _ => Episode.transfers_eq ?_, fun new => absurd member new⟩
    rw [finds.device, CacheCall.made_before, List.append_nil]
  | @loaded t mode i accessed' loads =>
    cases accessed.symm.trans accessed'
    have new : s ∉ cache.resident := fun member => by
      obtain ⟨j, held⟩ := mem_resident_iff.mp member
      exact loads.absent j held
    have evicted : (call.made cache).evicted = (cache.slot i).sector.toList := by
      rw [Episode.evicted, CacheCall.made_before, loads.brings.evicted_eq orderly loads.absent]
    refine ⟨fun member => absurd member new, fun _ => ⟨i, loads.brings.sector, evicted, ?_⟩⟩
    rw [evicted]
    apply Episode.transfers_eq
    rw [loads.transfers, CacheCall.made_before, Slot.unsaved?]
    cases (cache.slot i).dirty <;> cases (cache.slot i).sector <;> rfl
  | flushed flush =>
    rw [flush] at accessed
    cases accessed

/-- A new cache in front of any device, and any run of calls in which no transfer fails.  The calls
that do not reach past the end of their sector succeed, and the accesses are those among them that
read or write.

An access to a sector that has a slot makes no transfer.  One to a sector that has none makes two at
most: it writes the sector that loses its slot, if that is marked as changed, and then it reads its
own.  The counters tell all of this: hits and misses are the accesses, misses the sectors that were
read, write-backs those that were written but not by flushing, and each miss has either made one
sector more resident or evicted another. -/
theorem traffic_accounts_for_accesses {device : δ} {calls : List CacheCall}
    (countable : calls.length < wordLimit)
    (flawless : (({ device := { device := { device } } } : Cache (Traced (Audited δ))).serve
      calls).2.failures = 0) :
    let fresh : Cache (Traced (Audited δ)) := { device := { device := { device } } }
    let episodes := fresh.history calls
    let reached := (fresh.serve calls).2
    (∀ episode ∈ episodes, episode.call.Fits → ∃ bytes, episode.result = .ok bytes) ∧
      (∀ episode ∈ episodes, ∀ s, episode.call.accessed? = some s →
        (s ∈ episode.before.resident → episode.transfers = []) ∧
          (s ∉ episode.before.resident → ∃ i : Fin slotCount,
            (episode.after.slot i).sector = some s ∧
            episode.evicted = (episode.before.slot i).sector.toList ∧
            episode.transfers =
              (if (episode.before.slot i).dirty then
                  episode.evicted.map (.write · (episode.before.slot i).data)
                else []) ++ [.read s])) ∧
      reached.stats.hits.toNat + reached.stats.misses.toNat =
        calls.countP (·.accessed?.isSome) ∧
      reached.stats.misses.toNat = reached.device.transfers.countP (·.isRead) ∧
      reached.stats.writeBacks.toNat = writesOutsideFlush episodes ∧
      reached.stats.misses.toNat =
        reached.resident.length + (episodes.map (·.evicted.length)).sum ∧
      reached.stats.writeBacks.toNat ≤ reached.stats.misses.toNat := by
  intro fresh episodes reached
  have succeed : ∀ episode ∈ episodes, episode.call.Fits → ∃ bytes, episode.result = .ok bytes :=
    history_succeeds_of_failures_eq flawless
  have orderly : fresh.Orderly := Orderly.fresh _
  have none : fresh.resident = [] := by
    rw [resident_eq_filterMap, List.filterMap_eq_nil_iff]
    intro i _
    rw [slot_fresh]
  obtain ⟨hits, misses, writeBacks, accesses, reads, writes, resident, account⟩ :
      Balances fresh episodes reached :=
    orderly.balances_history (n := 0) ⟨Nat.le_refl _, Nat.le_refl _, Nat.le_refl _⟩ (by omega)
      succeed
  have zero : fresh.stats.hits.toNat = 0 ∧ fresh.stats.misses.toNat = 0 ∧
      fresh.stats.writeBacks.toNat = 0 := ⟨rfl, rfl, rfl⟩
  have called : episodes.countP (·.call.accessed?.isSome) = calls.countP (·.accessed?.isSome) := by
    conv_rhs => rw [← map_call_history fresh calls, List.countP_map]
    rfl
  have recorded : reached.device.transfers = episodes.flatMap (·.transfers) := account
  refine ⟨succeed, fun episode member s accessed => ?_, ?_, ?_, ?_, ?_, ?_⟩
  · have before := (orderly.throughout calls).1 episode member
    have ok := succeed episode member (CacheCall.fits_of_accessed accessed)
    obtain ⟨call, cache, rfl⟩ := exists_made_of_mem_history member
    rw [CacheCall.made_before] at before ⊢
    rw [CacheCall.made_call] at accessed
    exact before.transfers_of_access accessed ok
  · omega
  · rw [recorded]
    omega
  · omega
  · rw [none, List.length_nil] at resident
    omega
  · omega

/-- A call that is refused is no access, and flushing is none. -/
theorem traffic_of_three_accesses :
    let calls : List CacheCall := [.write ⟨1⟩ 3 [7, 8], .read ⟨0⟩ 500 13, .flush, .read ⟨1⟩ 0 512,
      .write ⟨0⟩ 511 [9]]
    let fresh : Cache (Traced (Audited RamDisk)) :=
      { device := { device := { device := { sectors := 2 } } } }
    let reached := (fresh.serve calls).2
    reached.failures = 0 ∧ reached.stats.hits.toNat = 1 ∧ reached.stats.misses.toNat = 2 := by
  -- the run gets no name here, since the calls would be made to compare it with its name
  intro calls
  have ran : (Cache.serve (δ := Traced (Audited RamDisk))
        { device := { device := { device := { sectors := 2 } } } } calls).2.failures = 0 ∧
      (Cache.serve (δ := Traced (Audited RamDisk))
        { device := { device := { device := { sectors := 2 } } } } calls).2.device.transfers.countP
          (·.isRead) = 2 := by
    decide +kernel
  have three : calls.countP (·.accessed?.isSome) = 3 := by decide
  obtain ⟨-, -, accesses, reads, -⟩ := traffic_accounts_for_accesses (by decide) ran.1
  rw [ran.2] at reads
  rw [three, reads] at accesses
  exact ⟨ran.1, Nat.add_right_cancel accesses, reads⟩

end Cache

end Residency
