import Mathlib.Order.Monotone.Basic
import Residency.Proofs.Cache.History

/-!
# Versions on the device

What the device holds while a cache is at work.  A sector is written to the device long after the
call that changed it, and in the order in which slots are given up, so the device is behind, and not
by the same for all sectors.  But each sector on its own only moves forward, from one version that
the calls have made of it to a later one: `device_holds_past_versions`.

* A device that is `Recorded` keeps all states that it was in, with one transfer between each two.
* `FlatMemory.versions` lists what the calls make of a sector, and `Recorded.Numbers` ties the
  states on record to that list.
* A call does nothing to the device but read, and write what its slots have and the device lacks
  (`CacheCall.ends_of_transfers`).  That is the last version of the sector so far, so its number is
  not below any that was given before (`Recorded.Continues.writeBlock_yields`).
-/

namespace Residency

/-! ## Devices that are recorded -/

/-- A device with a record of the states that it was in. -/
structure Recorded (δ : Type) where
  device : δ
  /-- The states before the present one, the latest first. -/
  past : List δ := []

namespace Recorded

variable {δ : Type}

/-- All states from the first to the present one, with one transfer between each two. -/
def states (recorded : Recorded δ) : List δ :=
  (recorded.device :: recorded.past).reverse

def note (recorded : Recorded δ) : Recorded δ :=
  { recorded with past := recorded.device :: recorded.past }

instance [BlockDevice δ] : BlockDevice (Recorded δ) where
  readBlock s := do
    modify fun (buffer, recorded) => (buffer, recorded.note)
    Step.on (fun (buffer, recorded) => (buffer, recorded.device))
      (fun (buffer, device) (_, recorded) => (buffer, { recorded with device })) (readBlock s)
  writeBlock s data := do
    modify note
    Step.on Recorded.device (fun device recorded => { recorded with device }) (writeBlock s data)

theorem readBlock_past [BlockDevice δ] (s : SectorNo) (buffer : Sector) (recorded : Recorded δ) :
    Step.Ends (readBlock s) (buffer, recorded)
      (fun _ after => after.2.past = recorded.device :: recorded.past)
      fun _ after => after.2.past = recorded.device :: recorded.past := by
  simp only [readBlock, Step.ends_bind, Step.ends_modify, Step.ends_on]
  exact (Step.ends_run _ _).imp (fun _ _ _ => rfl) fun _ _ _ => rfl

theorem writeBlock_past [BlockDevice δ] (s : SectorNo) (data : Sector) (recorded : Recorded δ) :
    Step.Ends (writeBlock s data) recorded
      (fun _ after => after.past = recorded.device :: recorded.past)
      fun _ after => after.past = recorded.device :: recorded.past := by
  simp only [writeBlock, Step.ends_bind, Step.ends_modify, Step.ends_on]
  exact (Step.ends_run _ _).imp (fun _ _ _ => rfl) fun _ _ _ => rfl

end Recorded

/-- A device that is recorded serves as the device does. -/
def BoundedStorage.recorded {δ : Type} [BlockDevice δ] {N : Nat} (storage : BoundedStorage δ N) :
    BoundedStorage (Recorded δ) N where
  Serves recorded := storage.Serves recorded.device
  sector recorded := storage.sector recorded.device
  readBlock_yields buffer _ serves inside := by
    simp only [readBlock, Step.ends_bind, Step.ends_modify, Step.ends_on]
    exact Step.Yields.imp (storage.readBlock_yields buffer serves inside) fun _ _ => id
  writeBlock_yields data serves inside := by
    simp only [writeBlock, Step.ends_bind, Step.ends_modify, Step.ends_on]
    exact Step.Yields.imp (storage.writeBlock_yields data serves inside) fun _ _ => id
  readBlock_refuses buffer _ serves outside := by
    simp only [readBlock, Step.ends_bind, Step.ends_modify, Step.ends_on]
    exact Step.Ends.imp (storage.readBlock_refuses buffer serves outside) (fun _ _ => id)
      fun _ _ => id

/-! ## Versions of a sector -/

def CacheCall.writesTo (s : SectorNo) : CacheCall → Bool
  | .write t .. => t == s
  | .read .. | .flush => false

namespace FlatMemory

/-- What a sector holds at first, and after each call that writes to it and is not refused. -/
def versions (N : Nat) (s : SectorNo) (memory : FlatMemory) : List CacheCall → List (Nat → UInt8)
  | [] => [memory s]
  | call :: rest =>
    if call.Lies N then
      if call.writesTo s then memory s :: (memory.after call).versions N s rest
      else (memory.after call).versions N s rest
    else memory.versions N s rest

theorem ofSectors_congr {sectors sectors' : SectorNo → Sector} {s : SectorNo}
    (same : sectors s = sectors' s) : ofSectors sectors s = ofSectors sectors' s :=
  congrArg (fun data i => data.byteAt i) same

theorem after_of_writesTo_eq_false {memory : FlatMemory} {call : CacheCall} {s : SectorNo}
    (other : call.writesTo s = false) : memory.after call s = memory s := by
  cases call with
  | read | flush => rfl
  | write t offset data =>
    have different : s ≠ t := Ne.symm (beq_eq_false_iff_ne.mp other)
    funext i
    exact if_neg fun both => different both.1

/-- The versions up to a call and those behind it. -/
theorem versions_cons (N : Nat) (s : SectorNo) (memory : FlatMemory) (call : CacheCall)
    (earlier : List (Nat → UInt8)) :
    ∃ earlier' more : List (Nat → UInt8),
      earlier' ++ [(if call.Lies N then memory.after call else memory) s] =
        earlier ++ [memory s] ++ more ∧
      ∀ later, earlier ++ memory.versions N s (call :: later) =
        earlier' ++ (if call.Lies N then memory.after call else memory).versions N s later := by
  by_cases lies : call.Lies N
  · cases writes : call.writesTo s with
    | true =>
      refine ⟨earlier ++ [memory s], [memory.after call s], by rw [if_pos lies], fun later => ?_⟩
      rw [versions, if_pos lies, if_pos writes, if_pos lies, List.append_assoc,
        List.singleton_append]
    | false =>
      refine ⟨earlier, [], ?_, fun later => ?_⟩
      · rw [if_pos lies, after_of_writesTo_eq_false writes, List.append_nil]
      · rw [versions, if_pos lies, if_neg (by rw [writes]; exact Bool.false_ne_true), if_pos lies]
  · refine ⟨earlier, [], by rw [if_neg lies, List.append_nil], fun later => ?_⟩
    rw [versions, if_neg lies, if_neg lies]

end FlatMemory

/-- The states on record hold, of the sector `s`, the versions that `version` numbers, and never one
that comes before one that was held. -/
structure Recorded.Numbers {δ : Type} (sectors : δ → SectorNo → Sector) (s : SectorNo)
    (versions : List (Nat → UInt8)) (version : Nat → Nat) (recorded : Recorded δ) : Prop where
  monotone : Monotone version
  holds : ∀ {moment : Nat} {state : δ}, recorded.states[moment]? = some state →
    versions[version moment]? = some (FlatMemory.ofSectors (sectors state) s)

namespace Recorded

variable {δ : Type} {sectors : δ → SectorNo → Sector} {s : SectorNo}
  {versions : List (Nat → UInt8)} {version : Nat → Nat} {recorded after : Recorded δ}

theorem length_states (recorded : Recorded δ) :
    recorded.states.length = recorded.past.length + 1 := by
  rw [states, List.length_reverse, List.length_cons]

/-- After one transfer there is one more state. -/
theorem states_of_past (past : after.past = recorded.device :: recorded.past) :
    after.states = recorded.states ++ [after.device] := by
  rw [states, states, past, List.reverse_cons]

theorem getElem?_states_past_length (recorded : Recorded δ) :
    recorded.states[recorded.past.length]? = some recorded.device := by
  rw [states, List.reverse_cons, List.getElem?_append_right (by rw [List.length_reverse]),
    List.length_reverse, Nat.sub_self]
  rfl

namespace Numbers

theorem append (numbers : Numbers sectors s versions version recorded)
    (more : List (Nat → UInt8)) : Numbers sectors s (versions ++ more) version recorded where
  monotone := numbers.monotone
  holds atMoment := by
    have found := numbers.holds atMoment
    rw [List.getElem?_append_left (List.getElem?_eq_some_iff.mp found).1]
    exact found

/-- One more state gets a number that is not below the last one. -/
theorem next (numbers : Numbers sectors s versions version recorded)
    (past : after.past = recorded.device :: recorded.past) {k : Nat}
    (notBefore : version recorded.past.length ≤ k)
    (held : versions[k]? = some (FlatMemory.ofSectors (sectors after.device) s)) :
    ∃ version', (∀ moment < recorded.states.length, version' moment = version moment) ∧
      Numbers sectors s versions version' after := by
  -- the moments to come have the new number as well, so that numbers never decrease
  refine ⟨fun moment => if moment < recorded.states.length then version moment else k,
    fun moment before => if_pos before, ?_, ?_⟩
  · intro first second ordered
    have length := recorded.length_states
    by_cases later : second < recorded.states.length
    · simp only [if_pos later, if_pos (Nat.lt_of_le_of_lt ordered later)]
      exact numbers.monotone ordered
    · simp only [if_neg later]
      split
      · exact Nat.le_trans (numbers.monotone (by omega)) notBefore
      · exact Nat.le_refl k
  · intro moment state atMoment
    rw [states_of_past past] at atMoment
    by_cases before : moment < recorded.states.length
    · rw [List.getElem?_append_left before] at atMoment
      rw [if_pos before]
      exact numbers.holds atMoment
    · rw [List.getElem?_append_right (Nat.not_lt.mp before)] at atMoment
      rw [if_neg before, List.eq_of_mem_singleton (List.mem_of_getElem? atMoment)]
      exact held

theorem present (numbers : Numbers sectors s versions version recorded) :
    versions[version recorded.past.length]? =
      some (FlatMemory.ofSectors (sectors recorded.device) s) :=
  numbers.holds recorded.getElem?_states_past_length

end Numbers

/-- Since `start` the record has only got longer, and `version` was extended to number it still. -/
def Continues (sectors : δ → SectorNo → Sector) (s : SectorNo) (versions : List (Nat → UInt8))
    (version : Nat → Nat) (start reached : Recorded δ) : Prop :=
  start.states <+: reached.states ∧ ∃ version',
    (∀ moment < start.states.length, version' moment = version moment) ∧
      Numbers sectors s versions version' reached

theorem Continues.next {start : Recorded δ}
    (continues : Continues sectors s versions version start recorded)
    (past : after.past = recorded.device :: recorded.past)
    (same : sectors after.device s = sectors recorded.device s ∨
      versions.getLast? = some (FlatMemory.ofSectors (sectors after.device) s)) :
    Continues sectors s versions version start after := by
  obtain ⟨longer, version', agrees, numbers⟩ := continues
  have further : recorded.states <+: after.states :=
    ⟨[after.device], (states_of_past past).symm⟩
  have numbered : ∃ k, version' recorded.past.length ≤ k ∧
      versions[k]? = some (FlatMemory.ofSectors (sectors after.device) s) := by
    rcases same with same | last
    · exact ⟨_, Nat.le_refl _,
        numbers.present.trans (congrArg some (FlatMemory.ofSectors_congr same.symm))⟩
    · rw [List.getLast?_eq_getElem?] at last
      have := (List.getElem?_eq_some_iff.mp numbers.present).1
      exact ⟨_, by omega, last⟩
  obtain ⟨k, notBefore, held⟩ := numbered
  obtain ⟨version'', agrees', numbers'⟩ := numbers.next past notBefore held
  exact ⟨longer.trans further, version'', fun moment before =>
    (agrees' moment (Nat.lt_of_lt_of_le before longer.length_le)).trans (agrees moment before),
    numbers'⟩

section Transfers

variable [BlockDevice δ] {N : Nat} {storage : BoundedStorage δ N} {start : Recorded δ}

theorem Continues.readBlock_ends
    (continues : Continues storage.sector s versions version start recorded)
    (serves : storage.Serves recorded.device) (t : SectorNo) (buffer : Sector) :
    Step.Ends (readBlock t) (buffer, recorded)
      (fun _ after => storage.Serves after.2.device ∧
        Continues storage.sector s versions version start after.2)
      fun _ after => storage.Serves after.2.device ∧
        Continues storage.sector s versions version start after.2 := by
  have reads := (storage.recorded.reads t) buffer serves
  apply (reads.and (readBlock_past t buffer recorded)).imp
  · rintro _ after ⟨⟨-, -, serves, unchanged⟩, past⟩
    exact ⟨serves, continues.next past (Or.inl (congrFun unchanged s))⟩
  · rintro _ after ⟨⟨-, -, serves, unchanged⟩, past⟩
    exact ⟨serves, continues.next past (Or.inl (congrFun unchanged s))⟩

theorem Continues.writeBlock_yields
    (continues : Continues storage.sector s versions version start recorded)
    (serves : storage.Serves recorded.device) {t : SectorNo} (inside : t.toNat < N) {data : Sector}
    (last : t = s → versions.getLast? = some data.byteAt) :
    Step.Yields (writeBlock t data) recorded fun _ after => storage.Serves after.device ∧
      Continues storage.sector s versions version start after := by
  have writes := storage.recorded.writeBlock_yields data serves inside
  apply (writes.and (writeBlock_past t data recorded)).imp
  rintro _ after ⟨⟨servesAfter, written⟩, past⟩
  have written : storage.sector after.device =
    Function.update (storage.sector recorded.device) t data := written
  refine ⟨servesAfter, continues.next past ?_⟩
  by_cases same : t = s
  · have held : storage.sector after.device s = data := by
      rw [written, ← same, Function.update_self]
    exact Or.inr ((last same).trans (congrArg (fun data => some data.byteAt) held.symm))
  · exact Or.inl (by rw [written, Function.update_of_ne (Ne.symm same)])

end Transfers

end Recorded

namespace Cache

variable {δ : Type} [BlockDevice δ] {N : Nat} {storage : BoundedStorage δ N} {s : SectorNo}

variable {cache : Cache (Recorded δ)} {memory : FlatMemory}

theorem Consistent.made_continues {earlier : List (Nat → UInt8)} {version : Nat → Nat}
    (consistent : Consistent storage.recorded.medium cache)
    (view : FlatMemory.ofSectors (cache.view storage.recorded.sector) = memory)
    (numbers : Recorded.Numbers storage.sector s (earlier ++ [memory s]) version cache.device)
    (call : CacheCall) :
    Recorded.Continues storage.sector s (earlier ++ [memory s]) version cache.device
      (call.made cache).after.device := by
  let kept (device : Recorded δ) : Prop := storage.Serves device.device ∧
    Recorded.Continues storage.sector s (earlier ++ [memory s]) version cache.device device
  have start : kept cache.device :=
    ⟨consistent.serves, List.prefix_rfl, version, fun _ _ => rfl, numbers⟩
  have writing (i : Fin slotCount) (t : SectorNo) (data : Sector) (device : Recorded δ)
      (unsaved : (cache.slot i).unsaved? = some (t, data)) (holds : kept device) :
      Step.Ends (writeBlock t data) device (fun _ after => kept after)
        fun _ after => kept after := by
    obtain ⟨-, resident, rfl⟩ := Slot.unsaved?_eq_some_iff.mp unsaved
    apply Step.Ends.imp (holds.2.writeBlock_yields holds.1 (consistent.has resident) ?_)
      (fun _ _ => id) fun _ _ => False.elim
    -- a slot has what the view has of its sector, which is the last version
    rintro rfl
    rw [List.getLast?_concat, ← view, ← consistent.view_of_resident resident]
    rfl
  have ends := call.ends_of_transfers (fun t buffer device (holds : kept device) =>
    holds.2.readBlock_ends holds.1 t buffer) writing start
  rcases call.made_cases ends with ⟨_, -, holds⟩ | ⟨_, -, holds | ⟨-, same⟩⟩
  · exact holds.2
  · exact holds.2
  · rw [same]
    exact start.2

/-- The states on record after a run are numbered as those before it were, and those that each call
has reached have versions from before the call. -/
theorem Consistent.numbers_run {earlier : List (Nat → UInt8)} {version : Nat → Nat}
    (consistent : Consistent storage.recorded.medium cache)
    (view : FlatMemory.ofSectors (cache.view storage.recorded.sector) = memory)
    (numbers : Recorded.Numbers storage.sector s (earlier ++ [memory s]) version cache.device)
    (calls : List CacheCall) :
    (∀ made, (cache.serve (calls.take made)).2.device.states <+:
        (cache.serve (calls.take (made + 1))).2.device.states) ∧
      ∃ version', (∀ moment < cache.device.states.length, version' moment = version moment) ∧
        Monotone version' ∧ ∀ {made moment : Nat} {state : δ},
          (cache.serve (calls.take (made + 1))).2.device.states[moment]? = some state →
          (earlier ++ memory.versions N s (calls.take made))[version' moment]? =
            some (FlatMemory.ofSectors (storage.sector state) s) := by
  -- the run is told from any moment on: `earlier` are the versions before the one in the view
  induction calls generalizing cache memory earlier version with
  | nil =>
    refine ⟨fun made => ?_, version, fun _ _ => rfl, numbers.monotone,
      fun {made moment state} atMoment => ?_⟩
    · simpa only [List.take_nil] using List.prefix_rfl
    · rw [List.take_nil] at atMoment ⊢
      exact numbers.holds atMoment
  | cons call rest inductionHypothesis =>
    have consistentAfter := consistent.made (call.answerable_of_bounded storage.recorded)
    have viewAfter := consistent.view_made view call
    obtain ⟨longer, version', agrees, numbers'⟩ := consistent.made_continues view numbers call
    obtain ⟨earlier', more, extended, versions⟩ := memory.versions_cons N s call earlier
    have numbersAfter := numbers'.append more
    rw [← extended] at numbersAfter
    obtain ⟨grows, version'', agrees', monotone, holds⟩ :=
      inductionHypothesis consistentAfter viewAfter numbersAfter
    refine ⟨fun made => ?_, version'', fun moment before => ?_, monotone,
      fun {made moment state} atMoment => ?_⟩
    · rw [List.take_succ_cons, serve_cons]
      cases made with
      | zero => exact longer
      | succ made =>
        rw [List.take_succ_cons, serve_cons]
        exact grows made
    · rw [agrees' moment (Nat.lt_of_lt_of_le before longer.length_le), agrees moment before]
    · rw [List.take_succ_cons, serve_cons] at atMoment
      cases made with
      | zero =>
        -- the first call, which numbers what it reaches by the versions before it
        rw [List.take_zero, serve_nil] at atMoment
        rw [agrees' moment (List.getElem?_eq_some_iff.mp atMoment).1]
        exact numbers'.holds atMoment
      | succ made =>
        rw [List.take_succ_cons, versions]
        exact holds atMoment

/-- A new cache that alone uses a device of `N` sectors, and any run of calls on it.  The device is
looked at before and behind each single transfer, so also in the middle of a call, and each call
adds its moments to those before it.

What it holds of a sector at any moment is a version of it: what it held at first, or what a call
that has succeeded before that moment has left of the sector in the plain memory that the cache
stands for.  What comes later is never an earlier version, whichever sectors give up their slots. -/
theorem device_holds_past_versions (storage : BoundedStorage δ N) {device : δ}
    (serves : storage.Serves device) (calls : List CacheCall) (s : SectorNo) :
    let memory := FlatMemory.ofSectors (storage.sector device)
    let reached (made : Nat) :=
      (({ device := { device } } : Cache (Recorded δ)).serve (calls.take made)).2
    (∀ made, (reached made).device.states <+: (reached (made + 1)).device.states) ∧
      ∃ version : Nat → Nat, Monotone version ∧ ∀ (made moment : Nat) (state : δ),
        (reached (made + 1)).device.states[moment]? = some state →
        (memory.versions N s (calls.take made))[version moment]? =
          some (FlatMemory.ofSectors (storage.sector state) s) := by
  intro memory reached
  have servesRecorded : storage.recorded.medium.Serves { device } := serves
  obtain ⟨consistent, view⟩ := Consistent.fresh storage.recorded.medium servesRecorded
  have numbers : Recorded.Numbers storage.sector s ([] ++ [memory s]) (fun _ => 0)
      ({ device } : Recorded δ) := by
    refine ⟨fun _ _ _ => Nat.le_refl 0, fun {moment state} atMoment => ?_⟩
    rw [List.eq_of_mem_singleton (List.mem_of_getElem? atMoment)]
    rfl
  obtain ⟨grows, version, -, monotone, holds⟩ :=
    consistent.numbers_run (congrArg FlatMemory.ofSectors view) numbers calls
  exact ⟨grows, version, monotone, fun _ _ _ => holds⟩

/-- The one transfer of flushing takes the device to what the call before has written. -/
theorem device_holds_flushed_version :
    let calls : List CacheCall := [.write ⟨1⟩ 3 [7], .flush, .write ⟨1⟩ 3 [8]]
    let reached (made : Nat) := (({ device := { device := { sectors := 2 } } } :
      Cache (Recorded RamDisk)).serve (calls.take made)).2
    (RamDisk.storage 2).Serves { sectors := 2 } ∧
      (reached 3).device.states.map (fun disk => (disk.sector ⟨1⟩).byteAt 3) = [0, 0, 7] ∧
      ∃ version : Nat → Nat, Monotone version ∧ version 2 = 1 := by
  intro calls reached
  have serves : (RamDisk.storage 2).Serves { sectors := 2 } := rfl
  obtain ⟨-, version, monotone, holds⟩ :=
    device_holds_past_versions (RamDisk.storage 2) serves calls ⟨1⟩
  refine ⟨serves, by decide +kernel, version, monotone, ?_⟩
  have onRecord : (reached 2).device.states[2]?.map (fun disk => (disk.sector ⟨1⟩).byteAt 3) =
      some 7 := by decide +kernel
  obtain ⟨state, atMoment, byte⟩ := Option.map_eq_some_iff.mp onRecord
  have found := congrArg (Option.map (· 3)) (holds 1 2 state atMoment)
  rw [← List.getElem?_map, Option.map_some] at found
  have bytes : ((FlatMemory.ofSectors ((RamDisk.storage 2).sector { sectors := 2 })).versions 2 ⟨1⟩
      (calls.take 1)).map (· 3) = [0, 7] := by decide +kernel
  rw [bytes] at found
  have latest : ([0, 7] : List UInt8)[version 2]? = some 7 := found.trans (congrArg some byte)
  match version 2, latest with
  | 0, found => exact absurd found (by decide)
  | 1, _ => rfl
  | _ + 2, found => cases found

end Cache

end Residency
