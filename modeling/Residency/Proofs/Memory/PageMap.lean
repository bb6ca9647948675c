import Mathlib.Data.Finset.Insert
import Mathlib.Logic.Function.Basic
import Residency.Proofs.Memory.PageTable

/-!
# Page tables and partial maps

Whatever is done to a page table, it answers as a partial map from the virtual pages that it has a
place for, to the numbers of physical pages and whether these may be written:
`answers_as_partial_map`.

A `PageMap` is such a map, together with the pages that have an entry.  These are more than the ones
that are mapped: an entry stays when its page is unmapped, and may be made ahead of any mapping.
`PageMap.after` says what becomes of a map, and `PageTable.Holds` that a page table is one.
-/

namespace Residency

/-- Anything that may change a page table. -/
inductive PageTableCall where
  | install (page : VirtPage) (target : PhysPage) (writable : Bool)
  | unmap (page : VirtPage)
  | findEntry (page : VirtPage) (create : Bool)

/-- A call that fails leaves the table as it is. -/
def PageTableCall.step : PageTableCall → PageTable → PageTable
  | .install page target writable, table =>
    match table.install page target writable with
    | .ok after => after
    | .error _ => table
  | .unmap page, table => (table.unmap page).getD table
  | .findEntry page create, table => (table.findEntry page create).2

/-! ## Maps -/

structure PageMap where
  /-- The number of the physical page to which a virtual one is mapped, and whether it may be
      written. -/
  mapped : Nat → Option (Nat × Bool) := fun _ => none
  /-- The pages that were mapped, or whose entry was made, at some time. -/
  known : Finset Nat := ∅

namespace PageMap

def after (map : PageMap) : PageTableCall → PageMap
  | .install page target writable =>
    if page.toNat < tableCapacity ∧ map.mapped page.toNat = none then
      { mapped := Function.update map.mapped page.toNat (some (target.toNat % 2 ^ 54, writable))
        known := insert page.toNat map.known }
    else map
  | .unmap page => { map with mapped := Function.update map.mapped page.toNat none }
  | .findEntry page create =>
    if page.toNat < tableCapacity ∧ create = true then
      { map with known := insert page.toNat map.known }
    else map

def serve (map : PageMap) (calls : List PageTableCall) : PageMap :=
  calls.foldl after map

variable {map : PageMap}

theorem known_subset_after (call : PageTableCall) : map.known ⊆ (map.after call).known := by
  cases call with
  | install page target writable =>
    rw [after]
    split
    · exact Finset.subset_insert ..
    · exact Finset.Subset.refl _
  | unmap page => exact Finset.Subset.refl _
  | findEntry page create =>
    rw [after]
    split
    · exact Finset.subset_insert ..
    · exact Finset.Subset.refl _

theorem known_subset_serve (calls : List PageTableCall) : map.known ⊆ (map.serve calls).known := by
  induction calls generalizing map with
  | nil => exact Finset.Subset.refl _
  | cons call rest inductionHypothesis =>
    exact (known_subset_after call).trans inductionHypothesis

/-- Looking for an entry with success is enough to know it. -/
theorem known_after_findEntry {page : VirtPage} {create : Bool}
    (inside : page.toNat < tableCapacity) (known : create = true ∨ page.toNat ∈ map.known) :
    page.toNat ∈ (map.after (.findEntry page create)).known := by
  rw [after]
  cases create with
  | true =>
    rw [if_pos ⟨inside, rfl⟩]
    exact Finset.mem_insert_self ..
  | false =>
    rw [if_neg fun creates => Bool.false_ne_true creates.2]
    exact known.resolve_left Bool.false_ne_true

theorem serve_append (calls : List PageTableCall) (call : PageTableCall)
    (later : List PageTableCall) :
    map.serve (calls ++ call :: later) = ((map.serve calls).after call).serve later := by
  rw [serve, List.foldl_append]
  rfl

end PageMap

/-! ## Tables that hold a map -/

/-- What an entry maps: the number of the page, and whether it may be written. -/
def Entry.mapping? (entry : Entry) : Option (Nat × Bool) :=
  entry.target?.map fun page => (page.toNat, entry.isWritable)

@[simp] theorem Entry.mapping?_clear : clear.mapping? = none := by
  rw [mapping?, target?_clear, Option.map_none]

namespace PageTable

variable {table : PageTable} {map : PageMap} {place : Fin tableCapacity} {page : VirtPage}

theorem mapping?_mappingEntry (target : PhysPage) (writable : Bool) :
    (mappingEntry target writable).mapping? = some (target.toNat % 2 ^ 54, writable) := by
  have marked : (mappingEntry target writable).isWritable = writable := by
    rw [Entry.isWritable, Entry.flags_ofPage]
    cases writable <;> decide
  rw [Entry.mapping?, target?_mappingEntry, Option.map_some, marked, Entry.toNat_page_ofPage]

def serve (table : PageTable) (calls : List PageTableCall) : PageTable :=
  calls.foldl (fun table call => call.step table) table

/-- The valid entries of a table are what the map maps, and all of its entries are known. -/
structure Holds (table : PageTable) (map : PageMap) : Prop where
  mapped : ∀ place : Fin tableCapacity,
    (getElem table.entries place place.isLt).bind Entry.mapping? = map.mapped place
  known : ∀ place : Fin tableCapacity,
    (getElem table.entries place place.isLt).isSome = true ↔ place.val ∈ map.known
  beyond : ∀ number, tableCapacity ≤ number → map.mapped number = none

theorem holds_empty (root : PhysPage) : PageTable.Holds { root } {} where
  mapped place := by simp
  known place := by simp
  beyond _ _ := rfl

namespace Holds

theorem setEntry (holds : table.Holds map) (place : Fin tableCapacity) (entry : Entry) :
    (table.setEntry place entry).Holds
      { mapped := Function.update map.mapped place entry.mapping?
        known := insert place.val map.known } := by
  refine ⟨fun other => ?_, fun other => ?_, fun number beyond => ?_⟩
  · simp only [PageTable.setEntry, Fin.getElem_fin, Vector.getElem_set]
    by_cases same : place = other
    · subst same
      simp
    · rw [if_neg (mt Fin.ext same), Function.update_of_ne (mt Fin.ext (Ne.symm same))]
      exact holds.mapped other
  · simp only [PageTable.setEntry, Fin.getElem_fin, Vector.getElem_set]
    by_cases same : place = other
    · subst same
      simp
    · rw [if_neg (mt Fin.ext same), Finset.mem_insert,
        or_iff_right (mt Fin.ext (Ne.symm same))]
      exact holds.known other
  · have apart : number ≠ place := by
      have := place.isLt
      omega
    exact (Function.update_of_ne apart ..).trans (holds.beyond number beyond)

/-- Of a page, the map knows the number. -/
theorem target? (holds : table.Holds map) (place : Fin tableCapacity) :
    (table.target? place).map PhysPage.toNat = (map.mapped place).map Prod.fst := by
  rw [← holds.mapped, PageTable.target?]
  show (table.entries[place].bind Entry.target?).map _ = _
  cases table.entries[place] with
  | none => rfl
  | some entry =>
    rw [Option.bind_some, Option.bind_some, Entry.mapping?, Option.map_map]
    rfl

theorem isSome_target? (holds : table.Holds map) (place : Fin tableCapacity) :
    (table.target? place).isSome = (map.mapped place).isSome := by
  rw [← Option.isSome_map, holds.target?, Option.isSome_map]

theorem known_of_mapped (holds : table.Holds map) {mapping : Nat × Bool}
    (mapped : map.mapped place = some mapping) : place.val ∈ map.known := by
  rw [← holds.mapped] at mapped
  rw [← holds.known]
  cases present : table.entries[place] with
  | none =>
    rw [present] at mapped
    cases mapped
  | some _ => rfl

theorem install (holds : table.Holds map) (page : VirtPage) (target : PhysPage)
    (writable : Bool) :
    ((PageTableCall.install page target writable).step table).Holds
      (map.after (.install page target writable)) := by
  rw [PageTableCall.step, PageMap.after]
  cases found : place? page with
  | none =>
    have beyond := place?_eq_none_iff.mp found
    rw [install_of_none found, if_neg (by omega)]
    exact holds
  | some place =>
    have number := place?_eq_some_iff.mp found
    rw [install_of_place found, holds.isSome_target?, number]
    cases mapped : map.mapped place with
    | some _ =>
      rw [Option.isSome_some, if_pos rfl, if_neg (by simp)]
      exact holds
    | none =>
      -- the entry that is set maps just what the map maps from now on
      rw [Option.isSome_none, if_neg Bool.false_ne_true, if_pos ⟨place.isLt, rfl⟩,
        ← mapping?_mappingEntry]
      exact holds.setEntry place _

/-- Where nothing is mapped, there is nothing to take back. -/
theorem update_none {number : Nat} (free : map.mapped number = none) :
    Function.update map.mapped number none = map.mapped :=
  Function.update_eq_self_iff.mpr free.symm

theorem unmap (holds : table.Holds map) (page : VirtPage) :
    ((PageTableCall.unmap page).step table).Holds (map.after (.unmap page)) := by
  rw [PageTableCall.step, PageMap.after]
  cases found : place? page with
  | none =>
    rw [update_none (holds.beyond _ (place?_eq_none_iff.mp found)), PageTable.unmap, found]
    exact holds
  | some place =>
    rw [unmap_of_place found, holds.isSome_target?, place?_eq_some_iff.mp found]
    cases mapped : map.mapped place with
    | none =>
      rw [update_none mapped, Option.isSome_none, if_neg Bool.false_ne_true]
      exact holds
    | some _ =>
      rw [Option.isSome_some, if_pos rfl, Option.getD_some]
      -- what was mapped has an entry, which stays
      have present : place.val ∈ map.known := holds.known_of_mapped mapped
      have cleared := holds.setEntry place .clear
      rw [Entry.mapping?_clear, Finset.insert_eq_of_mem present] at cleared
      exact cleared

theorem findEntry (holds : table.Holds map) (page : VirtPage) (create : Bool) :
    ((PageTableCall.findEntry page create).step table).Holds
      (map.after (.findEntry page create)) := by
  rw [PageTableCall.step, PageMap.after, PageTable.findEntry]
  cases found : place? page with
  | none =>
    have beyond := place?_eq_none_iff.mp found
    rw [if_neg (by omega)]
    exact holds
  | some place =>
    rw [place?_eq_some_iff.mp found]
    simp only [place.isLt, true_and]
    cases present : table.entries[place] with
    | some _ =>
      have known : place.val ∈ map.known := (holds.known place).mp (by rw [present]; rfl)
      rw [Finset.insert_eq_of_mem known, ite_self]
      exact holds
    | none =>
      cases create with
      | false => exact holds
      | true =>
        -- the entry that is made is clear, and maps no more than there was
        have free : map.mapped place = none := by rw [← holds.mapped, present]; rfl
        have made := holds.setEntry place .clear
        rw [Entry.mapping?_clear, update_none free] at made
        exact made

theorem step (holds : table.Holds map) (call : PageTableCall) :
    (call.step table).Holds (map.after call) := by
  cases call with
  | install page target writable => exact holds.install page target writable
  | unmap page => exact holds.unmap page
  | findEntry page create => exact holds.findEntry page create

theorem serve (holds : table.Holds map) (calls : List PageTableCall) :
    (table.serve calls).Holds (map.serve calls) := by
  induction calls generalizing table map with
  | nil => exact holds
  | cons call rest inductionHypothesis => exact inductionHypothesis (holds.step call)

end Holds

/-! ## Answers -/

theorem root_step (call : PageTableCall) (table : PageTable) :
    (call.step table).root = table.root := by
  cases call with
  | install page target writable =>
    rw [PageTableCall.step]
    split
    next installed =>
      obtain ⟨place, -, -, rfl⟩ := install_eq_ok_iff.mp installed
      rfl
    next => rfl
  | unmap page =>
    rw [PageTableCall.step]
    cases found : place? page with
    | none => rw [PageTable.unmap, found]; rfl
    | some place => rw [unmap_of_place found]; split <;> rfl
  | findEntry page create => exact (findEntry_keeps table page create).1

theorem root_serve (calls : List PageTableCall) (table : PageTable) :
    (table.serve calls).root = table.root := by
  induction calls generalizing table with
  | nil => rfl
  | cons call rest inductionHypothesis =>
    exact (inductionHypothesis _).trans (root_step call table)

/-- Where the entry of a page stands in memory. -/
def entryAt (root : PhysPage) (number : Nat) : Nat :=
  root.toNat % 2 ^ 52 * pageSize + number * entrySize

/-- What a page table answers that stands at the given root and holds a map, whichever way it is
asked. -/
structure AnswersAs (table : PageTable) (root : PhysPage) (map : PageMap) : Prop where
  install : ∀ page target writable,
    (table.install page target writable).map (fun _ => ()) =
      if tableCapacity ≤ page.toNat then .error (.outOfRange page)
      else if (map.mapped page.toNat).isSome then .error (.mapped page)
      else .ok ()
  unmap : ∀ page, (table.unmap page).isSome = (map.mapped page.toNat).isSome
  /-- Finding the page by the virtual page. -/
  mapping : ∀ page,
    (table.mapping page).map PhysPage.toNat = (map.mapped page.toNat).map Prod.fst
  entry : ∀ page, (table.entry? page).bind Entry.mapping? = map.mapped page.toNat
  beyond : ∀ page, tableCapacity ≤ page.toNat → table.mapping page = none
  found : ∀ page create, (table.findEntry page create).1.map EntryAddr.toNat =
    if page.toNat < tableCapacity ∧ (create = true ∨ page.toNat ∈ map.known) then
      some (entryAt root page.toNat)
    else none
  /-- Finding the page by the address of the entry. -/
  pageOf : ∀ entry number, number < tableCapacity → entry.toNat = entryAt root number →
    (table.pageOf entry).map PhysPage.toNat = (map.mapped number).map Prod.fst
  elsewhere : ∀ entry, (∀ number < tableCapacity, entry.toNat ≠ entryAt root number) →
    table.pageOf entry = none

theorem toNat_addrOf_eq (table : PageTable) (place : Fin tableCapacity) :
    (table.addrOf place).toNat = entryAt table.root place := by
  rw [toNat_addrOf, toNat_base, entryAt]

/-- The address of an entry is the address of one place. -/
theorem placeOf?_of_entryAt {entry : EntryAddr} (place : Fin tableCapacity)
    (address : entry.toNat = entryAt table.root place) : table.placeOf? entry = some place := by
  rw [placeOf?_eq_some_iff, ← EntryAddr.toNat_inj, toNat_addrOf_eq, address]

namespace Holds

theorem found (holds : table.Holds map) (page : VirtPage) (create : Bool) :
    (table.findEntry page create).1.map EntryAddr.toNat =
      if page.toNat < tableCapacity ∧ (create = true ∨ page.toNat ∈ map.known) then
        some (entryAt table.root page.toNat)
      else none := by
  rw [PageTable.findEntry]
  cases found : place? page with
  | none =>
    have beyond := place?_eq_none_iff.mp found
    rw [if_neg (by omega)]
    rfl
  | some place =>
    have known := holds.known place
    rw [place?_eq_some_iff.mp found, ← toNat_addrOf_eq]
    simp only [place.isLt, true_and]
    cases present : table.entries[place] with
    | some _ =>
      rw [present] at known
      rw [if_pos (Or.inr (known.mp rfl))]
      rfl
    | none =>
      rw [present] at known
      cases create with
      | true => rw [if_pos rfl, if_pos (Or.inl rfl)]; rfl
      | false =>
        rw [if_neg Bool.false_ne_true, if_neg]
        · rfl
        · rintro (impossible | isKnown)
          · cases impossible
          · cases known.mpr isKnown

theorem answersAs (holds : table.Holds map) : table.AnswersAs table.root map where
  install page target writable := by
    cases found : place? page with
    | none =>
      rw [install_of_none found, if_pos (place?_eq_none_iff.mp found)]
      rfl
    | some place =>
      have number := place?_eq_some_iff.mp found
      have inside : ¬ tableCapacity ≤ page.toNat := by rw [number]; exact Nat.not_le.mpr place.isLt
      rw [install_of_place found, if_neg inside, number, holds.isSome_target?]
      cases map.mapped place <;> rfl
  unmap page := by
    cases found : place? page with
    | none =>
      rw [PageTable.unmap, found, holds.beyond _ (place?_eq_none_iff.mp found)]
      rfl
    | some place =>
      rw [unmap_of_place found, place?_eq_some_iff.mp found, holds.isSome_target?]
      cases map.mapped place <;> rfl
  mapping page := by
    cases found : place? page with
    | none =>
      rw [mapping_of_none found, holds.beyond _ (place?_eq_none_iff.mp found)]
      rfl
    | some place =>
      rw [mapping_of_place found, place?_eq_some_iff.mp found, holds.target?]
  entry page := by
    unfold entry?
    cases found : place? page with
    | none =>
      rw [holds.beyond _ (place?_eq_none_iff.mp found)]
      rfl
    | some place =>
      rw [place?_eq_some_iff.mp found, ← holds.mapped]
      rfl
  beyond page outside := mapping_of_none (place?_eq_none_iff.mpr outside)
  found := holds.found
  pageOf entry number inside address := by
    rw [pageOf_eq, placeOf?_of_entryAt ⟨number, inside⟩ address, Option.bind_some,
      holds.target?]
  elsewhere entry apart := by
    rw [pageOf_eq]
    cases found : table.placeOf? entry with
    | none => rfl
    | some place =>
      rw [placeOf?_eq_some_iff] at found
      exact absurd (found ▸ toNat_addrOf_eq table place) (apart place place.isLt)

end Holds

/-- A page table with any root that has no entry yet, under any run of calls, successful or not,
answers as the partial map that the calls make: an installation maps a page if the table has a place
for it and it is not mapped yet, `unmap` takes that back, and nothing else changes what is mapped.
An entry that was found once is found from then on, and its address stays the same. -/
theorem answers_as_partial_map (root : PhysPage) (calls : List PageTableCall) :
    AnswersAs (serve { root } calls) root (PageMap.serve {} calls) ∧
      ∀ page create entry, ((serve { root } calls).findEntry page create).1 = some entry →
        ∀ later again,
          ((serve { root } (calls ++ .findEntry page create :: later)).findEntry page again).1 =
            some entry := by
  have answers (calls : List PageTableCall) :
      AnswersAs (serve { root } calls) root (PageMap.serve {} calls) := by
    have holds := ((holds_empty root).serve calls).answersAs
    rwa [root_serve] at holds
  refine ⟨answers calls, fun page create entry found later again => ?_⟩
  rw [← Option.map_inj_right fun _ _ => EntryAddr.toNat_inj.mp, Option.map_some] at found ⊢
  rw [(answers calls).found, Option.ite_none_right_eq_some] at found
  obtain ⟨⟨inside, wasKnown⟩, address⟩ := found
  have known :
      page.toNat ∈ (PageMap.serve {} (calls ++ .findEntry page create :: later)).known := by
    rw [PageMap.serve_append]
    exact PageMap.known_subset_serve later (PageMap.known_after_findEntry inside wasKnown)
  rw [(answers _).found, if_pos ⟨inside, Or.inr known⟩, address]

end PageTable

end Residency
