import Residency.Proofs.Memory.PageMap
import Residency.Proofs.Step

/-!
# The addresses of entries

The entries of a page table fill its root page, so that their addresses need no more than a machine
word, lead back to the places in the table, and are different in different tables:
`addresses_tell_table_and_place`.
-/

namespace Residency.PageTable

/-- The address of the entry of a virtual page, with every product and every sum refused that does
not fit a machine word. -/
def locate (page : VirtPage) : Step PageTable (Option EntryAddr) := do
  if page.toNat < tableCapacity then
    let distance ← mulSizes page.toNat entrySize
    let address ← addSizes (← get).base.toNat distance
    return some ⟨.ofNat address⟩
  else return none

variable {table other : PageTable} {page : VirtPage}

/-- The last entry ends where the root page does, and that is no further than words reach. -/
theorem entryAt_add_le (root : PhysPage) (place : Fin tableCapacity) :
    entryAt root place + entrySize ≤ wordLimit := by
  have := place.isLt
  simp only [entryAt, pageSize, pageBits, entrySize, Nat.reduceShiftLeft, wordLimit, UInt64.size,
    tableCapacity] at *
  omega

/-- Nothing is refused. -/
theorem locate_yields (table : PageTable) (page : VirtPage) :
    Step.Yields (locate page) table fun found after =>
      found = (place? page).map table.addrOf ∧ after = table := by
  rw [locate, Step.Yields, Step.ends_ite]
  cases found : place? page with
  | none =>
    rw [if_neg (Nat.not_lt.mpr (place?_eq_none_iff.mp found))]
    exact (Step.ends_pure _).mpr ⟨rfl, rfl⟩
  | some place =>
    have number := place?_eq_some_iff.mp found
    have address : table.base.toNat + place.val * entrySize = entryAt table.root place := by
      rw [entryAt, toNat_base]
    have sum : entryAt table.root place < wordLimit :=
      Nat.lt_of_lt_of_le (Nat.lt_add_of_pos_right (by decide)) (entryAt_add_le table.root place)
    have product : place.val * entrySize < wordLimit :=
      Nat.lt_of_le_of_lt (Nat.le_add_left ..) sum
    rw [number, if_pos place.isLt]
    simp only [Step.ends_bind, Step.ends_get, Step.ends_mulSizes, Step.ends_addSizes,
      Step.ends_pure, address, if_pos product, if_pos sum]
    refine ⟨?_, trivial⟩
    rw [Option.map_some, Option.some.injEq, ← EntryAddr.toNat_inj, toNat_addrOf_eq]
    exact UInt64.toNat_ofNat_of_lt' sum

theorem findEntry_create (table : PageTable) {place : Fin tableCapacity}
    (found : place? page = some place) :
    (table.findEntry page true).1 = some (table.addrOf place) := by
  rw [findEntry, found]
  simp only
  cases table.entries[place] <;> rfl

/-- A table does not take the entries of another for its own. -/
theorem placeOf?_addrOf_of_root_ne (different : table.root ≠ other.root)
    (small : table.root.toNat < 2 ^ 52) (otherSmall : other.root.toNat < 2 ^ 52)
    (place : Fin tableCapacity) : table.placeOf? (other.addrOf place) = none := by
  cases found : table.placeOf? (other.addrOf place) with
  | none => rfl
  | some here =>
    have same := placeOf?_eq_some_iff.mp found
    exact absurd (addrOf_inj otherSmall small same).1.symm different

/-- A page table with any root.  The address of the entry of each virtual page that it has a place
for is computed without an overflow, is the one that is found, and leads back to the place.  No other
address leads to a place.  In two tables with different roots, both of which fit an address, no two
entries have the same address, and neither table takes an entry of the other for its own. -/
theorem addresses_tell_table_and_place (table : PageTable) :
    (∀ page (inside : page.toNat < tableCapacity),
        let place : Fin tableCapacity := ⟨page.toNat, inside⟩
        Step.Yields (locate page) table (fun found after =>
          found = some (table.addrOf place) ∧ after = table) ∧
        (table.addrOf place).toNat = entryAt table.root page.toNat ∧
        (table.findEntry page true).1 = some (table.addrOf place) ∧
        table.placeOf? (table.addrOf place) = some place) ∧
      (∀ entry number, (table.placeOf? entry).map Fin.val = some number →
        ∃ inside : number < tableCapacity, entry = table.addrOf ⟨number, inside⟩) ∧
      ∀ other : PageTable, table.root ≠ other.root →
        table.root.toNat < 2 ^ 52 → other.root.toNat < 2 ^ 52 → ∀ i j,
          table.addrOf i ≠ other.addrOf j ∧ table.placeOf? (other.addrOf j) = none ∧
            other.placeOf? (table.addrOf i) = none := by
  refine ⟨fun page inside => ?_, ?_, ?_⟩
  · have found : place? page = some ⟨page.toNat, inside⟩ := place?_eq_some_iff.mpr rfl
    have located := locate_yields table page
    rw [found, Option.map_some] at located
    exact ⟨located, toNat_addrOf_eq .., findEntry_create table found, placeOf?_addrOf _⟩
  · intro entry number found
    obtain ⟨place, isPlace, rfl⟩ := Option.map_eq_some_iff.mp found
    exact ⟨place.isLt, placeOf?_eq_some_iff.mp isPlace⟩
  · intro other different small otherSmall i j
    exact ⟨fun same => different (addrOf_inj small otherSmall same).1,
      placeOf?_addrOf_of_root_ne different small otherSmall j,
      placeOf?_addrOf_of_root_ne different.symm otherSmall small i⟩

/-- The tables in the last two pages that have an address: the last entry of the one ends where the
first entry of the other starts. -/
theorem neighbouring_tables_are_told_apart :
    let table : PageTable := { root := ⟨0xffffffffffffe⟩ }
    let next : PageTable := { root := ⟨0xfffffffffffff⟩ }
    (table.addrOf 511).toNat + entrySize = (next.addrOf 0).toNat ∧
      table.addrOf 511 ≠ next.addrOf 0 ∧ table.placeOf? (next.addrOf 0) = none ∧
      next.placeOf? (table.addrOf 511) = none := by
  intro table next
  obtain ⟨-, -, apart⟩ := addresses_tell_table_and_place table
  exact ⟨by decide, apart next (by decide) (by decide) (by decide) 511 0⟩

end Residency.PageTable
