import Residency.Memory.PageTable
import Residency.Proofs.Memory.Entry

/-!
# Page tables as maps

A page table is read as a map from its places to physical pages, and the addresses of its entries
lead back to these places.

* `Entry.target?` is what one entry maps to, `PageTable.target?` what the entry at a place maps to;
* `PageTable.mapping_of_place` and `PageTable.pageOf_addrOf`: finding the page by the virtual page
  and by the address of the entry is one and the same;
* `PageTable.install_eq_ok_iff`: a page is installed at a place that maps nothing, and nowhere else;
* `PageTable.placeOf?_eq_some_iff`: an address leads to the place whose entry it is the address of;
* `PageTable.addrOf_inj`: in tables whose roots differ no two entries have the same address.
-/

namespace Residency

theorem EntryAddr.toNat_inj {a b : EntryAddr} : a.toNat = b.toNat ↔ a = b := by
  cases a; cases b
  simp only [toNat, UInt64.toNat_inj, mk.injEq]

namespace PageTable

/-- The entry by which a page is mapped. -/
abbrev mappingEntry (target : PhysPage) (writable : Bool) : Entry :=
  .ofPage target (mappingFlags writable)

theorem target?_mappingEntry (target : PhysPage) (writable : Bool) :
    (mappingEntry target writable).target? = some (mappingEntry target writable).page := by
  apply Entry.target?_ofPage
  cases writable <;> decide

/-! ## Places -/

theorem place?_eq_some_iff {page : VirtPage} {place : Fin tableCapacity} :
    place? page = some place ↔ page.toNat = place.val := by
  simp only [place?]
  split
  next inside => simp [Fin.ext_iff]
  next outside =>
    simp only [reduceCtorEq, false_iff]
    exact fun same => outside (same ▸ place.isLt)

theorem place?_eq_none_iff {page : VirtPage} : place? page = none ↔ tableCapacity ≤ page.toNat := by
  rw [place?]
  split
  next inside => simp [inside]
  next outside => simp [Nat.not_lt.mp outside]

theorem exists_page (place : Fin tableCapacity) : ∃ page, place? page = some place := by
  refine ⟨⟨.ofNat place⟩, place?_eq_some_iff.mpr ?_⟩
  exact UInt64.toNat_ofNat_of_lt' (Nat.lt_trans place.isLt (by decide))

/-- What the entry at a place maps to, if there is one. -/
def target? (table : PageTable) (place : Fin tableCapacity) : Option PhysPage :=
  (getElem table.entries place place.isLt).bind Entry.target?

variable {table : PageTable} {page : VirtPage} {place : Fin tableCapacity}

theorem mapping_of_place (found : place? page = some place) :
    table.mapping page = table.target? place := by
  rw [mapping, entry?, found, target?]
  show (table.entries[place].filter Entry.isValid).map Entry.page = _
  cases table.entries[place] with
  | none => rfl
  | some entry =>
    rw [Option.filter_some, Option.bind_some, Entry.target?]
    split <;> rfl

theorem mapping_of_none (beyond : place? page = none) : table.mapping page = none := by
  rw [mapping, entry?, beyond]
  rfl

@[simp] theorem root_setEntry (entry : Entry) : (table.setEntry place entry).root = table.root :=
  rfl

@[simp] theorem addrOf_setEntry (entry : Entry) (other : Fin tableCapacity) :
    (table.setEntry place entry).addrOf other = table.addrOf other :=
  rfl

theorem target?_setEntry (entry : Entry) (other : Fin tableCapacity) :
    (table.setEntry place entry).target? other =
      if other = place then entry.target? else table.target? other := by
  simp only [target?, setEntry, Fin.getElem_fin, Vector.getElem_set, Fin.ext_iff,
    eq_comm (a := place.val)]
  split <;> rfl

/-! ## Changes -/

theorem install_of_none (beyond : place? page = none) (target : PhysPage) (writable : Bool) :
    table.install page target writable = .error (.outOfRange page) := by
  rw [install, beyond]

theorem install_of_place (found : place? page = some place) (target : PhysPage)
    (writable : Bool) : table.install page target writable =
      if (table.target? place).isSome then .error (.mapped page)
      else .ok (table.setEntry place (mappingEntry target writable)) := by
  rw [install, found, ← mapping_of_place found]

theorem install_eq_ok_iff {target : PhysPage} {writable : Bool} {after : PageTable} :
    table.install page target writable = .ok after ↔
      ∃ place, place? page = some place ∧ table.target? place = none ∧
        after = table.setEntry place (mappingEntry target writable) := by
  cases found : place? page with
  | none => simp [install_of_none found]
  | some place =>
    rw [install_of_place found]
    cases mapped : table.target? place with
    | none => simp [mapped, eq_comm]
    | some _ => simp [mapped]

theorem unmap_of_place (found : place? page = some place) :
    table.unmap page = if (table.target? place).isSome then some (table.setEntry place .clear)
      else none := by
  rw [unmap, found, target?]
  show (do
    let entry ← table.entries[place]
    if entry.isValid then some (table.setEntry place .clear) else none) = _
  cases table.entries[place] with
  | none => rfl
  | some entry => cases valid : entry.isValid <;> simp [Entry.target?, valid]

/-- The entry of a mapped page is found where it is, and nothing has to be made. -/
theorem findEntry_of_target {target : PhysPage} (found : place? page = some place)
    (mapped : table.target? place = some target) (create : Bool) :
    table.findEntry page create = (some (table.addrOf place), table) := by
  rw [findEntry, found]
  simp only
  cases entry : table.entries[place] with
  | none =>
    rw [target?, entry] at mapped
    cases mapped
  | some _ => rfl

/-- An entry is found at the place of its page, or else the page is not mapped. -/
theorem findEntry_cases (table : PageTable) (page : VirtPage) (create : Bool) :
    (∃ place, place? page = some place ∧
        (table.findEntry page create).1 = some (table.addrOf place)) ∨
      (table.findEntry page create).1 = none ∧
        (table.findEntry page create).2.unmap page = none := by
  rw [findEntry]
  cases found : place? page with
  | none => exact Or.inr ⟨rfl, by rw [unmap, found]; rfl⟩
  | some place =>
    simp only
    cases present : table.entries[place] with
    | some _ => exact Or.inl ⟨place, rfl, rfl⟩
    | none =>
      cases create with
      | true => exact Or.inl ⟨place, rfl, rfl⟩
      | false => exact Or.inr ⟨rfl, by simp [unmap_of_place found, target?, present]⟩

/-- Looking for an entry changes no mapping, also where the entry has to be made. -/
theorem findEntry_keeps (table : PageTable) (page : VirtPage) (create : Bool) :
    (table.findEntry page create).2.root = table.root ∧
      ∀ other, (table.findEntry page create).2.target? other = table.target? other := by
  rw [findEntry]
  cases place? page with
  | none => exact ⟨rfl, fun _ => rfl⟩
  | some place =>
    simp only
    cases missing : table.entries[place] with
    | some _ => exact ⟨rfl, fun _ => rfl⟩
    | none =>
      cases create with
      | false => exact ⟨rfl, fun _ => rfl⟩
      | true =>
        refine ⟨rfl, fun other => ?_⟩
        rw [if_pos rfl, target?_setEntry]
        split
        next same => rw [same, target?, missing]; rfl
        next => rfl

/-! ## Addresses -/

/-- The bits that do not fit are dropped from the front, so the address of the root stays the
first one of a page. -/
theorem toNat_base : table.base.toNat = table.root.toNat % 2 ^ 52 * pageSize := by
  show (table.root.raw * UInt64.ofNat pageSize).toNat = _
  rw [UInt64.toNat_mul]
  simp only [pageSize, pageBits, Nat.reduceShiftLeft, UInt64.reduceOfNat, UInt64.toNat_ofNat,
    PhysPage.toNat]
  omega

theorem addrOf_congr {other : PageTable} (root : table.root = other.root)
    (place : Fin tableCapacity) : table.addrOf place = other.addrOf place := by
  rw [addrOf, addrOf, base, base, root]

theorem toNat_addrOf (place : Fin tableCapacity) :
    (table.addrOf place).toNat = table.base.toNat + place * entrySize := by
  have limit : place.val < 512 := place.isLt
  have offset : (UInt64.ofNat (place * entrySize)).toNat = place * entrySize :=
    UInt64.toNat_ofNat_of_lt' (by simp only [entrySize, UInt64.size]; omega)
  show (table.base + UInt64.ofNat (place * entrySize)).toNat = _
  rw [UInt64.toNat_add, offset, toNat_base]
  apply Nat.mod_eq_of_lt
  simp only [pageSize, pageBits, entrySize, Nat.reduceShiftLeft]
  omega

theorem placeOf?_addrOf (place : Fin tableCapacity) :
    table.placeOf? (table.addrOf place) = some place := by
  have address : (table.addrOf place).toNat = _ := toNat_addrOf place
  have after : table.base ≤ (table.addrOf place).raw := by
    rw [UInt64.le_iff_toNat_le]
    show _ ≤ (table.addrOf place).toNat
    omega
  have distance : (table.addrOf place).toNat - table.base.toNat = place * entrySize := by omega
  rw [placeOf?, if_pos after]
  simp only [distance, Nat.mul_mod_left, Nat.mul_div_cancel _ (by decide : 0 < entrySize)]
  simp

theorem placeOf?_eq_some_iff {entry : EntryAddr} :
    table.placeOf? entry = some place ↔ entry = table.addrOf place := by
  refine ⟨fun found => ?_, fun same => same ▸ placeOf?_addrOf place⟩
  rw [placeOf?] at found
  split at found
  next after =>
    rw [UInt64.le_iff_toNat_le] at after
    simp only [Option.dite_none_right_eq_some, Option.some.injEq] at found
    obtain ⟨⟨whole, -⟩, rfl⟩ := found
    apply EntryAddr.toNat_inj.mp
    rw [toNat_addrOf, Nat.div_mul_cancel (Nat.dvd_of_mod_eq_zero whole)]
    exact (Nat.add_sub_of_le after).symm
  next => cases found

theorem pageOf_eq (entry : EntryAddr) :
    table.pageOf entry = (table.placeOf? entry).bind table.target? := by
  rw [pageOf]
  cases table.placeOf? entry with
  | none => rfl
  | some place =>
    show (do
      let found ← table.entries[place]
      if found.isValid then some found.page else none) = table.target? place
    rw [target?]
    rfl

theorem pageOf_addrOf (place : Fin tableCapacity) :
    table.pageOf (table.addrOf place) = table.target? place := by
  rw [pageOf_eq, placeOf?_addrOf, Option.bind_some]

/-- The entries of a table fill its root page, so an address tells the root and the place. -/
theorem addrOf_inj {other : PageTable} {i j : Fin tableCapacity} (small : table.root.toNat < 2 ^ 52)
    (otherSmall : other.root.toNat < 2 ^ 52) (same : table.addrOf i = other.addrOf j) :
    table.root = other.root ∧ i = j := by
  have addresses : (table.addrOf i).toNat = (other.addrOf j).toNat := by rw [same]
  have : i.val < 512 := i.isLt
  have : j.val < 512 := j.isLt
  simp only [toNat_addrOf, toNat_base, Nat.mod_eq_of_lt small, Nat.mod_eq_of_lt otherSmall,
    pageSize, pageBits, entrySize, Nat.reduceShiftLeft] at addresses
  constructor
  · apply PhysPage.toNat_inj.mp
    omega
  · apply Fin.ext
    omega

end PageTable

end Residency
