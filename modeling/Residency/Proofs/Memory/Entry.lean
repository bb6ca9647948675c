import Mathlib.Data.Nat.Bitwise
import Residency.Memory.Entry

/-!
# The layout of entries

An entry is a number in which the flags are the last eight binary digits, two zeros stand before
them, and the number of the page before these, as far as there is room: `Entry.toNat_ofPage`.  So
neither can disturb the other, and an entry is as good as the pair of the two:
`Entry.page_and_flags_stay_apart`.

The flags are a set: `Flags.contains_ofList` and `Flags.ofList_eq_iff` say that of them all that
matters is which ones are in it.
-/

namespace Residency

/-! ## Sets of flags -/

/-- The place of a flag among the binary digits, counted from the last one. -/
def Flag.index : Flag → Nat
  | .valid => 0
  | .readable => 1
  | .writable => 2
  | .executable => 3
  | .user => 4
  | .global => 5
  | .accessed => 6
  | .dirty => 7

theorem Flag.toNat_bit (flag : Flag) : flag.bit.toNat = 2 ^ flag.index := by
  cases flag <;> rfl

theorem Flag.index_inj {flag other : Flag} : flag.index = other.index ↔ flag = other := by
  refine ⟨fun same => ?_, congrArg index⟩
  cases flag <;> cases other <;> first | rfl | cases same

theorem Flag.exists_index : ∀ position < 8, ∃ flag : Flag, flag.index = position
  | 0, _ => ⟨.valid, rfl⟩
  | 1, _ => ⟨.readable, rfl⟩
  | 2, _ => ⟨.writable, rfl⟩
  | 3, _ => ⟨.executable, rfl⟩
  | 4, _ => ⟨.user, rfl⟩
  | 5, _ => ⟨.global, rfl⟩
  | 6, _ => ⟨.accessed, rfl⟩
  | 7, _ => ⟨.dirty, rfl⟩
  | _ + 8, beyond => absurd beyond (by omega)

namespace Flags

theorem contains_eq_testBit (flags : Flags) (flag : Flag) :
    flags.contains flag = flags.bits.toNat.testBit flag.index := by
  have masked : (flags.bits &&& flag.bit).toNat =
      (flags.bits.toNat.testBit flag.index).toNat * 2 ^ flag.index := by
    rw [UInt8.toNat_and, flag.toNat_bit, Nat.and_two_pow]
  rw [contains, Bool.eq_iff_iff, bne_iff_ne, ne_eq, ← UInt8.toNat_inj, masked]
  cases flags.bits.toNat.testBit flag.index <;> simp

/-- Each of the eight bits is the bit of a flag. -/
theorem ext_contains {flags others : Flags}
    (same : ∀ flag, flags.contains flag = others.contains flag) : flags = others := by
  obtain ⟨bits⟩ := flags
  obtain ⟨otherBits⟩ := others
  congr
  apply UInt8.toNat_inj.mp
  apply Nat.eq_of_testBit_eq
  intro position
  rcases Nat.lt_or_ge position 8 with inside | beyond
  · obtain ⟨flag, rfl⟩ := Flag.exists_index position inside
    simpa only [contains_eq_testBit] using same flag
  · have limit : (2 : Nat) ^ 8 ≤ 2 ^ position := Nat.pow_le_pow_right (by decide) beyond
    rw [Nat.testBit_lt_two_pow (Nat.lt_of_lt_of_le bits.toNat_lt limit),
      Nat.testBit_lt_two_pow (Nat.lt_of_lt_of_le otherBits.toNat_lt limit)]

theorem contains_insert (flag : Flag) (flags : Flags) (other : Flag) :
    (insert flag flags : Flags).contains other =
      (decide (other = flag) || flags.contains other) := by
  have bits : (insert flag flags : Flags).bits = flags.bits ||| flag.bit := rfl
  rw [contains_eq_testBit, contains_eq_testBit, bits, UInt8.toNat_or, Nat.testBit_or,
    flag.toNat_bit, Nat.testBit_two_pow, Bool.or_comm]
  simp only [Flag.index_inj, eq_comm]

theorem contains_ofList {members : List Flag} {flag : Flag} :
    (ofList members).contains flag = true ↔ flag ∈ members := by
  induction members with
  | nil =>
    have empty : (ofList []).contains flag = false := by cases flag <;> rfl
    simp [empty]
  | cons first rest inductionHypothesis =>
    have inserted : ofList (first :: rest) = insert first (ofList rest) := rfl
    rw [inserted, contains_insert, Bool.or_eq_true, decide_eq_true_eq, inductionHypothesis,
      List.mem_cons]

theorem ofList_eq_iff {members others : List Flag} :
    ofList members = ofList others ↔ ∀ flag, flag ∈ members ↔ flag ∈ others := by
  constructor
  · intro same flag
    rw [← contains_ofList, same, contains_ofList]
  · intro same
    apply ext_contains
    intro flag
    rw [Bool.eq_iff_iff, contains_ofList, contains_ofList, same]

end Flags

/-! ## Entries -/

namespace Entry

/-- The page that an entry maps. -/
def target? (entry : Entry) : Option PhysPage :=
  if entry.isValid then some entry.page else none

@[simp] theorem target?_clear : clear.target? = none := by
  decide

theorem toNat_bits_inj {a b : Entry} : a.bits.toNat = b.bits.toNat ↔ a = b := by
  cases a; cases b
  simp only [UInt64.toNat_inj, mk.injEq]

/-- The number of a page stands above the flags, as far as it fits. -/
theorem toNat_ofPage (page : PhysPage) (flags : Flags) :
    (ofPage page flags).bits.toNat = 2 ^ 10 * (page.toNat % 2 ^ 54) + flags.bits.toNat := by
  have small : flags.bits.toNat < 2 ^ 10 := Nat.lt_trans flags.bits.toNat_lt (by decide)
  -- what does not fit is shifted out
  have shifted : (page.raw <<< 10).toNat = 2 ^ 10 * (page.toNat % 2 ^ 54) := by
    rw [UInt64.toNat_shiftLeft, Nat.shiftLeft_eq, PhysPage.toNat]
    simp only [UInt64.toNat_ofNat, Nat.reduceMod, Nat.reducePow]
    omega
  show (page.raw <<< 10 ||| flags.bits.toUInt64).toNat = _
  rw [UInt64.toNat_or, UInt8.toNat_toUInt64, shifted, Nat.two_pow_add_eq_or_of_lt small]

theorem toNat_page (entry : Entry) : entry.page.toNat = entry.bits.toNat / 2 ^ 10 := by
  show (entry.bits >>> 10).toNat = _
  rw [UInt64.toNat_shiftRight, Nat.shiftRight_eq_div_pow]
  rfl

theorem toNat_page_ofPage (page : PhysPage) (flags : Flags) :
    (ofPage page flags).page.toNat = page.toNat % 2 ^ 54 := by
  have small := flags.bits.toNat_lt
  rw [toNat_page, toNat_ofPage]
  omega

theorem flags_ofPage (page : PhysPage) (flags : Flags) : (ofPage page flags).flags = flags := by
  have small := flags.bits.toNat_lt
  have bits : (ofPage page flags).bits.toUInt8 = flags.bits := by
    rw [← UInt8.toNat_inj, UInt64.toNat_toUInt8, toNat_ofPage]
    omega
  rw [Entry.flags, bits]

theorem page_ofPage_eq_iff {page : PhysPage} {flags : Flags} :
    (ofPage page flags).page = page ↔ page.toNat < 2 ^ 54 := by
  rw [← PhysPage.toNat_inj, toNat_page_ofPage]
  omega

theorem page_ofPage {page : PhysPage} (fits : page.toNat < 2 ^ 54) (flags : Flags) :
    (ofPage page flags).page = page :=
  page_ofPage_eq_iff.mpr fits

theorem target?_ofPage (page : PhysPage) {flags : Flags} (valid : flags.contains .valid = true) :
    (ofPage page flags).target? = some (ofPage page flags).page := by
  rw [target?, isValid, flags_ofPage, if_pos valid]

/-- An entry is determined by its flags and what it has of the number of its page. -/
theorem ofPage_eq_iff {page other : PhysPage} {flags others : Flags} :
    ofPage page flags = ofPage other others ↔
      page.toNat % 2 ^ 54 = other.toNat % 2 ^ 54 ∧ flags = others := by
  constructor
  · intro same
    have pages := toNat_page_ofPage page flags
    have sets := flags_ofPage page flags
    rw [same, toNat_page_ofPage] at pages
    rw [same, flags_ofPage] at sets
    exact ⟨pages.symm, sets.symm⟩
  · rintro ⟨pages, rfl⟩
    rw [← toNat_bits_inj, toNat_ofPage, toNat_ofPage, pages]

/-- The two bits between the number of the page and the flags. -/
theorem testBit_reserved (page : PhysPage) (flags : Flags) {position : Nat} (above : 8 ≤ position)
    (below : position < 10) : (ofPage page flags).bits.toNat.testBit position = false := by
  have small : flags.bits.toNat < 2 ^ 10 := Nat.lt_trans flags.bits.toNat_lt (by decide)
  have limit : (2 : Nat) ^ 8 ≤ 2 ^ position := Nat.pow_le_pow_right (by decide) above
  rw [toNat_ofPage, Nat.testBit_two_pow_mul_add _ small, if_pos below]
  exact Nat.testBit_lt_two_pow (Nat.lt_of_lt_of_le flags.bits.toNat_lt limit)

theorem clear_eq_ofPage : clear = ofPage ⟨0⟩ (.ofList []) := by
  decide

/-- An entry that is made for any page and any set of flags, which is given by its members.

Its flags are this set, its page has the lowest 54 bits of the number, which is all of it just if it
has no more, and the two bits between them are clear.  It is valid and writable as the set says.  For
pages with numbers that fit, two entries are equal if and only if their pages and their sets are, and
the clear entry is the one of page 0 and no flags. -/
theorem page_and_flags_stay_apart (page : PhysPage) (flags : List Flag) :
    let entry := ofPage page (.ofList flags)
    entry.flags = .ofList flags ∧
      (∀ flag, entry.flags.contains flag = true ↔ flag ∈ flags) ∧
      entry.page.toNat = page.toNat % 2 ^ 54 ∧ (entry.page = page ↔ page.toNat < 2 ^ 54) ∧
      entry.bits.toNat.testBit 8 = false ∧ entry.bits.toNat.testBit 9 = false ∧
      (entry.isValid = true ↔ .valid ∈ flags) ∧ (entry.isWritable = true ↔ .writable ∈ flags) ∧
      (page.toNat < 2 ^ 54 →
        (∀ other others, other.toNat < 2 ^ 54 → (entry = ofPage other (.ofList others) ↔
          page = other ∧ ∀ flag, flag ∈ flags ↔ flag ∈ others)) ∧
        (entry = clear ↔ page.toNat = 0 ∧ flags = [])) := by
  intro entry
  have isSet : entry.flags = .ofList flags := flags_ofPage ..
  have marks (flag : Flag) : entry.flags.contains flag = true ↔ flag ∈ flags := by
    rw [isSet, Flags.contains_ofList]
  have equal (fits : page.toNat < 2 ^ 54) (other : PhysPage) (others : List Flag)
      (otherFits : other.toNat < 2 ^ 54) : entry = ofPage other (.ofList others) ↔
        page = other ∧ ∀ flag, flag ∈ flags ↔ flag ∈ others := by
    rw [ofPage_eq_iff, Nat.mod_eq_of_lt fits, Nat.mod_eq_of_lt otherFits, PhysPage.toNat_inj,
      Flags.ofList_eq_iff]
  refine ⟨isSet, marks, toNat_page_ofPage .., page_ofPage_eq_iff,
    testBit_reserved _ _ (by decide) (by decide), testBit_reserved _ _ (by decide) (by decide),
    marks .valid, marks .writable, fun fits => ⟨equal fits, ?_⟩⟩
  rw [clear_eq_ofPage, equal fits ⟨0⟩ [] (by decide), ← PhysPage.toNat_inj]
  simp [List.eq_nil_iff_forall_not_mem, PhysPage.toNat]

example : (ofPage ⟨0x1234⟩ (.ofList [.readable, .valid])).bits = 0x48d003 := by
  decide

end Entry

end Residency
