import Mathlib

/-!
# Object sizes

The entry points compute an object size from an item size and an id length and
hand it to `Region::allocate_object` as a `uint16_t`.  `allocate_*` check the
item size first, `reallocate_*` does not, and the array's 32-bit item size is
narrowed before the check.
-/

namespace DynamicSwap

/-- Constants of `object.hpp`: an object within the data limit fits a
`uint16_t` size with its header and the longest id. -/
structure ObjectLimits where
  kHeaderSize : ℕ
  kHeaderSize_pos : 0 < kHeaderSize
  kMaxObjectDataSize : ℕ
  kVanillaPtrObjectIDSize : BitVec 8
  fits : kHeaderSize + kMaxObjectDataSize + (2 ^ 8 - 1) < 2 ^ 16

namespace ObjectSize

/-- What an entry point asks for and records: the argument of
`Region::allocate_object`, the lengths in the object header and, for an array
item, the size passed to `register_object`. -/
structure Allocation where
  objectSize : BitVec 16
  itemLen : BitVec 16
  idLen : BitVec 8
  registered : Option ℕ
  deriving DecidableEq

variable (limits : ObjectLimits)

/-- The `uint16_t` parameter of `allocate_local_object` and its `_nb` form. -/
def allocateLocalObject (objectSize : ℕ) : BitVec 16 :=
  BitVec.ofNat 16 objectSize

/-- Sizes in `allocate_generic_unique_ptr` and its `_nb` form; `none` is the
failed assertion. -/
def allocateGenericUniquePtr (itemSize : BitVec 16) (optionalIdLen : Option (BitVec 8)) :
    Option Allocation :=
  if itemSize.toNat ≤ limits.kMaxObjectDataSize then
    let idLen := optionalIdLen.getD limits.kVanillaPtrObjectIDSize
    some
      { objectSize := allocateLocalObject
          (limits.kHeaderSize + itemSize.toNat + idLen.toNat)
        itemLen := itemSize
        idLen := idLen
        registered := none }
  else none

/-- Sizes of one item in `GenericArray::GenericArray`. -/
def genericArray (itemSize : BitVec 32) : Option Allocation :=
  (allocateGenericUniquePtr limits (itemSize.setWidth 16) none).map
    fun allocation => { allocation with registered := some itemSize.toNat }

/-- Sizes in `reallocate_generic_unique_ptr_nb` for an old object that is
vanilla or not. -/
def reallocateGenericUniquePtrNb (vanilla : Bool) (newItemSize : BitVec 16)
    (oldObjIdLen : BitVec 8) : Option Allocation :=
  if vanilla = true ∧ oldObjIdLen ≠ limits.kVanillaPtrObjectIDSize then none
  else
    some
      { objectSize := allocateLocalObject
          (limits.kHeaderSize + newItemSize.toNat + oldObjIdLen.toNat)
        itemLen := newItemSize
        idLen := oldObjIdLen
        registered := none }

inductive Entry
  | genericArray (itemSize : BitVec 32)
  | allocateGenericUniquePtr (itemSize : BitVec 16) (optionalIdLen : Option (BitVec 8))
  | reallocateGenericUniquePtrNb (vanilla : Bool) (newItemSize : BitVec 16)
      (oldObjIdLen : BitVec 8)

namespace Entry

def run : Entry → Option Allocation
  | .genericArray itemSize => ObjectSize.genericArray limits itemSize
  | .allocateGenericUniquePtr itemSize optionalIdLen =>
      ObjectSize.allocateGenericUniquePtr limits itemSize optionalIdLen
  | .reallocateGenericUniquePtrNb vanilla newItemSize oldObjIdLen =>
      ObjectSize.reallocateGenericUniquePtrNb limits vanilla newItemSize oldObjIdLen

/-- The item size that the caller asked for. -/
def itemSize : Entry → ℕ
  | .genericArray itemSize => itemSize.toNat
  | .allocateGenericUniquePtr itemSize _ => itemSize.toNat
  | .reallocateGenericUniquePtrNb _ newItemSize _ => newItemSize.toNat

def idLen : Entry → ℕ
  | .genericArray _ => limits.kVanillaPtrObjectIDSize.toNat
  | .allocateGenericUniquePtr _ optionalIdLen =>
      (optionalIdLen.getD limits.kVanillaPtrObjectIDSize).toNat
  | .reallocateGenericUniquePtrNb _ _ oldObjIdLen => oldObjIdLen.toNat

/-- If the entry point accepts, the reserved size covers header, item and id
and the recorded and the registered length are the requested one. -/
def Covered (entry : Entry) : Prop :=
  ∀ allocation ∈ entry.run limits,
    allocation.objectSize.toNat =
        limits.kHeaderSize + entry.itemSize + entry.idLen limits ∧
      allocation.itemLen.toNat = entry.itemSize ∧
      ∀ size ∈ allocation.registered, size = entry.itemSize

/-- Nothing is lost in the two places without a limit check: the narrowing of
an array's item size, unless the check rejects what is left of it, and the
object size of a reallocation. -/
def Narrow : Entry → Prop
  | .genericArray itemSize =>
      itemSize.toNat < 2 ^ 16 ∨ limits.kMaxObjectDataSize < itemSize.toNat % 2 ^ 16
  | .allocateGenericUniquePtr _ _ => True
  | .reallocateGenericUniquePtrNb vanilla newItemSize oldObjIdLen =>
      limits.kHeaderSize + newItemSize.toNat + oldObjIdLen.toNat < 2 ^ 16 ∨
        vanilla = true ∧ oldObjIdLen ≠ limits.kVanillaPtrObjectIDSize

end Entry

variable {limits}

/-- An item within the limit keeps its size. -/
theorem toNat_allocateLocalObject {itemSize : ℕ} {idLen : BitVec 8}
    (hitemSize : itemSize ≤ limits.kMaxObjectDataSize) :
    (allocateLocalObject (limits.kHeaderSize + itemSize + idLen.toNat)).toNat =
      limits.kHeaderSize + itemSize + idLen.toNat := by
  have hfits := limits.fits
  have hidLen := idLen.isLt
  rw [allocateLocalObject, BitVec.toNat_ofNat]
  omega

theorem covered_allocateGenericUniquePtr (itemSize : BitVec 16)
    (optionalIdLen : Option (BitVec 8)) :
    (Entry.allocateGenericUniquePtr itemSize optionalIdLen).Covered limits := by
  intro allocation hallocation
  simp only [Entry.run, allocateGenericUniquePtr, Option.mem_def,
    Option.ite_none_right_eq_some, Option.some.injEq] at hallocation
  obtain ⟨hlimit, rfl⟩ := hallocation
  exact ⟨toNat_allocateLocalObject hlimit, rfl, by simp⟩

theorem covered_genericArray_iff (itemSize : BitVec 32) :
    (Entry.genericArray itemSize).Covered limits ↔
      (Entry.genericArray itemSize).Narrow limits := by
  have hlow : (itemSize.setWidth 16).toNat = itemSize.toNat % 2 ^ 16 :=
    BitVec.toNat_setWidth 16 itemSize
  simp only [Entry.Covered, Entry.run, genericArray, allocateGenericUniquePtr,
    Entry.Narrow, Option.mem_def, Option.map_eq_some_iff, Option.ite_none_right_eq_some,
    Option.some.injEq]
  constructor
  · intro hcovered
    by_contra hwide
    rw [not_or, not_lt, not_lt] at hwide
    obtain ⟨-, hitemLen, -⟩ := hcovered _ ⟨_, ⟨hlow ▸ hwide.2, rfl⟩, rfl⟩
    dsimp only [Entry.itemSize] at hitemLen
    omega
  · rintro hnarrow _ ⟨_, ⟨hlimit, rfl⟩, rfl⟩
    have hsame : (itemSize.setWidth 16).toNat = itemSize.toNat := by omega
    refine ⟨?_, hsame, by simp [Entry.itemSize]⟩
    rw [hsame] at hlimit ⊢
    exact toNat_allocateLocalObject hlimit

theorem covered_reallocate_iff (vanilla : Bool) (newItemSize : BitVec 16)
    (oldObjIdLen : BitVec 8) :
    (Entry.reallocateGenericUniquePtrNb vanilla newItemSize oldObjIdLen).Covered limits ↔
      (Entry.reallocateGenericUniquePtrNb vanilla newItemSize oldObjIdLen).Narrow
        limits := by
  simp only [Entry.Covered, Entry.run, reallocateGenericUniquePtrNb, Entry.Narrow,
    Option.mem_def, Option.ite_none_left_eq_some, Option.some.injEq]
  constructor
  · intro hcovered
    by_contra hwraps
    rw [not_or] at hwraps
    have hsize := (hcovered _ ⟨hwraps.2, rfl⟩).1
    dsimp only [allocateLocalObject, Entry.itemSize, Entry.idLen] at hsize
    rw [BitVec.toNat_ofNat] at hsize
    omega
  · rintro hnarrow _ ⟨haccepted, rfl⟩
    have hfits := hnarrow.resolve_right haccepted
    refine ⟨?_, rfl, by simp⟩
    rw [allocateLocalObject, BitVec.toNat_ofNat, Nat.mod_eq_of_lt hfits]
    rfl

/-- The reserved size covers the object exactly when neither unchecked
narrowing loses a bit. -/
theorem covered_iff (entry : Entry) : entry.Covered limits ↔ entry.Narrow limits := by
  cases entry with
  | genericArray itemSize => exact covered_genericArray_iff itemSize
  | allocateGenericUniquePtr itemSize optionalIdLen =>
      exact iff_of_true (covered_allocateGenericUniquePtr itemSize optionalIdLen) trivial
  | reallocateGenericUniquePtrNb vanilla newItemSize oldObjIdLen =>
      exact covered_reallocate_iff vanilla newItemSize oldObjIdLen

/-- A 16-byte object header and an 8-byte id. -/
def sixteenByteHeader : ObjectLimits where
  kHeaderSize := 16
  kHeaderSize_pos := by decide
  kMaxObjectDataSize := 2 ^ 16 - 1 - 16 - (2 ^ 8 - 1)
  kVanillaPtrObjectIDSize := 8
  fits := by decide

/-- A reallocation to 65535 bytes reserves 23; an array of items of 65636 bytes
records 100. -/
theorem not_forall_covered :
    ¬ (Entry.reallocateGenericUniquePtrNb true 65535 8).Covered sixteenByteHeader ∧
      ¬ (Entry.genericArray 65636).Covered sixteenByteHeader := by
  constructor
  · intro hcovered
    have hsize := (hcovered _ rfl).1
    exact absurd hsize (by decide)
  · intro hcovered
    have hitemLen := (hcovered _ rfl).2.1
    exact absurd hitemLen (by decide)

end ObjectSize

end DynamicSwap
