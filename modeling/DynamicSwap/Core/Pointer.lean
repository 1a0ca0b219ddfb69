import Mathlib

/-!
# Far-memory pointer metadata

`pointer.hpp` declares the operations of `FarMemPtrMeta` and documents the two
formats of its 64-bit word; the bodies live outside the repository.  The model
takes the operations as parameters together with what their names and the
format comment promise, and leaves every undocumented bit open.  The word
layout of the comment is one implementation.
-/

namespace DynamicSwap

/-- The operations of `FarMemPtrMeta` that the manager and the pager call, on
an arbitrary type of metadata words. -/
structure FarMemPtrMeta (Meta : Type) where
  isPresent : Meta → Bool
  isShared : Meta → Bool
  isNull : Meta → Bool
  isEvacuation : Meta → Bool
  isHot : Meta → Bool
  isDirty : Meta → Bool
  getObjectId : Meta → ℕ
  getObjectSize : Meta → ℕ
  getDsId : Meta → ℕ
  getObjectAddr : Meta → ℕ
  setPresent : Meta → ℕ → Meta
  setEvacuation : Meta → Meta
  setDirty : Meta → Meta
  gcCopy : Meta → ℕ → Meta
  mutatorCopy : Meta → ℕ → Meta
  gcWb : Meta → (dsId objectSize objId : ℕ) → Meta
  nullify : Meta → Meta
  /-- Object addresses below this bound fit the 47-bit data address. -/
  addrBound : ℕ
  addrBound_pos : 0 < addrBound
  isPresent_of_isNull : ∀ word, isNull word = true → isPresent word = false
  isNull_nullify : ∀ word, isNull (nullify word) = true
  isEvacuation_nullify : ∀ word, isEvacuation (nullify word) = false
  isPresent_setPresent : ∀ word addr, isPresent (setPresent word addr) = true
  isShared_setPresent : ∀ word addr,
    isShared (setPresent word addr) = isShared word
  isDirty_setPresent : ∀ word addr, isDirty (setPresent word addr) = false
  isEvacuation_setPresent : ∀ word addr,
    isEvacuation (setPresent word addr) = false
  getObjectAddr_setPresent : ∀ word addr, addr < addrBound →
    getObjectAddr (setPresent word addr) = addr
  isPresent_setEvacuation : ∀ word, isPresent word = true →
    isPresent (setEvacuation word) = true
  isShared_setEvacuation : ∀ word, isPresent word = true →
    isShared (setEvacuation word) = isShared word
  isDirty_setEvacuation : ∀ word, isPresent word = true →
    isDirty (setEvacuation word) = isDirty word
  isEvacuation_setEvacuation : ∀ word, isPresent word = true →
    isEvacuation (setEvacuation word) = true
  getObjectAddr_setEvacuation : ∀ word, isPresent word = true →
    getObjectAddr (setEvacuation word) = getObjectAddr word
  isPresent_setDirty : ∀ word, isPresent word = true →
    isPresent (setDirty word) = true
  isShared_setDirty : ∀ word, isPresent word = true →
    isShared (setDirty word) = isShared word
  isDirty_setDirty : ∀ word, isPresent word = true →
    isDirty (setDirty word) = true
  getObjectAddr_setDirty : ∀ word, isPresent word = true →
    getObjectAddr (setDirty word) = getObjectAddr word
  isPresent_gcCopy : ∀ word addr, isPresent word = true →
    isPresent (gcCopy word addr) = true
  isShared_gcCopy : ∀ word addr, isPresent word = true →
    isShared (gcCopy word addr) = isShared word
  isDirty_gcCopy : ∀ word addr, isPresent word = true →
    isDirty (gcCopy word addr) = isDirty word
  getObjectAddr_gcCopy : ∀ word addr, isPresent word = true →
    addr < addrBound → getObjectAddr (gcCopy word addr) = addr
  isEvacuation_gcCopy_congr : ∀ word other addr, isPresent word = true →
    isPresent other = true → isEvacuation word = isEvacuation other →
      isEvacuation (gcCopy word addr) = isEvacuation (gcCopy other addr)
  isPresent_mutatorCopy : ∀ word addr, isPresent word = true →
    isPresent (mutatorCopy word addr) = true
  isEvacuation_mutatorCopy : ∀ word addr, isPresent word = true →
    isEvacuation (mutatorCopy word addr) = false
  getObjectAddr_mutatorCopy : ∀ word addr, isPresent word = true →
    addr < addrBound → getObjectAddr (mutatorCopy word addr) = addr
  isPresent_gcWb : ∀ word dsId objectSize objId,
    isPresent (gcWb word dsId objectSize objId) = false
  /-- Format II has no bit besides its fields and the shared bit. -/
  gcWb_congr : ∀ word other dsId objectSize objId, isShared word = isShared other →
    gcWb word dsId objectSize objId = gcWb other dsId objectSize objId
  isShared_gcWb : ∀ word dsId objectSize objId,
    isShared (gcWb word dsId objectSize objId) = isShared word
  isNull_gcWb : ∀ word dsId objectSize objId, 0 < objectSize →
    objectSize < 2 ^ 16 → isNull (gcWb word dsId objectSize objId) = false
  getDsId_gcWb : ∀ word dsId objectSize objId, dsId < 2 ^ 8 →
    getDsId (gcWb word dsId objectSize objId) = dsId
  getObjectSize_gcWb : ∀ word dsId objectSize objId, objectSize < 2 ^ 16 →
    getObjectSize (gcWb word dsId objectSize objId) = objectSize
  getObjectId_gcWb : ∀ word dsId objectSize objId, objId < 2 ^ 38 →
    getObjectId (gcWb word dsId objectSize objId) = objId

namespace FarMemPtrMeta

/-- `FarMemPtrMeta::kSize`, in bytes. -/
def kSize : ℕ := 8

/-- `FarMemPtrMeta::kObjectIDBitSize`. -/
def kObjectIDBitSize : ℕ := 38

theorem sixteen_lt : 16 < 2 ^ 47 := by decide

/-- The word layout of `pointer.hpp` for a given `Object::kHeaderSize`.  Format
I keeps the data address from bit 17 on, format II the object id from bit 26
on; bit 8 tells them apart. -/
def pointerHpp (kHeaderSize : ℕ)
    (hheader : kHeaderSize < 2 ^ 47 := by
      first
        | exact DynamicSwap.FarMemPtrMeta.sixteen_lt
        | decide) :
    FarMemPtrMeta ℕ where
  isPresent word := word / 2 ^ 8 % 2 == 0
  isShared word := word / 2 ^ 9 % 2 == 1
  isNull word := word / 2 ^ 8 == 1
  isEvacuation word := word / 2 ^ 16 % 2 == 1
  isHot word := word / 2 ^ 7 % 2 == 0
  isDirty word := word / 2 ^ 10 % 2 == 0
  getObjectId word := word / 2 ^ 26
  getObjectSize word := word / 2 ^ 10 % 2 ^ 16
  getDsId word := word % 2 ^ 8
  getObjectAddr word := word / 2 ^ 17 - kHeaderSize
  setPresent word addr :=
    2 ^ 9 * (word / 2 ^ 9 % 2) + 2 ^ 10 + 2 ^ 17 * (addr + kHeaderSize)
  setEvacuation word := word + 2 ^ 16 * (1 - word / 2 ^ 16 % 2)
  setDirty word := word - 2 ^ 10 * (word / 2 ^ 10 % 2)
  gcCopy word addr := word % 2 ^ 16 + 2 ^ 17 * (addr + kHeaderSize)
  mutatorCopy word addr := word % 2 ^ 16 + 2 ^ 17 * (addr + kHeaderSize)
  gcWb word dsId objectSize objId :=
    dsId % 2 ^ 8 + 2 ^ 8 + 2 ^ 9 * (word / 2 ^ 9 % 2) +
      2 ^ 10 * (objectSize % 2 ^ 16) + 2 ^ 26 * (objId % 2 ^ 38)
  nullify _ := 2 ^ 8
  addrBound := 2 ^ 47 - kHeaderSize
  addrBound_pos := Nat.sub_pos_of_lt hheader
  isPresent_of_isNull := by grind
  isNull_nullify := by grind
  isEvacuation_nullify := by grind
  isPresent_setPresent := by grind
  isShared_setPresent := by grind
  isDirty_setPresent := by grind
  isEvacuation_setPresent := by grind
  getObjectAddr_setPresent := by grind
  isPresent_setEvacuation := by grind
  isShared_setEvacuation := by grind
  isDirty_setEvacuation := by grind
  isEvacuation_setEvacuation := by grind
  getObjectAddr_setEvacuation := by grind
  isPresent_setDirty := by grind
  isShared_setDirty := by grind
  isDirty_setDirty := by grind
  getObjectAddr_setDirty := by grind
  isPresent_gcCopy := by grind
  isShared_gcCopy := by grind
  isDirty_gcCopy := by grind
  getObjectAddr_gcCopy := by grind
  isEvacuation_gcCopy_congr := by grind
  isPresent_mutatorCopy := by grind
  isEvacuation_mutatorCopy := by grind
  getObjectAddr_mutatorCopy := by grind
  isPresent_gcWb := by grind
  gcWb_congr := by grind
  isShared_gcWb := by grind
  isNull_gcWb := by grind
  getDsId_gcWb := by grind
  getObjectSize_gcWb := by grind
  getObjectId_gcWb := by grind

end FarMemPtrMeta

end DynamicSwap
