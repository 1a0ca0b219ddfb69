import DynamicSwap.Core.Helpers
import DynamicSwap.Core.Pointer

/-!
# The far-memory heap

Pointer metadata, local objects, the remote device and the reference counts of
the cache regions: the memory that the swap and collection functions share.
Objects are kept whole at their address; the header fields are those that
`manager.cpp` reads through `Object`.
-/

namespace DynamicSwap

/-- Address of a far-memory pointer. -/
abbrev Slot := ℕ

/-- A local object: its header fields and its data.  `objId` is the `uint64_t`
read at `get_obj_id()`. -/
structure Object where
  ptrAddr : Slot
  dsId : ℕ
  objId : ℕ
  objIdLen : ℕ
  data : List (BitVec 8)
  freed : Bool := false
  deriving DecidableEq

namespace Object

/-- `Object::size` for a given `Object::kHeaderSize`. -/
def size (kHeaderSize : ℕ) (object : Object) : ℕ :=
  kHeaderSize + object.data.length + object.objIdLen

end Object

/-- Region of a local address.  Region buffers are `kSize` aligned because the
hugepage that holds them is a multiple of `kSize`. -/
def regionOf (addr : ℕ) : ℕ :=
  addr / Region.kSize

structure Heap (Meta : Type) where
  metas : Slot → Meta
  objects : ℕ → Option Object
  device : ℕ → ℕ → List (BitVec 8)
  refCnt : ℕ → ℤ

namespace Heap

variable {Meta : Type}

def setMeta (heap : Heap Meta) (slot : Slot) (word : Meta) : Heap Meta :=
  { heap with metas := Function.update heap.metas slot word }

/-- `traverse`: apply a metadata setter to every alias of a list. -/
def mapMetas (heap : Heap Meta) (aliases : List Slot) (setter : Meta → Meta) :
    Heap Meta :=
  aliases.foldl (fun heap slot => heap.setMeta slot (setter (heap.metas slot))) heap

def putObject (heap : Heap Meta) (addr : ℕ) (object : Option Object) :
    Heap Meta :=
  { heap with objects := Function.update heap.objects addr object }

/-- `device_ptr_->write_object`. -/
def writeObject (heap : Heap Meta) (dsId objId : ℕ) (data : List (BitVec 8)) :
    Heap Meta :=
  { heap with
    device := Function.update heap.device dsId
      (Function.update (heap.device dsId) objId data) }

/-- `Region::atomic_inc_ref_cnt(addr, delta)`. -/
def atomicIncRefCnt (heap : Heap Meta) (addr : ℕ) (delta : ℤ) : Heap Meta :=
  { heap with
    refCnt := Function.update heap.refCnt (regionOf addr)
      (heap.refCnt (regionOf addr) + delta) }

section Fields

variable (heap : Heap Meta) (slot : Slot) (word : Meta) (addr : ℕ)
variable (object : Option Object) (dsId objId : ℕ) (data : List (BitVec 8))
variable (delta : ℤ)

@[simp]
theorem metas_setMeta_self : (heap.setMeta slot word).metas slot = word :=
  Function.update_self ..

@[simp]
theorem metas_setMeta_of_ne {slot other : Slot} (hne : other ≠ slot) :
    (heap.setMeta slot word).metas other = heap.metas other :=
  Function.update_of_ne hne ..

@[simp]
theorem objects_setMeta : (heap.setMeta slot word).objects = heap.objects := rfl

@[simp]
theorem device_setMeta : (heap.setMeta slot word).device = heap.device := rfl

@[simp]
theorem refCnt_setMeta : (heap.setMeta slot word).refCnt = heap.refCnt := rfl

@[simp]
theorem metas_putObject : (heap.putObject addr object).metas = heap.metas := rfl

@[simp]
theorem objects_putObject_self :
    (heap.putObject addr object).objects addr = object :=
  Function.update_self ..

@[simp]
theorem objects_putObject_of_ne {addr other : ℕ} (hne : other ≠ addr) :
    (heap.putObject addr object).objects other = heap.objects other :=
  Function.update_of_ne hne ..

@[simp]
theorem device_putObject : (heap.putObject addr object).device = heap.device :=
  rfl

@[simp]
theorem refCnt_putObject : (heap.putObject addr object).refCnt = heap.refCnt :=
  rfl

@[simp]
theorem metas_writeObject : (heap.writeObject dsId objId data).metas = heap.metas :=
  rfl

@[simp]
theorem objects_writeObject :
    (heap.writeObject dsId objId data).objects = heap.objects := rfl

@[simp]
theorem device_writeObject_self :
    (heap.writeObject dsId objId data).device dsId objId = data := by
  simp [writeObject]

@[simp]
theorem device_writeObject_of_ne {dsId objId otherDs other : ℕ}
    (hne : (otherDs, other) ≠ (dsId, objId)) :
    (heap.writeObject dsId objId data).device otherDs other =
      heap.device otherDs other := by
  by_cases hds : otherDs = dsId
  · subst otherDs
    have hobj : other ≠ objId := fun heq => hne (by rw [heq])
    simp [writeObject, Function.update_of_ne hobj]
  · simp [writeObject, Function.update_of_ne hds]

@[simp]
theorem metas_atomicIncRefCnt :
    (heap.atomicIncRefCnt addr delta).metas = heap.metas := rfl

@[simp]
theorem objects_atomicIncRefCnt :
    (heap.atomicIncRefCnt addr delta).objects = heap.objects := rfl

@[simp]
theorem device_atomicIncRefCnt :
    (heap.atomicIncRefCnt addr delta).device = heap.device := rfl

end Fields

/-! ## Traversal of a ring -/

theorem metas_mapMetas_of_notMem (heap : Heap Meta) {aliases : List Slot}
    (setter : Meta → Meta) {slot : Slot} (hslot : slot ∉ aliases) :
    (heap.mapMetas aliases setter).metas slot = heap.metas slot := by
  induction aliases generalizing heap with
  | nil => rfl
  | cons head aliases ih =>
      rw [List.mem_cons, not_or] at hslot
      rw [mapMetas, List.foldl_cons, ← mapMetas, ih _ hslot.2,
        metas_setMeta_of_ne _ _ hslot.1]

theorem metas_mapMetas_of_mem (heap : Heap Meta) {aliases : List Slot}
    (hnodup : aliases.Nodup) (setter : Meta → Meta) {slot : Slot}
    (hslot : slot ∈ aliases) :
    (heap.mapMetas aliases setter).metas slot = setter (heap.metas slot) := by
  induction aliases generalizing heap with
  | nil => simp at hslot
  | cons head aliases ih =>
      rw [List.nodup_cons] at hnodup
      rw [mapMetas, List.foldl_cons, ← mapMetas]
      rcases List.mem_cons.mp hslot with rfl | htail
      · rw [metas_mapMetas_of_notMem _ _ hnodup.1, metas_setMeta_self]
      · have hne : slot ≠ head := by
          rintro rfl
          exact hnodup.1 htail
        rw [ih _ hnodup.2 htail, metas_setMeta_of_ne _ _ hne]

@[simp]
theorem objects_mapMetas (heap : Heap Meta) (aliases : List Slot)
    (setter : Meta → Meta) :
    (heap.mapMetas aliases setter).objects = heap.objects := by
  induction aliases generalizing heap with
  | nil => rfl
  | cons head aliases ih => rw [mapMetas, List.foldl_cons, ← mapMetas, ih]; rfl

@[simp]
theorem device_mapMetas (heap : Heap Meta) (aliases : List Slot)
    (setter : Meta → Meta) :
    (heap.mapMetas aliases setter).device = heap.device := by
  induction aliases generalizing heap with
  | nil => rfl
  | cons head aliases ih => rw [mapMetas, List.foldl_cons, ← mapMetas, ih]; rfl

@[simp]
theorem refCnt_mapMetas (heap : Heap Meta) (aliases : List Slot)
    (setter : Meta → Meta) :
    (heap.mapMetas aliases setter).refCnt = heap.refCnt := by
  induction aliases generalizing heap with
  | nil => rfl
  | cons head aliases ih => rw [mapMetas, List.foldl_cons, ← mapMetas, ih]; rfl

end Heap

end DynamicSwap
