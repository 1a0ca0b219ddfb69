import DynamicSwap.Core.Heap
import DynamicSwap.Library.ByteMemory
import DynamicSwap.Region.Allocation
import DynamicSwap.Region.InFlight

/-!
# Non-blocking allocation of unique pointers

`allocate_generic_unique_ptr_nb` and `reallocate_generic_unique_ptr_nb` on the
bytes of the local cache.  Local space comes first; without it nothing has
happened yet.  With it the steps that follow write only the space that was
allocated, the pointer and, at the end, the header of the old object.
-/

namespace DynamicSwap.NonBlocking

open Library.ByteMemory (window place upTo window_place eqOn_place window_congr
  window_place_of_disjoint eqOn_compl_trans)

/-- The header of an object as `Object` reads and writes it, with what the names
of its members promise.  A pointer that fits makes the object a live one. -/
structure ObjectFormat (kHeaderSize : ℕ) where
  dataLen : (Fin kHeaderSize → BitVec 8) → BitVec 16
  dsId : (Fin kHeaderSize → BitVec 8) → BitVec 8
  objIdLen : (Fin kHeaderSize → BitVec 8) → BitVec 8
  ptrAddr : (Fin kHeaderSize → BitVec 8) → Slot
  isFreed : (Fin kHeaderSize → BitVec 8) → Bool
  setPtrAddr : Slot → (Fin kHeaderSize → BitVec 8) → Fin kHeaderSize → BitVec 8
  init : (dsId : BitVec 8) → (dataLen : BitVec 16) → (objIdLen : BitVec 8) →
    (Fin kHeaderSize → BitVec 8) → Fin kHeaderSize → BitVec 8
  free : (Fin kHeaderSize → BitVec 8) → Fin kHeaderSize → BitVec 8
  slotBound : ℕ
  ptrAddr_setPtrAddr : ∀ slot header, 0 < slot → slot < slotBound →
    ptrAddr (setPtrAddr slot header) = slot
  isFreed_setPtrAddr : ∀ slot header, 0 < slot → slot < slotBound →
    isFreed (setPtrAddr slot header) = false
  dataLen_init : ∀ dsId dataLen' objIdLen header,
    dataLen (init dsId dataLen' objIdLen header) = dataLen'
  dsId_init : ∀ dsId' dataLen objIdLen header,
    dsId (init dsId' dataLen objIdLen header) = dsId'
  objIdLen_init : ∀ dsId dataLen objIdLen' header,
    objIdLen (init dsId dataLen objIdLen' header) = objIdLen'
  ptrAddr_init : ∀ dsId dataLen objIdLen header,
    ptrAddr (init dsId dataLen objIdLen header) = ptrAddr header
  isFreed_init : ∀ dsId dataLen objIdLen header,
    isFreed (init dsId dataLen objIdLen header) = isFreed header
  isFreed_free : ∀ header, isFreed (free header) = true

/-- The bytes of the local cache, the pointers and the two region managers. -/
structure Space (Meta : Type) where
  memory : ℕ → BitVec 8
  metas : Slot → Meta
  cache : RegionManager
  farMem : RegionManager

/-- What the two functions call outside the repository.  `initMeta` is
`FarMemPtrMeta::init` for a unique pointer and `deref` is `GenericUniquePtr::deref`
with all that it may do. -/
structure Runtime (Meta : Type) where
  pointer : FarMemPtrMeta Meta
  limits : ObjectLimits
  format : ObjectFormat limits.kHeaderSize
  ops : RegionOps
  localCachePtr : ℕ
  kVanillaPtrDSID : BitVec 8
  initMeta : ℕ → Meta
  deref : Slot → Space Meta → Space Meta

/-- The cores on which the two allocations of a call run, and how often
`allocate_remote_object` may try. -/
structure Schedule where
  core : Fin kNumCPUs
  remoteCore : Fin kNumCPUs
  tries : ℕ

variable {Meta : Type} (runtime : Runtime Meta) (schedule : Schedule)

/-! ## Steps -/

def header (addr : ℕ) (space : Space Meta) : Fin runtime.limits.kHeaderSize → BitVec 8 :=
  window space.memory addr runtime.limits.kHeaderSize

/-- `Object::get_obj_id`: the id follows the data. -/
def getObjId (addr : ℕ) (space : Space Meta) : ℕ :=
  addr + runtime.limits.kHeaderSize +
    (runtime.format.dataLen (header runtime addr space)).toNat

def setHeader (addr : ℕ) (bytes : Fin runtime.limits.kHeaderSize → BitVec 8)
    (space : Space Meta) : Space Meta :=
  { space with memory := place space.memory addr bytes }

/-- `memcpy` into the cache. -/
def memcpy (addr length : ℕ) (source : ℕ → BitVec 8) (space : Space Meta) : Space Meta :=
  { space with memory := place space.memory addr (upTo source length) }

/-- `GenericUniquePtr::init`: the pointer addresses the object and the object
names the pointer. -/
def initPtr (ptr : Slot) (addr : ℕ) (space : Space Meta) : Space Meta :=
  setHeader runtime addr (runtime.format.setPtrAddr ptr (header runtime addr space))
    { space with metas := Function.update space.metas ptr (runtime.initMeta addr) }

/-- The constructor of `Object` that fills in the header and the id. -/
def newObject (addr : ℕ) (dsId : BitVec 8) (dataLen : BitVec 16) (objIdLen : BitVec 8)
    (objId : ℕ → BitVec 8) (space : Space Meta) : Space Meta :=
  memcpy (addr + runtime.limits.kHeaderSize + dataLen.toNat) objIdLen.toNat objId
    (setHeader runtime addr
      (runtime.format.init dsId dataLen objIdLen (header runtime addr space)) space)

/-- `Object::free`. -/
def freeObject (addr : ℕ) (space : Space Meta) : Space Meta :=
  setHeader runtime addr (runtime.format.free (header runtime addr space)) space

/-- `Region::atomic_inc_ref_cnt` on the region of an address. -/
def updateRefCnt (addr : ℕ) (change : ℕ → ℕ) (space : Space Meta) : Space Meta :=
  { space with
    cache := space.cache.updateRefCnt (InFlight.headerOf runtime.localCachePtr addr) change }

/-- `allocate_local_object_nb(false, object_size)`; an object that is allocated
counts as a reference to its region.  `none` is a failed `BUG_ON`. -/
def allocateLocalObjectNb (objectSize : BitVec 16) (space : Space Meta) :
    Option (Option ℕ × Space Meta) :=
  match space.cache.allocateLocalObjectNb runtime.ops schedule.core false objectSize.toNat with
  | none => none
  | some (none, cache) => some (none, { space with cache := cache })
  | some (some addr, cache) =>
      some (some addr, updateRefCnt runtime addr (· + 1) { space with cache := cache })

/-- `allocate_remote_object(false, object_size)`; `none` if it has not returned
after `tries`. -/
def allocateRemoteObject (objectSize : BitVec 16) (space : Space Meta) :
    Option (ℕ × Space Meta) :=
  match RegionManager.allocateRemoteObject runtime.ops schedule.remoteCore false objectSize
      schedule.tries space.farMem with
  | none => none
  | some (addr, farMem) => some (addr, { space with farMem := farMem })

/-- The bytes of a `uint64_t`. -/
def bytesOf (value : ℕ) : ℕ → BitVec 8 :=
  fun offset => BitVec.ofNat 8 (value / 2 ^ (8 * offset))

/-! ## The two functions -/

/-- `allocate_generic_unique_ptr_nb`; `none` where it does not return. -/
def allocateGenericUniquePtrNb (ptr : Slot) (dsId : BitVec 8) (itemSize : BitVec 16)
    (optionalId : Option (BitVec 8 × (ℕ → BitVec 8))) (space : Space Meta) :
    Option (Bool × Space Meta) :=
  if itemSize.toNat ≤ runtime.limits.kMaxObjectDataSize then
    let objectSize := ObjectSize.allocateLocalObject
      (runtime.limits.kHeaderSize + itemSize.toNat +
        ((optionalId.map Prod.fst).getD runtime.limits.kVanillaPtrObjectIDSize).toNat)
    match allocateLocalObjectNb runtime schedule objectSize space with
    | none => none
    | some (none, space) => some (false, space)
    | some (some addr, space) =>
        let space := initPtr runtime ptr addr space
        match optionalId with
        | none =>
            match allocateRemoteObject runtime schedule objectSize space with
            | none => none
            | some (remote, space) =>
                some (true, updateRefCnt runtime addr (· - 1)
                  (newObject runtime addr dsId itemSize 8 (bytesOf remote) space))
        | some (idLen, id) =>
            some (true, updateRefCnt runtime addr (· - 1)
              (newObject runtime addr dsId itemSize idLen id space))
  else none

/-- `reallocate_generic_unique_ptr_nb`.  The id of the old object is copied when
the new header is written. -/
def reallocateGenericUniquePtrNb (ptr : Slot) (newItemSize : BitVec 16)
    (dataBuf : ℕ → BitVec 8) (space : Space Meta) : Option (Bool × Space Meta) :=
  let space := runtime.deref ptr space
  let oldAddr := runtime.pointer.getObjectAddr (space.metas ptr)
  let oldObjIdLen := runtime.format.objIdLen (header runtime oldAddr space)
  let oldObjDsId := runtime.format.dsId (header runtime oldAddr space)
  let newObjSize := ObjectSize.allocateLocalObject
    (runtime.limits.kHeaderSize + newItemSize.toNat + oldObjIdLen.toNat)
  match allocateLocalObjectNb runtime schedule newObjSize space with
  | none => none
  | some (none, space) => some (false, space)
  | some (some addr, space) =>
      let space := initPtr runtime ptr addr
        (memcpy (addr + runtime.limits.kHeaderSize) newItemSize.toNat dataBuf space)
      if oldObjDsId = runtime.kVanillaPtrDSID then
        match allocateRemoteObject runtime schedule newObjSize space with
        | none => none
        | some (remote, space) =>
            if oldObjIdLen = runtime.limits.kVanillaPtrObjectIDSize then
              some (true, updateRefCnt runtime addr (· - 1)
                (freeObject runtime oldAddr
                  (newObject runtime addr oldObjDsId newItemSize
                    runtime.limits.kVanillaPtrObjectIDSize (bytesOf remote) space)))
            else none
      else
        some (true, updateRefCnt runtime addr (· - 1)
          (freeObject runtime oldAddr
            (newObject runtime addr oldObjDsId newItemSize oldObjIdLen
              (fun offset => space.memory (getObjId runtime oldAddr space + offset)) space)))

/-- A call of either function. -/
inductive Request
  | allocate (dsId : BitVec 8) (itemSize : BitVec 16)
      (optionalId : Option (BitVec 8 × (ℕ → BitVec 8)))
  | reallocate (newItemSize : BitVec 16) (dataBuf : ℕ → BitVec 8)

namespace Request

def run (ptr : Slot) (space : Space Meta) : Request → Option (Bool × Space Meta)
  | .allocate dsId itemSize optionalId =>
      allocateGenericUniquePtrNb runtime schedule ptr dsId itemSize optionalId space
  | .reallocate newItemSize dataBuf =>
      reallocateGenericUniquePtrNb runtime schedule ptr newItemSize dataBuf space

/-- Where the call starts, the initial `deref` aside. -/
def base (ptr : Slot) (space : Space Meta) : Request → Space Meta
  | .allocate _ _ _ => space
  | .reallocate _ _ => runtime.deref ptr space

/-- The object that a reallocation replaces. -/
def old (ptr : Slot) (space : Space Meta) : Request → Option ℕ
  | .allocate _ _ _ => none
  | .reallocate _ _ => some (runtime.pointer.getObjectAddr (space.metas ptr))

def itemSize : Request → BitVec 16
  | .allocate _ itemSize _ => itemSize
  | .reallocate newItemSize _ => newItemSize

/-- The bytes that the new object is to hold. -/
def data : Request → Option (ℕ → BitVec 8)
  | .allocate _ _ _ => none
  | .reallocate _ dataBuf => some dataBuf

/-- The old object's ds id is kept. -/
def dsId (ptr : Slot) (space : Space Meta) : Request → BitVec 8
  | .allocate dsId _ _ => dsId
  | .reallocate _ _ =>
      runtime.format.dsId
        (header runtime (runtime.pointer.getObjectAddr (space.metas ptr)) space)

/-- The id that is given or, unless it is a vanilla one, that of the old
object. -/
def keptId (ptr : Slot) (space : Space Meta) : Request → Option (BitVec 8 × (ℕ → BitVec 8))
  | .allocate _ _ optionalId => optionalId
  | .reallocate _ _ =>
      let oldAddr := runtime.pointer.getObjectAddr (space.metas ptr)
      if runtime.format.dsId (header runtime oldAddr space) = runtime.kVanillaPtrDSID then none
      else
        some (runtime.format.objIdLen (header runtime oldAddr space),
          fun offset => space.memory (getObjId runtime oldAddr space + offset))

def idLen (ptr : Slot) (space : Space Meta) : Request → BitVec 8
  | .allocate _ _ optionalId =>
      (optionalId.map Prod.fst).getD runtime.limits.kVanillaPtrObjectIDSize
  | .reallocate _ _ =>
      runtime.format.objIdLen
        (header runtime (runtime.pointer.getObjectAddr (space.metas ptr)) space)

def objectSize (ptr : Slot) (space : Space Meta) (request : Request) : ℕ :=
  runtime.limits.kHeaderSize + request.itemSize.toNat +
    (request.idLen runtime ptr space).toNat

end Request

/-! ## All or nothing -/

/-- The bytes that an allocation on a core may hand out. -/
def freeBytes (core : Fin kNumCPUs) (cache : RegionManager) : Set ℕ :=
  {address | ∃ region ∈ cache.coreLocalFreeRegion core false :: cache.freeRegions,
    region.isInvalid = false ∧
      address ∈ Set.Ico (region.base + max region.firstFreeByteIdx Region.kHeaderSize)
        (region.base + Region.kSize)}

/-- The bytes of the object at an address. -/
def extent (addr : ℕ) (space : Space Meta) : Set ℕ :=
  Set.Ico addr (getObjId runtime addr space +
    (runtime.format.objIdLen (header runtime addr space)).toNat)

/-- No byte of the object is free. -/
def Live (addr : ℕ) (space : Space Meta) : Prop :=
  Disjoint (extent runtime addr space) (freeBytes schedule.core space.cache)

/-- `allocate_object` hands out free bytes, the pointer has room for the address
of any of them, `init` makes it a present one, and a vanilla id is a `uint64_t`. -/
structure Documented : Prop where
  placesFree : ∀ region objectSize addr next,
    runtime.ops.allocateObject region objectSize = some (addr, next) →
      region.base + max region.firstFreeByteIdx Region.kHeaderSize ≤ addr ∧
        addr + objectSize ≤ region.base + Region.kSize
  isPresent_initMeta : ∀ addr, runtime.pointer.isPresent (runtime.initMeta addr) = true
  getObjectAddr_initMeta : ∀ addr, addr < runtime.pointer.addrBound →
    runtime.pointer.getObjectAddr (runtime.initMeta addr) = addr
  kVanillaPtrObjectIDSize : runtime.limits.kVanillaPtrObjectIDSize = 8

/-- What a call asks of the state: the pointer and the addresses of free bytes
fit, and the object that is replaced is a live one. -/
structure Valid (ptr : Slot) (space : Space Meta) (request : Request) : Prop where
  cores : space.cache.HasCores
  ptr_pos : 0 < ptr
  ptr_lt : ptr < runtime.format.slotBound
  addressable : ∀ address ∈ freeBytes schedule.core space.cache,
    address < runtime.pointer.addrBound
  fits : request.objectSize runtime ptr space < 2 ^ 16
  old : ∀ oldAddr ∈ request.old runtime ptr space, Live runtime schedule oldAddr space

/-- The pointers, every byte of the local cache, the remote regions and the
reference counts are as before. -/
structure Unchanged (before after : Space Meta) : Prop where
  metas : after.metas = before.metas
  memory : after.memory = before.memory
  farMem : after.farMem = before.farMem
  refCnt : after.cache.refCnt = before.cache.refCnt

/-- The object is built in bytes that were free, the pointer addresses it, the old
object is freed, and every other live object is as before. -/
structure Built (ptr : Slot) (request : Request) (before after : Space Meta) (addr : ℕ) :
    Prop where
  isPresent : runtime.pointer.isPresent (after.metas ptr) = true
  getObjectAddr : runtime.pointer.getObjectAddr (after.metas ptr) = addr
  fresh : Set.Ico addr (addr + request.objectSize runtime ptr before) ⊆
    freeBytes schedule.core before.cache
  dataLen : runtime.format.dataLen (header runtime addr after) = request.itemSize
  dsId : runtime.format.dsId (header runtime addr after) = request.dsId runtime ptr before
  objIdLen : runtime.format.objIdLen (header runtime addr after) =
    request.idLen runtime ptr before
  ptrAddr : runtime.format.ptrAddr (header runtime addr after) = ptr
  isFreed : runtime.format.isFreed (header runtime addr after) = false
  keptId : ∀ idLen id, request.keptId runtime ptr before = some (idLen, id) →
    window after.memory (getObjId runtime addr after) idLen.toNat = upTo id idLen.toNat ∧
      after.farMem = before.farMem
  remoteId : request.keptId runtime ptr before = none →
    ∃ remote, RegionManager.allocateRemoteObject runtime.ops schedule.remoteCore false
        (ObjectSize.allocateLocalObject (request.objectSize runtime ptr before))
          schedule.tries before.farMem = some (remote, after.farMem) ∧
      window after.memory (getObjId runtime addr after) 8 = upTo (bytesOf remote) 8
  data : ∀ dataBuf ∈ request.data,
    window after.memory (addr + runtime.limits.kHeaderSize) request.itemSize.toNat =
      upTo dataBuf request.itemSize.toNat
  old : ∀ oldAddr ∈ request.old runtime ptr before,
    runtime.format.isFreed (header runtime oldAddr after) = true
  metas : ∀ slot, slot ≠ ptr → after.metas slot = before.metas slot
  others : ∀ other, Live runtime schedule other before →
    (∀ oldAddr ∈ request.old runtime ptr before,
      Disjoint (extent runtime other before) (extent runtime oldAddr before)) →
        Set.EqOn after.memory before.memory (extent runtime other before)
  refCnt : after.cache.refCnt = before.cache.refCnt

variable {runtime schedule} {space next before after : Space Meta} {ptr : Slot}
  {addr oldAddr : ℕ} {request : Request} {objectSize : BitVec 16}

/-! ## The local allocation -/

/-- A failed allocation has retired regions and done nothing else. -/
theorem unchanged_of_allocateLocalObjectNb (hcores : space.cache.HasCores)
    (hallocate : allocateLocalObjectNb runtime schedule objectSize space = some (none, next)) :
    Unchanged space next := by
  rw [allocateLocalObjectNb] at hallocate
  split at hallocate
  · cases hallocate
  · rename_i cache hcache
    cases hallocate
    obtain ⟨refills, hretries⟩ := RegionManager.exists_retriesNb hcache
    exact ⟨rfl, rfl, rfl, funext (hretries.spec hcores).1⟩
  · cases hallocate

/-- A successful one has found free bytes. -/
theorem exists_of_allocateLocalObjectNb (hdocumented : Documented runtime)
    (hcores : space.cache.HasCores)
    (hallocate : allocateLocalObjectNb runtime schedule objectSize space =
      some (some addr, next)) :
    Set.Ico addr (addr + objectSize.toNat) ⊆ freeBytes schedule.core space.cache ∧
      ∃ cache : RegionManager, cache.refCnt = space.cache.refCnt ∧
        next = updateRefCnt runtime addr (· + 1) { space with cache := cache } := by
  rw [allocateLocalObjectNb] at hallocate
  split at hallocate
  · cases hallocate
  · cases hallocate
  · rename_i addr cache hcache
    cases hallocate
    obtain ⟨refills, hretries⟩ := RegionManager.exists_retriesNb hcache
    obtain ⟨hrefCnt, hregion⟩ := hretries.spec hcores
    obtain ⟨region, hmem, allocated, hallocated⟩ := hregion addr rfl
    have hplaced := hdocumented.placesFree _ _ _ _ hallocated
    refine ⟨fun address haddress => ⟨region, hmem, ?_, ?_⟩, cache, funext hrefCnt, rfl⟩
    · exact RegionOps.isInvalid_of_allocateObject hallocated
    · rw [Set.mem_Ico] at haddress ⊢
      omega

/-- The count that the allocation adds is taken back. -/
theorem refCnt_updateRefCnt (manager : RegionManager) (idx : BitVec 32) :
    ((manager.updateRefCnt idx (· + 1)).updateRefCnt idx (· - 1)).refCnt = manager.refCnt := by
  funext other
  by_cases hother : other = idx
  · subst hother
    rw [RegionManager.refCnt_updateRefCnt_self, RegionManager.refCnt_updateRefCnt_self,
      Nat.add_sub_cancel]
  · rw [RegionManager.refCnt_updateRefCnt_of_ne _ hother,
      RegionManager.refCnt_updateRefCnt_of_ne _ hother]

/-! ## Building an object -/

/-- What stands at an address once the header and the id are written. -/
structure ObjectAt (runtime : Runtime Meta) (ptr : Slot) (addr : ℕ) (dsId : BitVec 8)
    (itemSize : BitVec 16) (idLen : BitVec 8) (id : ℕ → BitVec 8) (space : Space Meta) :
    Prop where
  dataLen : runtime.format.dataLen (header runtime addr space) = itemSize
  dsId : runtime.format.dsId (header runtime addr space) = dsId
  objIdLen : runtime.format.objIdLen (header runtime addr space) = idLen
  ptrAddr : runtime.format.ptrAddr (header runtime addr space) = ptr
  isFreed : runtime.format.isFreed (header runtime addr space) = false
  id : window space.memory (addr + runtime.limits.kHeaderSize + itemSize.toNat) idLen.toNat =
    upTo id idLen.toNat

variable {dsId idLen : BitVec 8} {itemSize : BitVec 16} {id : ℕ → BitVec 8}

theorem header_congr
    (hsame : Set.EqOn after.memory before.memory
      (Set.Ico addr (addr + runtime.limits.kHeaderSize))) :
    header runtime addr after = header runtime addr before :=
  window_congr hsame

/-- The object depends on its own bytes. -/
theorem ObjectAt.congr (hobject : ObjectAt runtime ptr addr dsId itemSize idLen id before)
    (hsame : Set.EqOn after.memory before.memory
      (Set.Ico addr (addr + runtime.limits.kHeaderSize + itemSize.toNat + idLen.toNat))) :
    ObjectAt runtime ptr addr dsId itemSize idLen id after := by
  have hheader : header runtime addr after = header runtime addr before :=
    header_congr (hsame.mono (Set.Ico_subset_Ico_right (by omega)))
  have hid : window after.memory (addr + runtime.limits.kHeaderSize + itemSize.toNat)
      idLen.toNat = window before.memory
        (addr + runtime.limits.kHeaderSize + itemSize.toNat) idLen.toNat :=
    window_congr (hsame.mono (Set.Ico_subset_Ico_left (by omega)))
  constructor
  case dataLen => exact hheader ▸ hobject.dataLen
  case dsId => exact hheader ▸ hobject.dsId
  case objIdLen => exact hheader ▸ hobject.objIdLen
  case ptrAddr => exact hheader ▸ hobject.ptrAddr
  case isFreed => exact hheader ▸ hobject.isFreed
  case id => exact hid.trans hobject.id

theorem header_setHeader (bytes : Fin runtime.limits.kHeaderSize → BitVec 8) :
    header runtime addr (setHeader runtime addr bytes space) = bytes :=
  window_place

theorem disjoint_header_id (addr first second count : ℕ) :
    Disjoint (Set.Ico addr (addr + first))
      (Set.Ico (addr + first + second) (addr + first + second + count)) := by
  rw [Set.disjoint_left]
  intro address hheader hid
  rw [Set.mem_Ico] at hheader hid
  omega

/-- The constructor completes the header that `init` has begun. -/
theorem objectAt_newObject (hptr : 0 < ptr) (hbound : ptr < runtime.format.slotBound)
    {bytes : Fin runtime.limits.kHeaderSize → BitVec 8}
    (hheader : header runtime addr space = runtime.format.setPtrAddr ptr bytes) :
    ObjectAt runtime ptr addr dsId itemSize idLen id
      (newObject runtime addr dsId itemSize idLen id space) := by
  have hwritten : header runtime addr (newObject runtime addr dsId itemSize idLen id space) =
      runtime.format.init dsId itemSize idLen (runtime.format.setPtrAddr ptr bytes) := by
    rw [← hheader]
    exact (window_place_of_disjoint (disjoint_header_id _ _ _ _)).trans window_place
  constructor
  case dataLen => rw [hwritten, runtime.format.dataLen_init]
  case dsId => rw [hwritten, runtime.format.dsId_init]
  case objIdLen => rw [hwritten, runtime.format.objIdLen_init]
  case ptrAddr =>
    rw [hwritten, runtime.format.ptrAddr_init,
      runtime.format.ptrAddr_setPtrAddr ptr bytes hptr hbound]
  case isFreed =>
    rw [hwritten, runtime.format.isFreed_init,
      runtime.format.isFreed_setPtrAddr ptr bytes hptr hbound]
  case id => exact window_place

/-- It writes the header and the id. -/
theorem eqOn_newObject :
    Set.EqOn (newObject runtime addr dsId itemSize idLen id space).memory space.memory
      (Set.Ico addr (addr + runtime.limits.kHeaderSize) ∪
        Set.Ico (addr + runtime.limits.kHeaderSize + itemSize.toNat)
          (addr + runtime.limits.kHeaderSize + itemSize.toNat + idLen.toNat))ᶜ :=
  eqOn_compl_trans eqOn_place eqOn_place

/-! ## Outcomes -/

/-- The header of the old object, if there is one. -/
def oldHeader (runtime : Runtime Meta) (ptr : Slot) (before : Space Meta) (request : Request) :
    Set ℕ :=
  {address | ∃ oldAddr ∈ request.old runtime ptr before,
    address ∈ Set.Ico oldAddr (oldAddr + runtime.limits.kHeaderSize)}

theorem header_subset_extent (addr : ℕ) (space : Space Meta) :
    Set.Ico addr (addr + runtime.limits.kHeaderSize) ⊆ extent runtime addr space := by
  apply Set.Ico_subset_Ico_right
  rw [getObjId]
  omega

/-- The id and the remote regions are what a request asks for. -/
structure IdFor (runtime : Runtime Meta) (schedule : Schedule) (ptr : Slot) (request : Request)
    (before : Space Meta) (id : ℕ → BitVec 8) (farMem : RegionManager) : Prop where
  kept : ∀ keptLen keptId, request.keptId runtime ptr before = some (keptLen, keptId) →
    keptLen = request.idLen runtime ptr before ∧
      upTo id keptLen.toNat = upTo keptId keptLen.toNat ∧ farMem = before.farMem
  remote : request.keptId runtime ptr before = none →
    ∃ remote, RegionManager.allocateRemoteObject runtime.ops schedule.remoteCore false
        (ObjectSize.allocateLocalObject (request.objectSize runtime ptr before))
          schedule.tries before.farMem = some (remote, farMem) ∧
      id = bytesOf remote ∧ request.idLen runtime ptr before = 8

/-- An object that is built in free bytes, with only the header of the old one
written besides. -/
theorem built_of (hdocumented : Documented runtime)
    (hvalid : Valid runtime schedule ptr before request)
    (hfresh : Set.Ico addr (addr + request.objectSize runtime ptr before) ⊆
      freeBytes schedule.core before.cache)
    (hmetas : after.metas = Function.update before.metas ptr (runtime.initMeta addr))
    (hobject : ObjectAt runtime ptr addr (request.dsId runtime ptr before) request.itemSize
      (request.idLen runtime ptr before) id after)
    (hframe : Set.EqOn after.memory before.memory
      (Set.Ico addr (addr + request.objectSize runtime ptr before) ∪
        oldHeader runtime ptr before request)ᶜ)
    (hid : IdFor runtime schedule ptr request before id after.farMem)
    (hdata : ∀ dataBuf ∈ request.data,
      window after.memory (addr + runtime.limits.kHeaderSize) request.itemSize.toNat =
        upTo dataBuf request.itemSize.toNat)
    (hold : ∀ oldAddr ∈ request.old runtime ptr before,
      runtime.format.isFreed (header runtime oldAddr after) = true)
    (hrefCnt : after.cache.refCnt = before.cache.refCnt) :
    Built runtime schedule ptr request before after addr := by
  have hpointer : after.metas ptr = runtime.initMeta addr := by
    rw [hmetas, Function.update_self]
  have hobjId : getObjId runtime addr after =
      addr + runtime.limits.kHeaderSize + request.itemSize.toNat := by
    rw [getObjId, hobject.dataLen]
  have haddr : addr < runtime.pointer.addrBound := by
    apply hvalid.addressable
    apply hfresh
    have hpos := runtime.limits.kHeaderSize_pos
    rw [Set.mem_Ico, Request.objectSize]
    omega
  constructor
  case isPresent => rw [hpointer, hdocumented.isPresent_initMeta]
  case getObjectAddr => rw [hpointer, hdocumented.getObjectAddr_initMeta _ haddr]
  case fresh => exact hfresh
  case dataLen => exact hobject.dataLen
  case dsId => exact hobject.dsId
  case objIdLen => exact hobject.objIdLen
  case ptrAddr => exact hobject.ptrAddr
  case isFreed => exact hobject.isFreed
  case keptId =>
    intro keptLen keptId hsome
    obtain ⟨hlen, hsame, hfarMem⟩ := hid.kept keptLen keptId hsome
    rw [hobjId, ← hsame, hlen]
    exact ⟨hobject.id, hfarMem⟩
  case remoteId =>
    intro hnone
    obtain ⟨remote, hallocate, hbytes, hlen⟩ := hid.remote hnone
    have hwritten := hobject.id
    rw [hbytes, hlen] at hwritten
    exact ⟨remote, hallocate, hobjId ▸ hwritten⟩
  case data => exact hdata
  case old => exact hold
  case metas =>
    intro slot hslot
    rw [hmetas, Function.update_of_ne hslot]
  case others =>
    intro other hlive hapart
    apply hframe.mono
    intro address haddress hwritten
    rcases hwritten with hnew | ⟨oldAddr, hmem, hheader⟩
    · exact Set.disjoint_left.mp hlive haddress (hfresh hnew)
    · exact Set.disjoint_left.mp (hapart oldAddr hmem) haddress
        (header_subset_extent oldAddr before hheader)
  case refCnt => exact hrefCnt

theorem eqOn_initPtr :
    Set.EqOn (initPtr runtime ptr addr space).memory space.memory
      (Set.Ico addr (addr + runtime.limits.kHeaderSize))ᶜ :=
  eqOn_place

/-- `init` and the constructor write the header and the id. -/
theorem eqOn_newObject_initPtr {middle : Space Meta}
    (hmemory : middle.memory = (initPtr runtime ptr addr space).memory) :
    Set.EqOn (newObject runtime addr dsId itemSize idLen id middle).memory space.memory
      (Set.Ico addr (addr + runtime.limits.kHeaderSize) ∪
        Set.Ico (addr + runtime.limits.kHeaderSize + itemSize.toNat)
          (addr + runtime.limits.kHeaderSize + itemSize.toNat + idLen.toNat))ᶜ := by
  have hinit : Set.EqOn middle.memory space.memory
      (Set.Ico addr (addr + runtime.limits.kHeaderSize))ᶜ := by
    rw [hmemory]
    exact eqOn_initPtr
  apply (eqOn_compl_trans hinit eqOn_newObject).mono
  rw [← Set.union_assoc, Set.union_self]

/-- The header and the id are bytes of the object. -/
theorem header_union_id_subset :
    Set.Ico addr (addr + runtime.limits.kHeaderSize) ∪
        Set.Ico (addr + runtime.limits.kHeaderSize + itemSize.toNat)
          (addr + runtime.limits.kHeaderSize + itemSize.toNat + idLen.toNat) ⊆
      Set.Ico addr (addr + (runtime.limits.kHeaderSize + itemSize.toNat + idLen.toNat)) := by
  intro address haddress
  simp only [Set.mem_union, Set.mem_Ico] at haddress ⊢
  omega

theorem objectAt_of_initPtr {middle : Space Meta} (hptr : 0 < ptr)
    (hbound : ptr < runtime.format.slotBound)
    (hmemory : middle.memory = (initPtr runtime ptr addr space).memory) :
    ObjectAt runtime ptr addr dsId itemSize idLen id
      (newObject runtime addr dsId itemSize idLen id middle) := by
  apply objectAt_newObject hptr hbound
  calc header runtime addr middle
      = header runtime addr (initPtr runtime ptr addr space) := by rw [header, hmemory]; rfl
    _ = runtime.format.setPtrAddr ptr (header runtime addr space) := header_setHeader _

/-- The size of a valid request survives its narrowing, and what is allocated for
it was free. -/
theorem Valid.exists_of_allocateLocalObjectNb (hdocumented : Documented runtime)
    (hvalid : Valid runtime schedule ptr space request)
    (hallocate : allocateLocalObjectNb runtime schedule
      (ObjectSize.allocateLocalObject (request.objectSize runtime ptr space)) space =
        some (some addr, next)) :
    Set.Ico addr (addr + request.objectSize runtime ptr space) ⊆
        freeBytes schedule.core space.cache ∧
      ∃ cache : RegionManager,
        (updateRefCnt runtime addr (· - 1) (updateRefCnt runtime addr (· + 1)
          { space with cache := cache })).cache.refCnt = space.cache.refCnt ∧
        next = updateRefCnt runtime addr (· + 1) { space with cache := cache } := by
  have hsize : (ObjectSize.allocateLocalObject (request.objectSize runtime ptr space)).toNat =
      request.objectSize runtime ptr space := by
    rw [ObjectSize.allocateLocalObject, BitVec.toNat_ofNat, Nat.mod_eq_of_lt hvalid.fits]
  obtain ⟨hfresh, cache, hcache, hnext⟩ :=
    NonBlocking.exists_of_allocateLocalObjectNb hdocumented hvalid.cores hallocate
  exact ⟨hsize ▸ hfresh, cache, (refCnt_updateRefCnt cache _).trans hcache, hnext⟩

theorem exists_of_allocateRemoteObject
    (hallocate : allocateRemoteObject runtime schedule objectSize space = some (addr, next)) :
    ∃ farMem, RegionManager.allocateRemoteObject runtime.ops schedule.remoteCore false objectSize
        schedule.tries space.farMem = some (addr, farMem) ∧
      next = { space with farMem := farMem } := by
  rw [allocateRemoteObject] at hallocate
  split at hallocate
  · cases hallocate
  · rename_i farMem hfarMem
    cases hallocate
    exact ⟨farMem, hfarMem, rfl⟩

section Allocate

variable {optionalId : Option (BitVec 8 × (ℕ → BitVec 8))}

/-- The last steps of an allocation, whichever id it writes. -/
theorem built_allocate_of {middle : Space Meta} (hdocumented : Documented runtime)
    (hvalid : Valid runtime schedule ptr before (.allocate dsId itemSize optionalId))
    (hidLen : idLen = Request.idLen runtime ptr before (.allocate dsId itemSize optionalId))
    (hfresh : Set.Ico addr (addr + Request.objectSize runtime ptr before
      (.allocate dsId itemSize optionalId)) ⊆ freeBytes schedule.core before.cache)
    (hmemory : middle.memory = (initPtr runtime ptr addr before).memory)
    (hmetas : middle.metas = Function.update before.metas ptr (runtime.initMeta addr))
    (hrefCnt : (updateRefCnt runtime addr (· - 1) middle).cache.refCnt = before.cache.refCnt)
    (hid : IdFor runtime schedule ptr (.allocate dsId itemSize optionalId) before id
      middle.farMem) :
    Built runtime schedule ptr (.allocate dsId itemSize optionalId) before
      (updateRefCnt runtime addr (· - 1)
        (newObject runtime addr dsId itemSize idLen id middle)) addr := by
  have hobject : ObjectAt runtime ptr addr dsId itemSize idLen id
      (newObject runtime addr dsId itemSize idLen id middle) :=
    objectAt_of_initPtr hvalid.ptr_pos hvalid.ptr_lt hmemory
  subst hidLen
  apply built_of hdocumented hvalid hfresh
  case hmetas => exact hmetas
  case hobject => exact hobject.congr fun _ _ => rfl
  case hframe =>
    apply (eqOn_newObject_initPtr hmemory).mono
    apply Set.compl_subset_compl.mpr
    exact header_union_id_subset.trans Set.subset_union_left
  case hid => exact hid
  case hdata => exact fun _ hnone => absurd hnone (Option.not_mem_none _)
  case hold => exact fun _ hnone => absurd hnone (Option.not_mem_none _)
  case hrefCnt => exact hrefCnt

theorem built_allocate (hdocumented : Documented runtime)
    (hvalid : Valid runtime schedule ptr space (.allocate dsId itemSize optionalId))
    (hrun : allocateGenericUniquePtrNb runtime schedule ptr dsId itemSize optionalId space =
      some (true, next)) :
    ∃ addr, Built runtime schedule ptr (.allocate dsId itemSize optionalId) space next
      addr := by
  rw [allocateGenericUniquePtrNb, Option.ite_none_right_eq_some] at hrun
  replace hrun := hrun.2
  dsimp only at hrun
  generalize hallocate : allocateLocalObjectNb runtime schedule _ space = outcome at hrun
  rcases outcome with _ | ⟨_ | addr, started⟩
  · cases hrun
  · cases hrun
  · dsimp only at hrun
    obtain ⟨hfresh, cache, hrefCnt, rfl⟩ :=
      hvalid.exists_of_allocateLocalObjectNb hdocumented hallocate
    refine ⟨addr, ?_⟩
    cases optionalId with
    | none =>
      generalize hremote : allocateRemoteObject runtime schedule _ _ = outcome at hrun
      rcases outcome with _ | ⟨remote, filled⟩
      · cases hrun
      · obtain ⟨farMem, hfarMem, rfl⟩ := exists_of_allocateRemoteObject hremote
        cases hrun
        have hid : IdFor runtime schedule ptr (.allocate dsId itemSize none) space
            (bytesOf remote) farMem := by
          constructor
          case kept => exact fun _ _ hsome => absurd hsome.symm (Option.some_ne_none _)
          case remote =>
            exact fun _ => ⟨remote, hfarMem, rfl, hdocumented.kVanillaPtrObjectIDSize⟩
        exact built_allocate_of hdocumented hvalid hdocumented.kVanillaPtrObjectIDSize.symm
          hfresh rfl rfl hrefCnt hid
    | some given =>
      obtain ⟨idLen, id⟩ := given
      cases hrun
      apply built_allocate_of hdocumented hvalid
      case hidLen => rfl
      case hfresh => exact hfresh
      case hmemory => rfl
      case hmetas => rfl
      case hrefCnt => exact hrefCnt
      case hid =>
        constructor
        case kept =>
          intro keptLen keptId hsome
          cases hsome
          exact ⟨rfl, rfl, rfl⟩
        case remote => exact fun hnone => absurd hnone (Option.some_ne_none _)

end Allocate

section Reallocate

variable {newItemSize : BitVec 16} {dataBuf : ℕ → BitVec 8}

/-- The copy and `init` write inside the header and the data. -/
theorem eqOn_initPtr_memcpy :
    Set.EqOn
      (initPtr runtime ptr addr
        (memcpy (addr + runtime.limits.kHeaderSize) newItemSize.toNat dataBuf space)).memory
      space.memory (Set.Ico addr (addr + (runtime.limits.kHeaderSize + newItemSize.toNat)))ᶜ := by
  apply (eqOn_compl_trans eqOn_place eqOn_place).mono
  apply Set.compl_subset_compl.mpr
  intro address haddress
  simp only [Set.mem_union, Set.mem_Ico] at haddress ⊢
  omega

/-- All steps that build the new object write inside its bytes. -/
theorem eqOn_newObject_memcpy {middle : Space Meta}
    (hmemory : middle.memory = (initPtr runtime ptr addr
      (memcpy (addr + runtime.limits.kHeaderSize) newItemSize.toNat dataBuf space)).memory) :
    Set.EqOn (newObject runtime addr dsId newItemSize idLen id middle).memory space.memory
      (Set.Ico addr
        (addr + (runtime.limits.kHeaderSize + newItemSize.toNat + idLen.toNat)))ᶜ := by
  have hstarted : Set.EqOn middle.memory space.memory
      (Set.Ico addr (addr + (runtime.limits.kHeaderSize + newItemSize.toNat)))ᶜ := by
    rw [hmemory]
    exact eqOn_initPtr_memcpy
  apply (eqOn_compl_trans hstarted eqOn_newObject).mono
  apply Set.compl_subset_compl.mpr
  apply Set.union_subset _ header_union_id_subset
  exact Set.Ico_subset_Ico_right (by omega)

/-- The header and the id leave the copied data alone. -/
theorem window_data {middle : Space Meta}
    (hmemory : middle.memory = (initPtr runtime ptr addr
      (memcpy (addr + runtime.limits.kHeaderSize) newItemSize.toNat dataBuf space)).memory) :
    window (newObject runtime addr dsId newItemSize idLen id middle).memory
        (addr + runtime.limits.kHeaderSize) newItemSize.toNat =
      upTo dataBuf newItemSize.toNat := by
  calc window (newObject runtime addr dsId newItemSize idLen id middle).memory
        (addr + runtime.limits.kHeaderSize) newItemSize.toNat
      = window (memcpy (addr + runtime.limits.kHeaderSize) newItemSize.toNat dataBuf space).memory
          (addr + runtime.limits.kHeaderSize) newItemSize.toNat := by
        apply window_congr
        apply (eqOn_newObject_initPtr hmemory).mono
        intro address haddress
        simp only [Set.mem_compl_iff, Set.mem_union, Set.mem_Ico] at haddress ⊢
        omega
    _ = upTo dataBuf newItemSize.toNat := window_place

/-- The id of an object whose bytes are as before. -/
theorem window_getObjId_congr
    (hsame : Set.EqOn after.memory before.memory (extent runtime oldAddr before)) :
    window after.memory (getObjId runtime oldAddr after)
        (runtime.format.objIdLen (header runtime oldAddr before)).toNat =
      window before.memory (getObjId runtime oldAddr before)
        (runtime.format.objIdLen (header runtime oldAddr before)).toNat := by
  have hheader : header runtime oldAddr after = header runtime oldAddr before :=
    header_congr (hsame.mono (header_subset_extent oldAddr before))
  have hobjId : getObjId runtime oldAddr after = getObjId runtime oldAddr before := by
    rw [getObjId, getObjId, hheader]
  rw [hobjId]
  apply window_congr
  apply hsame.mono
  apply Set.Ico_subset_Ico_left
  rw [getObjId]
  omega

/-- The old object is outside the free bytes, so also outside the new one. -/
theorem Valid.disjoint_old
    (hvalid : Valid runtime schedule ptr before (.reallocate newItemSize dataBuf))
    (hfresh : Set.Ico addr (addr + Request.objectSize runtime ptr before
      (.reallocate newItemSize dataBuf)) ⊆ freeBytes schedule.core before.cache) :
    Disjoint
      (extent runtime (runtime.pointer.getObjectAddr (before.metas ptr)) before)
      (Set.Ico addr (addr + Request.objectSize runtime ptr before
        (.reallocate newItemSize dataBuf))) :=
  (hvalid.old _ rfl).mono_right hfresh

/-- The last steps of a reallocation, whichever id it writes. -/
theorem built_reallocate_of {middle : Space Meta} (hdocumented : Documented runtime)
    (hvalid : Valid runtime schedule ptr before (.reallocate newItemSize dataBuf))
    (hold : oldAddr = runtime.pointer.getObjectAddr (before.metas ptr))
    (hidLen : idLen = runtime.format.objIdLen (header runtime oldAddr before))
    (hfresh : Set.Ico addr (addr + Request.objectSize runtime ptr before
      (.reallocate newItemSize dataBuf)) ⊆ freeBytes schedule.core before.cache)
    (hmemory : middle.memory = (initPtr runtime ptr addr
      (memcpy (addr + runtime.limits.kHeaderSize) newItemSize.toNat dataBuf before)).memory)
    (hmetas : middle.metas = Function.update before.metas ptr (runtime.initMeta addr))
    (hrefCnt : (updateRefCnt runtime addr (· - 1) middle).cache.refCnt = before.cache.refCnt)
    (hid : IdFor runtime schedule ptr (.reallocate newItemSize dataBuf) before id
      middle.farMem) :
    Built runtime schedule ptr (.reallocate newItemSize dataBuf) before
      (updateRefCnt runtime addr (· - 1)
        (freeObject runtime oldAddr
          (newObject runtime addr (runtime.format.dsId (header runtime oldAddr before))
            newItemSize idLen id middle))) addr := by
  subst hold
  subst hidLen
  set oldAddr := runtime.pointer.getObjectAddr (before.metas ptr)
  set oldDsId := runtime.format.dsId (header runtime oldAddr before)
  set idLen := runtime.format.objIdLen (header runtime oldAddr before)
  set built := newObject runtime addr oldDsId newItemSize idLen id middle
  have hdisjoint : Disjoint (Set.Ico oldAddr (oldAddr + runtime.limits.kHeaderSize))
      (Set.Ico addr (addr + (runtime.limits.kHeaderSize + newItemSize.toNat + idLen.toNat))) :=
    (hvalid.disjoint_old hfresh).mono_left (header_subset_extent oldAddr before)
  have hfreed : Set.EqOn (freeObject runtime oldAddr built).memory built.memory
      (Set.Ico oldAddr (oldAddr + runtime.limits.kHeaderSize))ᶜ :=
    eqOn_place
  have hkeeps : Set.EqOn (freeObject runtime oldAddr built).memory built.memory
      (Set.Ico addr (addr + (runtime.limits.kHeaderSize + newItemSize.toNat + idLen.toNat))) :=
    hfreed.mono hdisjoint.subset_compl_left
  have hobject : ObjectAt runtime ptr addr oldDsId newItemSize idLen id built :=
    objectAt_of_initPtr hvalid.ptr_pos hvalid.ptr_lt hmemory
  apply built_of hdocumented hvalid hfresh
  case hmetas => exact hmetas
  case hobject =>
    apply hobject.congr
    apply hkeeps.mono
    exact Set.Ico_subset_Ico_right (by omega)
  case hframe =>
    apply (eqOn_compl_trans (eqOn_newObject_memcpy hmemory) hfreed).mono
    apply Set.compl_subset_compl.mpr
    apply Set.union_subset_union_right
    exact fun address haddress => ⟨oldAddr, rfl, haddress⟩
  case hid => exact hid
  case hdata =>
    intro _ hsome
    cases hsome
    calc window (freeObject runtime oldAddr built).memory (addr + runtime.limits.kHeaderSize)
          newItemSize.toNat
        = window built.memory (addr + runtime.limits.kHeaderSize) newItemSize.toNat := by
          apply window_congr
          apply hkeeps.mono
          intro address haddress
          rw [Set.mem_Ico] at haddress ⊢
          omega
      _ = upTo dataBuf newItemSize.toNat := window_data hmemory
  case hold =>
    intro _ hsome
    cases hsome
    calc runtime.format.isFreed (header runtime oldAddr (freeObject runtime oldAddr built))
        = runtime.format.isFreed (runtime.format.free (header runtime oldAddr built)) := by
          rw [freeObject, header_setHeader]
      _ = true := runtime.format.isFreed_free _
  case hrefCnt => exact hrefCnt

theorem built_reallocate (hdocumented : Documented runtime)
    (hvalid : Valid runtime schedule ptr (runtime.deref ptr space)
      (.reallocate newItemSize dataBuf))
    (hrun : reallocateGenericUniquePtrNb runtime schedule ptr newItemSize dataBuf space =
      some (true, next)) :
    ∃ addr, Built runtime schedule ptr (.reallocate newItemSize dataBuf)
      (runtime.deref ptr space) next addr := by
  rw [reallocateGenericUniquePtrNb] at hrun
  dsimp only at hrun
  generalize runtime.deref ptr space = before at hvalid hrun ⊢
  generalize hallocate : allocateLocalObjectNb runtime schedule _ before = outcome at hrun
  rcases outcome with _ | ⟨_ | addr, started⟩
  · cases hrun
  · cases hrun
  · dsimp only at hrun
    obtain ⟨hfresh, cache, hrefCnt, rfl⟩ :=
      hvalid.exists_of_allocateLocalObjectNb hdocumented hallocate
    refine ⟨addr, ?_⟩
    split at hrun
    case isTrue hvanilla =>
      have hnone : Request.keptId runtime ptr before (.reallocate newItemSize dataBuf) = none :=
        if_pos hvanilla
      generalize hremote : allocateRemoteObject runtime schedule _ _ = outcome at hrun
      rcases outcome with _ | ⟨remote, filled⟩
      · cases hrun
      · dsimp only at hrun
        obtain ⟨farMem, hfarMem, rfl⟩ := exists_of_allocateRemoteObject hremote
        rw [Option.ite_none_right_eq_some] at hrun
        obtain ⟨hidLen, hnext⟩ := hrun
        cases hnext
        apply built_reallocate_of hdocumented hvalid
        case hold => rfl
        case hidLen => exact hidLen.symm
        case hfresh => exact hfresh
        case hmemory => rfl
        case hmetas => rfl
        case hrefCnt => exact hrefCnt
        case hid =>
          constructor
          case kept => exact fun _ _ hsome => absurd (hnone.symm.trans hsome) (by simp)
          case remote =>
            exact fun _ => ⟨remote, hfarMem, rfl,
              hidLen.trans hdocumented.kVanillaPtrObjectIDSize⟩
    case isFalse hother =>
      cases hrun
      apply built_reallocate_of hdocumented hvalid
      case hold => rfl
      case hidLen => rfl
      case hfresh => exact hfresh
      case hmemory => rfl
      case hmetas => rfl
      case hrefCnt => exact hrefCnt
      case hid =>
        constructor
        case kept =>
          intro keptLen keptId hsome
          cases (if_neg hother).symm.trans hsome
          refine ⟨rfl, ?_, rfl⟩
          apply window_getObjId_congr
          apply eqOn_initPtr_memcpy.mono
          apply (hvalid.disjoint_old hfresh).subset_compl_right.trans
          apply Set.compl_subset_compl.mpr
          apply Set.Ico_subset_Ico_right
          rw [Request.objectSize, Request.itemSize]
          omega
        case remote => exact fun hnone => absurd ((if_neg hother).symm.trans hnone) (by simp)

end Reallocate

/-- Past the local allocation neither function reports a failure. -/
theorem allocateLocalObjectNb_of_run
    (hrun : request.run runtime schedule ptr space = some (false, next)) :
    allocateLocalObjectNb runtime schedule
      (ObjectSize.allocateLocalObject
        (request.objectSize runtime ptr (request.base runtime ptr space)))
      (request.base runtime ptr space) = some (none, next) := by
  cases request with
  | allocate dsId itemSize optionalId =>
    rw [Request.run, allocateGenericUniquePtrNb, Option.ite_none_right_eq_some] at hrun
    replace hrun := hrun.2
    dsimp only at hrun
    generalize hallocate : allocateLocalObjectNb runtime schedule _ space = outcome at hrun
    rcases outcome with _ | ⟨_ | addr, started⟩
    · cases hrun
    · cases hrun
      exact hallocate
    · dsimp only at hrun
      split at hrun
      · split at hrun <;> cases hrun
      · cases hrun
  | reallocate newItemSize dataBuf =>
    rw [Request.run, reallocateGenericUniquePtrNb] at hrun
    rw [Request.base]
    dsimp only at hrun
    generalize runtime.deref ptr space = before at hrun ⊢
    generalize hallocate : allocateLocalObjectNb runtime schedule _ before = outcome at hrun
    rcases outcome with _ | ⟨_ | addr, started⟩
    · cases hrun
    · cases hrun
      exact hallocate
    · dsimp only at hrun
      split at hrun
      · split at hrun
        · cases hrun
        · split at hrun <;> cases hrun
      · cases hrun

/-- Non-blocking allocation is all or nothing: on failure nothing but the list of
free regions has changed, on success the object stands complete and its pointer
with it. -/
theorem allOrNothing {success : Bool} (hdocumented : Documented runtime)
    (hvalid : Valid runtime schedule ptr (request.base runtime ptr space) request)
    (hrun : request.run runtime schedule ptr space = some (success, next)) :
    (success = false → Unchanged (request.base runtime ptr space) next) ∧
      (success = true →
        ∃ addr, Built runtime schedule ptr request (request.base runtime ptr space) next
          addr) := by
  constructor
  · rintro rfl
    exact unchanged_of_allocateLocalObjectNb hvalid.cores (allocateLocalObjectNb_of_run hrun)
  · rintro rfl
    cases request with
    | allocate dsId itemSize optionalId => exact built_allocate hdocumented hvalid hrun
    | reallocate newItemSize dataBuf => exact built_reallocate hdocumented hvalid hrun

/-! ## One format -/

/-- The address in the first six bytes. -/
def sixteenBytePtrAddr (header : Fin 16 → BitVec 8) : ℕ :=
  (header 0).toNat + 2 ^ 8 * (header 1).toNat + 2 ^ 16 * (header 2).toNat +
    2 ^ 24 * (header 3).toNat + 2 ^ 32 * (header 4).toNat + 2 ^ 40 * (header 5).toNat

/-- The header with these first six bytes. -/
def withPtrAddr (slot : Slot) (header : Fin 16 → BitVec 8) : Fin 16 → BitVec 8 :=
  fun offset => if offset.val < 6 then bytesOf slot offset else header offset

theorem sixteenBytePtrAddr_withPtrAddr {slot : ℕ} (header : Fin 16 → BitVec 8)
    (hslot : slot < 2 ^ 48) : sixteenBytePtrAddr (withPtrAddr slot header) = slot := by
  simp [sixteenBytePtrAddr, withPtrAddr, bytesOf]
  omega

/-- A pointer, a length, a ds id and an id length in 16 bytes; an object without
a pointer is a freed one. -/
def sixteenByteFormat : ObjectFormat 16 where
  dataLen header := BitVec.ofNat 16 ((header 6).toNat + 2 ^ 8 * (header 7).toNat)
  dsId header := header 8
  objIdLen header := header 9
  ptrAddr := sixteenBytePtrAddr
  isFreed header := sixteenBytePtrAddr header == 0
  setPtrAddr := withPtrAddr
  init dsId dataLen objIdLen header :=
    Function.update (Function.update (Function.update (Function.update header
      6 (bytesOf dataLen.toNat 0)) 7 (bytesOf dataLen.toNat 1)) 8 dsId) 9 objIdLen
  free := withPtrAddr 0
  slotBound := 2 ^ 48
  ptrAddr_setPtrAddr _ header _ hbound := sixteenBytePtrAddr_withPtrAddr header hbound
  isFreed_setPtrAddr slot header hpos hbound := by
    rw [sixteenBytePtrAddr_withPtrAddr header hbound]
    exact beq_false_of_ne hpos.ne'
  dataLen_init := by
    intro dsId dataLen objIdLen header
    apply BitVec.eq_of_toNat_eq
    have hlt := dataLen.isLt
    simp [Function.update, bytesOf]
    omega
  dsId_init := by simp [Function.update]
  objIdLen_init := by simp [Function.update]
  ptrAddr_init := by simp [sixteenBytePtrAddr, Function.update]
  isFreed_init := by simp [sixteenBytePtrAddr, Function.update]
  isFreed_free header := by
    rw [sixteenBytePtrAddr_withPtrAddr header (by decide)]
    rfl

/-- Objects follow each other and `deref` finds the object local. -/
def sixteenByteRuntime : Runtime ℕ where
  pointer := .pointerHpp 16
  limits := ObjectSize.sixteenByteHeader
  format := sixteenByteFormat
  ops := .aligned
  localCachePtr := 0
  kVanillaPtrDSID := 0
  initMeta := (FarMemPtrMeta.pointerHpp 16).setPresent 0
  deref _ space := space

theorem documented_sixteenByteRuntime : Documented sixteenByteRuntime where
  placesFree := by
    intro region objectSize addr next hallocate
    obtain ⟨hhold, hplaced⟩ := Option.ite_none_right_eq_some.mp hallocate
    cases hplaced
    have hfits := hhold.add_le
    omega
  isPresent_initMeta := (FarMemPtrMeta.pointerHpp 16).isPresent_setPresent 0
  getObjectAddr_initMeta := (FarMemPtrMeta.pointerHpp 16).getObjectAddr_setPresent 0
  kVanillaPtrObjectIDSize := rfl

/-- Pointer 5 addresses a vanilla object of 60 bytes at 32, in the region that is
full; one remote region is free. -/
def oneVanillaObject : Space ℕ where
  memory := place (fun _ => 0) 32 (sixteenByteFormat.init 0 60 8 (withPtrAddr 5 fun _ => 0))
  metas _ := sixteenByteRuntime.initMeta 32
  cache := RegionManager.partlyFull
  farMem :=
    { RegionManager.partlyFull with
      coreLocalFreeRegions := List.replicate kNumCPUs Region.invalid
      freeRegions := [⟨3, none, Region.kHeaderSize⟩] }

theorem bounds_of_mem_freeBytes {address : ℕ}
    (hfree : address ∈ freeBytes 0 oneVanillaObject.cache) :
    1024 ≤ address ∧ address < 3072 := by
  obtain ⟨region, hmem, -, hrange⟩ := hfree
  have hregions : ∀ region ∈ oneVanillaObject.cache.coreLocalFreeRegion 0 false ::
        oneVanillaObject.cache.freeRegions,
      1024 ≤ region.base + max region.firstFreeByteIdx Region.kHeaderSize ∧
        region.base + Region.kSize ≤ 3072 := by decide
  exact ⟨(hregions region hmem).1.trans hrange.1, hrange.2.trans_le (hregions region hmem).2⟩

/-- A reallocation to 100 bytes. -/
def hundredBytes : Request :=
  .reallocate 100 (BitVec.ofNat 8)

theorem valid_hundredBytes :
    Valid sixteenByteRuntime ⟨0, 0, 8⟩ 5 oneVanillaObject hundredBytes where
  cores := ⟨by decide, by decide⟩
  ptr_pos := by decide
  ptr_lt := by decide
  addressable address hfree := (bounds_of_mem_freeBytes hfree).2.trans (by decide)
  fits := by decide +kernel
  old := by
    intro oldAddr hold
    cases hold
    apply Set.disjoint_left.mpr
    intro address haddress hfree
    have hend : address < 116 := haddress.2.trans_eq (by decide +kernel)
    exact absurd (bounds_of_mem_freeBytes hfree).1 (by omega)

theorem allOrNothing_hundredBytes :
    ∃ next, hundredBytes.run sixteenByteRuntime ⟨0, 0, 8⟩ 5 oneVanillaObject =
        some (true, next) ∧
      (true = false → Unchanged oneVanillaObject next) ∧
      (true = true → ∃ addr, Built sixteenByteRuntime ⟨0, 0, 8⟩ 5 hundredBytes
        oneVanillaObject next addr) := by
  have hrun : (hundredBytes.run sixteenByteRuntime ⟨0, 0, 8⟩ 5 oneVanillaObject).map Prod.fst =
      some true := rfl
  obtain ⟨⟨success, next⟩, hnext, hsuccess⟩ := Option.map_eq_some_iff.mp hrun
  cases hsuccess
  exact ⟨next, hnext, allOrNothing documented_sixteenByteRuntime valid_hundredBytes hnext⟩

end DynamicSwap.NonBlocking
