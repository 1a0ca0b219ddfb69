import DynamicSwap.Allocation.NonBlocking
import DynamicSwap.Swap.SwapOut

/-!
# Swapping on bytes

`swap_in` and `swap_out` on the bytes of the local cache: a header, the data and
the id behind it.  `swap_in` builds an object with an id of eight bytes in the
space of the size that the pointer's word holds, so what it writes stays inside
that space exactly when this size covers the header, what the device returns
and the eight bytes.
-/

namespace DynamicSwap.ByteLevel

open Library.ByteMemory
open NonBlocking (ObjectFormat bytesOf)
open SwapIn (aliasesOf)
open SwapOut (flagsOf)

variable {Meta : Type}

abbrev Memory : Type := ℕ → BitVec 8

/-- The bytes of the local cache with the pointers, the device and the reference
counts. -/
structure Cache (Meta : Type) where
  memory : Memory
  metas : Slot → Meta
  device : ℕ → ℕ → List (BitVec 8)
  refCnt : ℕ → ℤ

namespace Cache

/-- Everything but the bytes. -/
def plain (cache : Cache Meta) : Heap Meta where
  metas := cache.metas
  objects _ := none
  device := cache.device
  refCnt := cache.refCnt

/-- An operation on everything but the bytes. -/
def onPlain (cache : Cache Meta) (update : Heap Meta → Heap Meta) : Cache Meta where
  memory := cache.memory
  metas := (update cache.plain).metas
  device := (update cache.plain).device
  refCnt := (update cache.plain).refCnt

def setMemory (cache : Cache Meta) (memory : Memory) : Cache Meta :=
  { cache with memory := memory }

end Cache

/-- What data structures register by ds id, on bytes.  A copy notifier gets the
addresses of the destination and the source object. -/
structure ByteNotifiers (Meta : Type) where
  copy : ℕ → Option (ℕ → ℕ → Memory → Memory)
  evac : ℕ → Option ((ℕ → Cache Meta → Cache Meta) → ℕ → Cache Meta → Cache Meta × Bool)

/-! ## Objects in memory -/

section Objects

variable {kHeaderSize : ℕ} (format : ObjectFormat kHeaderSize)

/-- `Object::get_data_len`. -/
def dataLen (memory : Memory) (addr : ℕ) : ℕ :=
  (format.dataLen (window memory addr kHeaderSize)).toNat

def dsId (memory : Memory) (addr : ℕ) : ℕ :=
  (format.dsId (window memory addr kHeaderSize)).toNat

def objIdLen (memory : Memory) (addr : ℕ) : ℕ :=
  (format.objIdLen (window memory addr kHeaderSize)).toNat

/-- `Object::get_obj_id`: the id follows the data. -/
def objIdAddr (memory : Memory) (addr : ℕ) : ℕ :=
  addr + kHeaderSize + dataLen format memory addr

/-- The `uint64_t` read at `get_obj_id()`. -/
def objId (memory : Memory) (addr : ℕ) : ℕ :=
  littleEndian (fun offset => memory (objIdAddr format memory addr + offset)) 8

/-- The bytes at `get_data_addr()`. -/
def dataOf (memory : Memory) (addr : ℕ) : List (BitVec 8) :=
  load memory (addr + kHeaderSize) (dataLen format memory addr)

/-- `Object::size`. -/
def size (memory : Memory) (addr : ℕ) : ℕ :=
  kHeaderSize + dataLen format memory addr + objIdLen format memory addr

/-- The object that the bytes at an address spell. -/
def objectAt (memory : Memory) (addr : ℕ) : Object where
  ptrAddr := format.ptrAddr (window memory addr kHeaderSize)
  dsId := dsId format memory addr
  objId := objId format memory addr
  objIdLen := objIdLen format memory addr
  data := dataOf format memory addr
  freed := format.isFreed (window memory addr kHeaderSize)

/-- What `swap_in` writes: `read_object` fills in the data and `Object::init` the
header and the id; the header names the pointer. -/
def writeObject (memory : Memory) (ptr : Slot) (addr dsId objId : ℕ)
    (data : List (BitVec 8)) : Memory :=
  let filled := store memory (addr + kHeaderSize) data
  let header := format.init (BitVec.ofNat 8 dsId) (BitVec.ofNat 16 data.length) 8
    (format.setPtrAddr ptr (window filled addr kHeaderSize))
  place (place filled addr header) (addr + kHeaderSize + data.length)
    (upTo (bytesOf objId) 8)

variable {format} {memory after : Memory} {addr : ℕ}

theorem length_dataOf : (dataOf format memory addr).length = dataLen format memory addr :=
  length_load

theorem size_objectAt : (objectAt format memory addr).size kHeaderSize =
    size format memory addr := by
  rw [Object.size, objectAt, length_dataOf, size]

/-- An object with an id of eight bytes is spelled by its own bytes alone,
wherever they are. -/
theorem objectAt_of_eq {target : ℕ} (hlen : objIdLen format memory addr = 8)
    (hsame : ∀ offset < size format memory addr,
      after (target + offset) = memory (addr + offset)) :
    objectAt format after target = objectAt format memory addr := by
  rw [size, hlen] at hsame
  have hwindow : ∀ start count, start + count ≤ kHeaderSize + dataLen format memory addr + 8 →
      window after (target + start) count = window memory (addr + start) count := by
    intro start count hle
    funext offset
    have hbyte := hsame (start + offset) (by omega)
    simpa only [window, Nat.add_assoc] using hbyte
  have hheader : window after target kHeaderSize = window memory addr kHeaderSize :=
    hwindow 0 kHeaderSize (by omega)
  have hdataLen : dataLen format after target = dataLen format memory addr := by
    rw [dataLen, hheader, dataLen]
  have hdata : dataOf format after target = dataOf format memory addr := by
    rw [dataOf, hdataLen, load, hwindow kHeaderSize _ (by omega), dataOf, load]
  have hobjId : objId format after target = objId format memory addr := by
    apply littleEndian_congr
    intro offset hoffset
    have hbyte := hsame (kHeaderSize + dataLen format memory addr + offset) (by omega)
    rw [objIdAddr, hdataLen, objIdAddr]
    simpa only [Nat.add_assoc] using hbyte
  rw [objectAt, objectAt, hheader, hdata, hobjId, dsId, objIdLen, hheader]
  rfl

theorem objectAt_congr (hlen : objIdLen format memory addr = 8)
    (hsame : Set.EqOn after memory (Set.Ico addr (addr + size format memory addr))) :
    objectAt format after addr = objectAt format memory addr :=
  objectAt_of_eq hlen fun _ hoffset =>
    hsame ⟨Nat.le_add_right _ _, Nat.add_lt_add_left hoffset _⟩

theorem size_congr {target : ℕ}
    (hsame : objectAt format after target = objectAt format memory addr) :
    size format after target = size format memory addr := by
  rw [← size_objectAt, hsame, size_objectAt]

/-! ### The object that `swap_in` builds -/

section Build

variable {ptr : Slot} {newDsId newObjId : ℕ} {data : List (BitVec 8)}

theorem window_writeObject :
    window (writeObject format memory ptr addr newDsId newObjId data) addr kHeaderSize =
      format.init (BitVec.ofNat 8 newDsId) (BitVec.ofNat 16 data.length) 8
        (format.setPtrAddr ptr
          (window (store memory (addr + kHeaderSize) data) addr kHeaderSize)) := by
  have hdisjoint := NonBlocking.disjoint_header_id addr kHeaderSize data.length 8
  exact (window_place_of_disjoint hdisjoint).trans window_place

/-- It writes the header, the data and eight bytes of id. -/
theorem eqOn_writeObject :
    Set.EqOn (writeObject format memory ptr addr newDsId newObjId data) memory
      (Set.Ico addr (addr + (kHeaderSize + data.length + 8)))ᶜ := by
  apply (eqOn_compl_trans (eqOn_compl_trans eqOn_store eqOn_place) eqOn_place).mono
  apply Set.compl_subset_compl.mpr
  intro address haddress
  simp only [Set.mem_union, Set.mem_Ico] at haddress ⊢
  omega

theorem dataLen_writeObject (hlength : data.length < 2 ^ 16) :
    dataLen format (writeObject format memory ptr addr newDsId newObjId data) addr =
      data.length := by
  rw [dataLen, window_writeObject, format.dataLen_init, BitVec.toNat_ofNat,
    Nat.mod_eq_of_lt hlength]

theorem objIdLen_writeObject :
    objIdLen format (writeObject format memory ptr addr newDsId newObjId data) addr = 8 := by
  rw [objIdLen, window_writeObject, format.objIdLen_init]
  rfl

/-- The bytes that `swap_in` leaves spell the object that it loads. -/
theorem objectAt_writeObject (hptr : 0 < ptr) (hbound : ptr < format.slotBound)
    (hdsId : newDsId < 2 ^ 8) (hobjId : newObjId < 2 ^ 64) (hlength : data.length < 2 ^ 16) :
    objectAt format (writeObject format memory ptr addr newDsId newObjId data) addr =
      { ptrAddr := ptr
        dsId := newDsId
        objId := newObjId
        objIdLen := 8
        data := data } := by
  have hdataLen : dataLen format (writeObject format memory ptr addr newDsId newObjId data)
      addr = data.length := dataLen_writeObject hlength
  rw [objectAt, Object.mk.injEq]
  refine ⟨?_, ?_, ?_, objIdLen_writeObject, ?_, ?_⟩
  · rw [window_writeObject, format.ptrAddr_init, format.ptrAddr_setPtrAddr _ _ hptr hbound]
  · rw [dsId, window_writeObject, format.dsId_init, BitVec.toNat_ofNat,
      Nat.mod_eq_of_lt hdsId]
  · have hbytes : ∀ offset < 8,
        writeObject format memory ptr addr newDsId newObjId data
          (addr + kHeaderSize + data.length + offset) = bytesOf newObjId offset := by
      intro offset hoffset
      exact congrFun window_place (⟨offset, hoffset⟩ : Fin 8)
    rw [objId, objIdAddr, hdataLen]
    exact (littleEndian_congr hbytes).trans
      ((littleEndian_digits newObjId).trans (Nat.mod_eq_of_lt hobjId))
  · have hid : Disjoint
        (Set.Ico (addr + kHeaderSize) (addr + kHeaderSize + data.length))
        (Set.Ico (addr + kHeaderSize + data.length) (addr + kHeaderSize + data.length + 8)) :=
      Set.Ico_disjoint_Ico_same
    have hheader : Disjoint
        (Set.Ico (addr + kHeaderSize) (addr + kHeaderSize + data.length))
        (Set.Ico addr (addr + kHeaderSize)) :=
      Set.Ico_disjoint_Ico_same.symm
    rw [dataOf, hdataLen, load, writeObject, window_place_of_disjoint hid,
      window_place_of_disjoint hheader]
    exact load_store data
  · rw [window_writeObject, format.isFreed_init, format.isFreed_setPtrAddr _ _ hptr hbound]

end Build

/-- A store of as many bytes as the object has replaces its data. -/
theorem objectAt_store {data : List (BitVec 8)}
    (hlength : data.length = dataLen format memory addr) :
    objectAt format (store memory (addr + kHeaderSize) data) addr =
      { objectAt format memory addr with data := data } := by
  have hheader : window (store memory (addr + kHeaderSize) data) addr kHeaderSize =
      window memory addr kHeaderSize :=
    window_place_of_disjoint Set.Ico_disjoint_Ico_same
  have hdataLen : dataLen format (store memory (addr + kHeaderSize) data) addr =
      dataLen format memory addr := by
    rw [dataLen, hheader, dataLen]
  have hobjId : objId format (store memory (addr + kHeaderSize) data) addr =
      objId format memory addr := by
    apply littleEndian_congr
    intro offset _
    rw [objIdAddr, hdataLen, objIdAddr, ← hlength]
    exact place_of_apart (.inr (Nat.le_add_right _ _))
  have hdata : dataOf format (store memory (addr + kHeaderSize) data) addr = data := by
    rw [dataOf, hdataLen, ← hlength, load_store]
  rw [objectAt, objectAt, hheader, hobjId, hdata, dsId, objIdLen, hheader]
  rfl

end Objects

/-! ## The operations -/

section Operations

variable (pointer : FarMemPtrMeta Meta) (ring : Slot → List Slot)
variable {kHeaderSize : ℕ} (format : ObjectFormat kHeaderSize)
variable (notifiers : ByteNotifiers Meta)

/-- The effect of a whole `swap_in` whose local object is allocated at `objAddr`. -/
def swapIn (cache : Cache Meta) (ptr : Slot) (objAddr : ℕ) : Cache Meta :=
  let word := cache.metas ptr
  if pointer.isPresent word then cache
  else
    let objId := pointer.getObjectId word
    let dsId := pointer.getDsId word
    (cache.setMemory (writeObject format cache.memory ptr objAddr dsId objId
      (cache.device dsId objId))).onPlain fun heap =>
        ((heap.atomicIncRefCnt objAddr 1).mapMetas (aliasesOf pointer ring heap ptr)
          fun word => pointer.setPresent word objAddr).atomicIncRefCnt objAddr (-1)

/-- Store into the object in place; the pointer used becomes dirty. -/
def writeData (kHeaderSize : ℕ) (cache : Cache Meta) (slot : Slot)
    (data : List (BitVec 8)) : Cache Meta :=
  (cache.setMemory (store cache.memory
    (pointer.getObjectAddr (cache.metas slot) + kHeaderSize) data)).onPlain fun heap =>
      heap.setMeta slot (pointer.setDirty (heap.metas slot))

/-- The bytes at the new address: with a copy notifier the header and the id are
copied first, otherwise the object is copied whole. -/
def copyObject (memory : Memory) (objAddr newLocalObjectAddr : ℕ) : Memory :=
  match notifiers.copy (dsId format memory objAddr) with
  | some notifier =>
      let headed := place memory newLocalObjectAddr (window memory objAddr kHeaderSize)
      notifier newLocalObjectAddr objAddr
        (place headed (objIdAddr format headed newLocalObjectAddr)
          (window headed (objIdAddr format headed objAddr) (objIdLen format headed objAddr)))
  | none => place memory newLocalObjectAddr (window memory objAddr (size format memory objAddr))

/-- The hot branch: the object moves and every alias follows by `gc_copy`. -/
def hotCopy (cache : Cache Meta) (ptr : Slot) (objAddr newLocalObjectAddr : ℕ) : Cache Meta :=
  (cache.setMemory (copyObject format notifiers cache.memory objAddr
    newLocalObjectAddr)).onPlain fun heap =>
      ((heap.atomicIncRefCnt newLocalObjectAddr 1).mapMetas (aliasesOf pointer ring heap ptr)
        fun word => pointer.gcCopy word newLocalObjectAddr).atomicIncRefCnt
          newLocalObjectAddr (-1)

/-- `write_object_fn(data_len)`. -/
def writeObjectFn (objAddr : ℕ) (dirty : Bool) (dataLen : ℕ) (cache : Cache Meta) :
    Cache Meta :=
  if dirty then
    cache.onPlain fun heap =>
      heap.writeObject (dsId format cache.memory objAddr) (objId format cache.memory objAddr)
        (load cache.memory (objAddr + kHeaderSize) dataLen)
  else cache

/-- Every alias gets the remote word of the object. -/
def gcWbAll (cache : Cache Meta) (ptr : Slot) (objAddr : ℕ) : Cache Meta :=
  cache.onPlain fun heap =>
    heap.mapMetas (aliasesOf pointer ring heap ptr) fun word =>
      pointer.gcWb word (dsId format cache.memory objAddr) (size format cache.memory objAddr)
        (objId format cache.memory objAddr)

/-- The branch that writes back: unless an evacuation notifier removed the
pointer, the aliases become remote. -/
def writeBack (cache : Cache Meta) (ptr : Slot) (objAddr : ℕ) (dirty : Bool) : Cache Meta :=
  match notifiers.evac (dsId format cache.memory objAddr) with
  | some notifier =>
      match notifier (writeObjectFn format objAddr dirty) objAddr cache with
      | (cache, true) => cache
      | (cache, false) => gcWbAll pointer ring format cache ptr objAddr
  | none =>
      gcWbAll pointer ring format
        (writeObjectFn format objAddr dirty (dataLen format cache.memory objAddr) cache) ptr
        objAddr

/-- `swap_out(ptr, obj)` without `STW_GC`. -/
def swapOut (choices : SwapOutChoices) (cache : Cache Meta) (ptr : Slot) (objAddr : ℕ) :
    Cache Meta :=
  if pointer.isEvacuation (cache.metas ptr) then
    let flags := flagsOf pointer ring choices cache.plain ptr
    if flags.hot && !flags.nt && !choices.almostEmpty then
      match choices.newLocalObjectAddr with
      | some addr => hotCopy pointer ring format notifiers cache ptr objAddr addr
      | none => writeBack pointer ring format notifiers cache ptr objAddr flags.dirty
    else writeBack pointer ring format notifiers cache ptr objAddr flags.dirty
  else cache

/-- Copy notifiers copy the data. -/
def CopiesBytes : Prop :=
  ∀ dsId notifier, notifiers.copy dsId = some notifier → ∀ dest src memory,
    notifier dest src memory = place memory (dest + kHeaderSize)
      (window memory (src + kHeaderSize) (dataLen format memory dest))

/-- The same notifiers on whole objects. -/
def heapNotifiers : Notifiers Meta where
  copy dsId := (notifiers.copy dsId).map fun _ dest src => { dest with data := src.data }
  evac _ := none

end Operations

/-- Two ranges without a common byte. -/
def Apart (first firstSize second secondSize : ℕ) : Prop :=
  first + firstSize ≤ second ∨ second + secondSize ≤ first

instance (first firstSize second secondSize : ℕ) :
    Decidable (Apart first firstSize second secondSize) :=
  inferInstanceAs (Decidable (_ ∨ _))

section Copy

variable {kHeaderSize : ℕ} {format : ObjectFormat kHeaderSize}
variable {notifiers : ByteNotifiers Meta} {memory : Memory} {objAddr target : ℕ}

/-- Both ways of copying leave the object's bytes at the new address and write
nothing else. -/
theorem copied_copyObject (hcopies : CopiesBytes format notifiers)
    (hlen : objIdLen format memory objAddr = 8)
    (hapart : Apart target (size format memory objAddr) objAddr (size format memory objAddr)) :
    Copied memory (copyObject format notifiers memory objAddr target) objAddr target
      (Set.Ico 0 (size format memory objAddr)) := by
  cases hnotifier : notifiers.copy (dsId format memory objAddr) with
  | none =>
      rw [copyObject, hnotifier]
      exact copied_place
  | some notifier =>
      have hsize : size format memory objAddr =
          kHeaderSize + dataLen format memory objAddr + 8 := by
        rw [size, hlen]
      generalize hheaded : place memory target (window memory objAddr kHeaderSize) = headed
      have hheader : Copied memory headed objAddr target (Set.Ico 0 kHeaderSize) :=
        hheaded ▸ copied_place
      have hdone : Set.Ico 0 kHeaderSize ⊆ Set.Iio (size format memory objAddr) :=
        fun offset hoffset => hoffset.2.trans_le (by omega)
      have hnew : window headed target kHeaderSize = window memory objAddr kHeaderSize := by
        rw [← hheaded, window_place]
      have hold : window headed (objAddr + 0) kHeaderSize =
          window memory (objAddr + 0) kHeaderSize :=
        hheader.window_source hdone (by omega) hapart
      have hnewLen : dataLen format headed target = dataLen format memory objAddr := by
        rw [dataLen, hnew, dataLen]
      have holdLen : dataLen format headed objAddr = dataLen format memory objAddr := by
        rw [dataLen, ← Nat.add_zero objAddr, hold, dataLen]
      have hidLen : objIdLen format headed objAddr = 8 := by
        rw [objIdLen, ← Nat.add_zero objAddr, hold]
        exact hlen
      generalize dataLen format memory objAddr = count at hsize hnewLen holdLen
      -- the id goes behind the data that is still to come
      have hid := hheader.piece hdone hsize.ge hapart
      generalize hnamed : place headed (target + (kHeaderSize + count))
        (window headed (objAddr + (kHeaderSize + count)) 8) = named at hid
      have hnamedLen : dataLen format named target = count := by
        rw [dataLen, ← hnamed, ← Nat.add_assoc,
          window_place_of_disjoint (NonBlocking.disjoint_header_id _ _ _ _)]
        exact hnewLen
      have hcopy : copyObject format notifiers memory objAddr target =
          place named (target + kHeaderSize) (window named (objAddr + kHeaderSize) count) := by
        simp only [copyObject, hnotifier]
        rw [hcopies _ _ hnotifier, hheaded, objIdAddr, hnewLen, objIdAddr, holdLen, hidLen,
          Nat.add_assoc, Nat.add_assoc, hnamed, hnamedLen]
      have hpieces : Set.Ico 0 kHeaderSize ∪
          Set.Ico (kHeaderSize + count) (kHeaderSize + count + 8) ⊆
            Set.Iio (size format memory objAddr) := by
        rintro offset (hoffset | hoffset)
        · exact hdone hoffset
        · exact hoffset.2.trans_eq hsize.symm
      have hall := hid.piece hpieces (hsize.ge.trans' (Nat.le_add_right _ 8)) hapart
      have hcovered : Set.Ico 0 kHeaderSize ∪
          Set.Ico (kHeaderSize + count) (kHeaderSize + count + 8) ∪
            Set.Ico kHeaderSize (kHeaderSize + count) =
              Set.Ico 0 (size format memory objAddr) := by
        ext offset
        simp only [Set.mem_union, Set.mem_Ico, hsize]
        omega
      rwa [hcopy, ← hcovered]

end Copy

/-! ## Staying inside the allocated space -/

section Space

variable {pointer : FarMemPtrMeta Meta} {ring : Slot → List Slot}
variable {kHeaderSize : ℕ} {format : ObjectFormat kHeaderSize}
variable {notifiers : ByteNotifiers Meta} {cache : Cache Meta}
variable {ptr : Slot} {objAddr newAddr : ℕ}

theorem memory_swapIn (habsent : pointer.isPresent (cache.metas ptr) = false) (memory : Memory) :
    (swapIn pointer ring format (cache.setMemory memory) ptr newAddr).memory =
      writeObject format memory ptr newAddr (pointer.getDsId (cache.metas ptr))
        (pointer.getObjectId (cache.metas ptr))
        (cache.device (pointer.getDsId (cache.metas ptr))
          (pointer.getObjectId (cache.metas ptr))) := by
  have hword : (cache.setMemory memory).metas ptr = cache.metas ptr := rfl
  rw [swapIn, hword, if_neg (by simp [habsent])]
  rfl

/-- `swap_in` writes only the bytes that it allocates, whatever they held, if and
only if the size in the pointer's word covers the header, the data that the
device returns and eight bytes of id. -/
theorem swapIn_inside_iff (habsent : pointer.isPresent (cache.metas ptr) = false) (count : ℕ) :
    (∀ memory, Set.EqOn
        (swapIn pointer ring format (cache.setMemory memory) ptr newAddr).memory memory
        (Set.Ico newAddr (newAddr + count))ᶜ) ↔
      kHeaderSize + (cache.device (pointer.getDsId (cache.metas ptr))
        (pointer.getObjectId (cache.metas ptr))).length + 8 ≤ count := by
  simp only [memory_swapIn habsent]
  generalize cache.device _ _ = data
  generalize pointer.getObjectId (cache.metas ptr) = objId
  constructor
  · intro hinside
    by_contra hshort
    -- the last byte of the id lies outside
    have hlast : newAddr + kHeaderSize + data.length + 7 ∈
        (Set.Ico newAddr (newAddr + count))ᶜ := by
      rw [Set.mem_compl_iff, Set.mem_Ico]
      omega
    have hkept := hinside (fun _ => bytesOf objId 7 + 1) hlast
    rw [writeObject, place_of_lt (Nat.lt_succ_self 7)] at hkept
    have hone : (1 : BitVec 8) = 0 := by
      apply BitVec.add_right_eq_self.mp hkept.symm
    exact absurd hone (by decide)
  · intro hcovers memory
    apply eqOn_writeObject.mono
    apply Set.compl_subset_compl.mpr
    exact Set.Ico_subset_Ico_right (by omega)

end Space

end DynamicSwap.ByteLevel
