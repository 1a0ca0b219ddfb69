import DynamicSwap.Library.Machine
import DynamicSwap.Library.WriteBackCache
import DynamicSwap.Swap.SwapOut

/-!
# The swapping cache refines plain memory

Mutators read and write objects through unique or shared pointers while
`swap_in` and `swap_out` move the objects between local regions and the device.
The heap represents a write-back cache keyed by object id: an object is a line
while it is local, dirty when one of its aliases is, and the device is the
backing store.  Each call is one operation of that cache, so a read returns the
bytes last written.
-/

namespace DynamicSwap.Store

open Library (WriteBackCache Line)
open SwapIn (aliasesOf swapIn)
open SwapOut (swapOut)

variable {Meta : Type}

abbrev Bytes : Type := List (BitVec 8)

/-- An object with the pointers that share it. -/
structure Tracked where
  aliases : List Slot
  shared : Bool
  dsId : ℕ
  objId : ℕ
  deriving DecidableEq

/-- A set of objects: no pointer has two objects, a unique pointer is alone,
`traverse` walks a ring once, and the remote ids differ and fit the format. -/
structure Layout where
  objects : List Tracked
  ring : Slot → List Slot
  nonempty : ∀ object ∈ objects, object.aliases ≠ []
  nodup : ∀ object ∈ objects, object.aliases.Nodup
  disjoint : ∀ object ∈ objects, ∀ other ∈ objects, object ≠ other →
    List.Disjoint object.aliases other.aliases
  unique : ∀ object ∈ objects, object.shared = false →
    ∀ slot ∈ object.aliases, object.aliases = [slot]
  ring_perm : ∀ object ∈ objects, object.shared = true →
    ∀ slot ∈ object.aliases, (ring slot).Perm object.aliases
  ids : ∀ object ∈ objects, ∀ other ∈ objects, object.objId = other.objId →
    object = other
  dsId_lt : ∀ object ∈ objects, object.dsId < 2 ^ 8
  objId_lt : ∀ object ∈ objects, object.objId < 2 ^ 38

/-- `read` is a dereference, which swaps the object in if need be; `retag`
changes bits of a local pointer's word that do not concern its object: the hot
bits and the evacuation mark. -/
inductive Action (Meta : Type)
  | write (object : Tracked) (slot : Slot) (data : Bytes)
  | read (object : Tracked) (slot : Slot) (objAddr : ℕ)
  | swapIn (object : Tracked) (slot : Slot) (objAddr : ℕ)
  | swapOut (object : Tracked) (slot : Slot) (choices : SwapOutChoices)
  | retag (slot : Slot) (word : Meta)

variable (pointer : FarMemPtrMeta Meta) (layout : Layout)
variable (kHeaderSize : ℕ) (notifiers : Notifiers Meta)

/-- No local object is at the address. -/
def Unused (heap : Heap Meta) (addr : ℕ) : Prop :=
  ∀ object ∈ layout.objects, ∀ slot ∈ object.aliases,
    pointer.isPresent (heap.metas slot) = true →
      pointer.getObjectAddr (heap.metas slot) ≠ addr

instance (heap : Heap Meta) (addr : ℕ) : Decidable (Unused pointer layout heap addr) :=
  inferInstanceAs (Decidable (∀ object ∈ layout.objects, ∀ slot ∈ object.aliases,
    pointer.isPresent (heap.metas slot) = true →
      pointer.getObjectAddr (heap.metas slot) ≠ addr))

/-- An address that the local allocator can return. -/
def Allocatable (heap : Heap Meta) (addr : ℕ) : Prop :=
  addr < pointer.addrBound ∧ Unused pointer layout heap addr

instance (heap : Heap Meta) (addr : ℕ) :
    Decidable (Allocatable pointer layout heap addr) :=
  inferInstanceAs (Decidable (_ ∧ _))

/-- A dereference allocates only for a remote object. -/
def Servable (heap : Heap Meta) (slot : Slot) (objAddr : ℕ) : Prop :=
  pointer.isPresent (heap.metas slot) = false →
    Allocatable pointer layout heap objAddr

instance (heap : Heap Meta) (slot : Slot) (objAddr : ℕ) :
    Decidable (Servable pointer layout heap slot objAddr) :=
  inferInstanceAs (Decidable (_ → _))

/-- The local object behind a pointer. -/
def objectOf (heap : Heap Meta) (slot : Slot) : Option Object :=
  if pointer.isPresent (heap.metas slot) then
    heap.objects (pointer.getObjectAddr (heap.metas slot))
  else none

/-- Store into the object in place; the pointer used becomes dirty. -/
def writeData (heap : Heap Meta) (slot : Slot) (obj : Object) (data : Bytes) :
    Heap Meta :=
  (heap.putObject (pointer.getObjectAddr (heap.metas slot))
    (some { obj with data := data })).setMeta slot
      (pointer.setDirty (heap.metas slot))

/-- Two words of a local pointer that agree on everything but flags. -/
def SameObject (old new : Meta) : Prop :=
  pointer.isPresent old = true ∧ pointer.isPresent new = true ∧
    pointer.isShared new = pointer.isShared old ∧
    pointer.isDirty new = pointer.isDirty old ∧
    pointer.getObjectAddr new = pointer.getObjectAddr old

instance (old new : Meta) : Decidable (SameObject pointer old new) :=
  inferInstanceAs (Decidable (_ ∧ _))

def step (heap : Heap Meta) : Action Meta → Option (Heap Meta)
  | .write object slot data =>
      match objectOf pointer heap slot with
      | none => none
      | some obj =>
          if object ∈ layout.objects ∧ slot ∈ object.aliases ∧
              data.length = obj.data.length then
            some (writeData pointer heap slot obj data)
          else none
  | .read object slot objAddr | .swapIn object slot objAddr =>
      if object ∈ layout.objects ∧ slot ∈ object.aliases ∧
          Servable pointer layout heap slot objAddr then
        some (swapIn pointer layout.ring heap slot objAddr)
      else none
  | .swapOut object slot choices =>
      match objectOf pointer heap slot with
      | none => none
      | some obj =>
          if object ∈ layout.objects ∧ slot ∈ object.aliases ∧
              ∀ addr ∈ choices.newLocalObjectAddr,
                Allocatable pointer layout heap addr then
            some (swapOut pointer layout.ring kHeaderSize notifiers choices heap
              slot obj)
          else none
  | .retag slot word =>
      if SameObject pointer (heap.metas slot) word then
        some (heap.setMeta slot word)
      else none

/-- What a read of the object through the pointer returns. -/
def deref (heap : Heap Meta) (slot : Slot) (objAddr : ℕ) : Option Object :=
  objectOf pointer (swapIn pointer layout.ring heap slot objAddr) slot

/-- The object is local at the address, with the value and dirty bit of a line. -/
structure Local (object : Tracked) (addr : ℕ) (line : Line Bytes)
    (heap : Heap Meta) : Prop where
  words : ∀ slot ∈ object.aliases, pointer.isPresent (heap.metas slot) = true ∧
    pointer.getObjectAddr (heap.metas slot) = addr
  stored : ∃ obj, heap.objects addr = some obj ∧ obj.dsId = object.dsId ∧
    obj.objId = object.objId ∧ obj.data = line.value
  dirty : line.dirty = true ↔
    ∃ slot ∈ object.aliases, pointer.isDirty (heap.metas slot) = true

/-- The object is on the device and its pointers say where. -/
def Remote (object : Tracked) (heap : Heap Meta) : Prop :=
  ∀ slot ∈ object.aliases, pointer.isPresent (heap.metas slot) = false ∧
    pointer.getDsId (heap.metas slot) = object.dsId ∧
    pointer.getObjectId (heap.metas slot) = object.objId

/-- The heap's part for one object is the cache's part for its id. -/
structure Represents (object : Tracked) (heap : Heap Meta)
    (cache : WriteBackCache ℕ Bytes) : Prop where
  shared : ∀ slot ∈ object.aliases,
    pointer.isShared (heap.metas slot) = object.shared
  backing : cache.backing object.objId = heap.device object.dsId object.objId
  cached : ∀ line, cache.lines object.objId = some line →
    ∃ addr, Local pointer object addr line heap
  remote : cache.lines object.objId = none → Remote pointer object heap

structure Inv (heap : Heap Meta) (cache : WriteBackCache ℕ Bytes) : Prop where
  represents : ∀ object ∈ layout.objects, Represents pointer object heap cache
  separate : ∀ object ∈ layout.objects, ∀ other ∈ layout.objects, object ≠ other →
    ∀ slot ∈ object.aliases, ∀ rival ∈ other.aliases,
      pointer.isPresent (heap.metas slot) = true →
      pointer.isPresent (heap.metas rival) = true →
        pointer.getObjectAddr (heap.metas slot) ≠
          pointer.getObjectAddr (heap.metas rival)
  coherent : cache.Coherent

/-- Every object has just been allocated: local, at its own address, dirty. -/
structure Fresh (memory : ℕ → Bytes) (heap : Heap Meta) : Prop where
  allocated : ∀ object ∈ layout.objects, ∃ addr,
    Local pointer object addr ⟨memory object.objId, true⟩ heap
  shared : ∀ object ∈ layout.objects, ∀ slot ∈ object.aliases,
    pointer.isShared (heap.metas slot) = object.shared
  separate : ∀ object ∈ layout.objects, ∀ other ∈ layout.objects, object ≠ other →
    ∀ slot ∈ object.aliases, ∀ rival ∈ other.aliases,
      pointer.getObjectAddr (heap.metas slot) ≠
        pointer.getObjectAddr (heap.metas rival)

def machine (memory : ℕ → Bytes) : Library.Machine (Heap Meta) (Action Meta) where
  initial := Fresh pointer layout memory
  step := step pointer layout kHeaderSize notifiers

/-- Plain memory: the bytes of each object id. -/
def applyWrite (memory : ℕ → Bytes) : Action Meta → ℕ → Bytes
  | .write object _ data => Function.update memory object.objId data
  | _ => memory

/-- Copy notifiers copy the data; other header bytes are copied before. -/
def CopiesData : Prop :=
  ∀ dsId notifier, notifiers.copy dsId = some notifier →
    ∀ dest src, notifier dest src = { dest with data := src.data }

/-! ## One object -/

section OneObject

variable {pointer layout kHeaderSize notifiers}
variable {heap next : Heap Meta} {cache after : WriteBackCache ℕ Bytes}
variable {object : Tracked} {slot : Slot} {addr : ℕ} {line : Line Bytes}

theorem copyObject_eq (hcopies : CopiesData notifiers) (obj : Object) :
    SwapOut.copyObject notifiers obj = obj := by
  unfold SwapOut.copyObject
  split
  · rename_i notifier hnotifier
    rw [hcopies _ _ hnotifier]
  · rfl

theorem isPresent_of_objectOf {obj : Object}
    (hobj : objectOf pointer heap slot = some obj) :
    pointer.isPresent (heap.metas slot) = true := by
  by_contra habsent
  rw [objectOf, if_neg habsent] at hobj
  cases hobj

namespace Local

theorem objectOf_eq (hlocal : Local pointer object addr line heap)
    (hslot : slot ∈ object.aliases) :
    objectOf pointer heap slot = heap.objects addr := by
  obtain ⟨hpresent, haddr⟩ := hlocal.words slot hslot
  rw [objectOf, if_pos hpresent, haddr]

/-- Setters that keep presence and the dirty bit, and a common address. -/
theorem of_words (hlocal : Local pointer object addr line heap) (newAddr : ℕ)
    (hpresent : ∀ slot ∈ object.aliases, pointer.isPresent (heap.metas slot) = true →
      pointer.isPresent (next.metas slot) = true)
    (haddr : ∀ slot ∈ object.aliases, pointer.isPresent (heap.metas slot) = true →
      pointer.getObjectAddr (next.metas slot) = newAddr)
    (hdirty : ∀ slot ∈ object.aliases, pointer.isPresent (heap.metas slot) = true →
      pointer.isDirty (next.metas slot) = pointer.isDirty (heap.metas slot))
    (hstored : next.objects newAddr = heap.objects addr) :
    Local pointer object newAddr line next := by
  have hlive : ∀ slot ∈ object.aliases, pointer.isPresent (heap.metas slot) = true :=
    fun slot hslot => (hlocal.words slot hslot).1
  constructor
  case words =>
    intro slot hslot
    exact ⟨hpresent slot hslot (hlive slot hslot), haddr slot hslot (hlive slot hslot)⟩
  case stored =>
    rw [hstored]
    exact hlocal.stored
  case dirty =>
    rw [hlocal.dirty]
    constructor
    · rintro ⟨slot, hslot, hbit⟩
      exact ⟨slot, hslot, (hdirty slot hslot (hlive slot hslot)).trans hbit⟩
    · rintro ⟨slot, hslot, hbit⟩
      exact ⟨slot, hslot, (hdirty slot hslot (hlive slot hslot)).symm.trans hbit⟩

end Local

namespace Represents

variable (hrep : Represents pointer object heap cache)

include hrep

/-- A local pointer's object is a line of the cache. -/
theorem exists_local (hslot : slot ∈ object.aliases)
    (hpresent : pointer.isPresent (heap.metas slot) = true) :
    ∃ line addr, cache.lines object.objId = some line ∧
      Local pointer object addr line heap := by
  cases hline : cache.lines object.objId with
  | none =>
      have habsent := (hrep.remote hline slot hslot).1
      rw [hpresent] at habsent
      cases habsent
  | some line =>
      obtain ⟨addr, hlocal⟩ := hrep.cached line hline
      exact ⟨line, addr, rfl, hlocal⟩

theorem exists_line_of_objectOf (hslot : slot ∈ object.aliases) {obj : Object}
    (hobj : objectOf pointer heap slot = some obj) :
    ∃ line, cache.lines object.objId = some line ∧
      (line.dirty = true ↔
        ∃ slot ∈ object.aliases, pointer.isDirty (heap.metas slot) = true) ∧
      obj.dsId = object.dsId ∧ obj.objId = object.objId ∧ obj.data = line.value := by
  obtain ⟨line, addr, hline, hlocal⟩ :=
    hrep.exists_local hslot (isPresent_of_objectOf hobj)
  obtain ⟨stored, hstored, hfields⟩ := hlocal.stored
  rw [hlocal.objectOf_eq hslot, hstored, Option.some.injEq] at hobj
  exact ⟨line, hline, hlocal.dirty, hobj ▸ hfields⟩

theorem lines_eq_none (hslot : slot ∈ object.aliases)
    (habsent : pointer.isPresent (heap.metas slot) = false) :
    cache.lines object.objId = none := by
  cases hline : cache.lines object.objId with
  | none => rfl
  | some line =>
      obtain ⟨addr, hlocal⟩ := hrep.cached line hline
      rw [(hlocal.words slot hslot).1] at habsent
      cases habsent

/-- Setters reach every alias once, whichever alias they start from. -/
theorem aliasesOf_perm (hobject : object ∈ layout.objects)
    (hslot : slot ∈ object.aliases) :
    (aliasesOf pointer layout.ring heap slot).Perm object.aliases := by
  unfold aliasesOf
  rw [hrep.shared slot hslot]
  cases hshared : object.shared with
  | true => exact layout.ring_perm object hobject hshared slot hslot
  | false =>
      rw [layout.unique object hobject hshared slot hslot]
      exact List.Perm.refl _

theorem metas_mapMetas (hobject : object ∈ layout.objects)
    (hslot : slot ∈ object.aliases) (base : Heap Meta) (setter : Meta → Meta)
    {other : Slot} (hother : other ∈ object.aliases) :
    (base.mapMetas (aliasesOf pointer layout.ring heap slot) setter).metas other =
      setter (base.metas other) := by
  have hperm := hrep.aliasesOf_perm hobject hslot
  apply Heap.metas_mapMetas_of_mem
  · exact hperm.nodup_iff.mpr (layout.nodup object hobject)
  · exact hperm.mem_iff.mpr hother

theorem metas_mapMetas_of_notMem (hobject : object ∈ layout.objects)
    (hslot : slot ∈ object.aliases) (base : Heap Meta) (setter : Meta → Meta)
    {other : Slot} (hother : other ∉ object.aliases) :
    (base.mapMetas (aliasesOf pointer layout.ring heap slot) setter).metas other =
      base.metas other := by
  apply Heap.metas_mapMetas_of_notMem
  rw [(hrep.aliasesOf_perm hobject hslot).mem_iff]
  exact hother

/-- Representation depends on the words of the object's own pointers up to
flags, on the object at its address and on its remote copy. -/
theorem congr (hnonempty : object.aliases ≠ [])
    (hmetas : ∀ slot ∈ object.aliases, next.metas slot = heap.metas slot ∨
      SameObject pointer (heap.metas slot) (next.metas slot))
    (hobjects : ∀ slot ∈ object.aliases,
      pointer.isPresent (heap.metas slot) = true →
        next.objects (pointer.getObjectAddr (heap.metas slot)) =
          heap.objects (pointer.getObjectAddr (heap.metas slot)))
    (hdevice : next.device object.dsId object.objId =
      heap.device object.dsId object.objId)
    (hlines : after.lines object.objId = cache.lines object.objId)
    (hbacking : after.backing object.objId = cache.backing object.objId) :
    Represents pointer object next after := by
  constructor
  case shared =>
    intro slot hslot
    rw [← hrep.shared slot hslot]
    rcases hmetas slot hslot with heq | ⟨-, -, hshared, -⟩
    · rw [heq]
    · exact hshared
  case backing => rw [hbacking, hdevice, hrep.backing]
  case cached =>
    intro line hline
    rw [hlines] at hline
    obtain ⟨addr, hlocal⟩ := hrep.cached line hline
    refine ⟨addr, hlocal.of_words addr ?_ ?_ ?_ ?_⟩
    · intro slot hslot hpresent
      rcases hmetas slot hslot with heq | ⟨-, hnext, -⟩
      · rw [heq, hpresent]
      · exact hnext
    · intro slot hslot _
      rw [← (hlocal.words slot hslot).2]
      rcases hmetas slot hslot with heq | ⟨-, -, -, -, haddr⟩
      · rw [heq]
      · exact haddr
    · intro slot hslot _
      rcases hmetas slot hslot with heq | ⟨-, -, -, hdirty, -⟩
      · rw [heq]
      · exact hdirty
    · obtain ⟨slot, hslot⟩ := List.exists_mem_of_ne_nil _ hnonempty
      obtain ⟨hpresent, haddr⟩ := hlocal.words slot hslot
      rw [← haddr, hobjects slot hslot hpresent]
  case remote =>
    intro hline slot hslot
    rw [hlines] at hline
    have hword := hrep.remote hline slot hslot
    rcases hmetas slot hslot with heq | ⟨hpresent, -⟩
    · rw [heq]
      exact hword
    · rw [hpresent] at hword
      cases hword.1

omit hrep in
theorem of_local (hshared : ∀ slot ∈ object.aliases,
      pointer.isShared (heap.metas slot) = object.shared)
    (hbacking : cache.backing object.objId = heap.device object.dsId object.objId)
    (hline : cache.lines object.objId = some line)
    (hlocal : Local pointer object addr line heap) :
    Represents pointer object heap cache where
  shared := hshared
  backing := hbacking
  cached := by
    intro other hother
    rw [hline, Option.some.injEq] at hother
    exact ⟨addr, hother ▸ hlocal⟩
  remote := by
    intro hnone
    rw [hline] at hnone
    cases hnone

/-- A store makes the line dirty through the pointer that it uses. -/
theorem write {obj : Object} (hslot : slot ∈ object.aliases)
    (hobj : objectOf pointer heap slot = some obj) (data : Bytes) :
    Represents pointer object (writeData pointer heap slot obj data)
      (cache.write object.objId data) := by
  have hpresent := isPresent_of_objectOf hobj
  obtain ⟨line, addr, -, hlocal⟩ := hrep.exists_local hslot hpresent
  have haddr := (hlocal.words slot hslot).2
  rw [hlocal.objectOf_eq hslot] at hobj
  have hmetas : ∀ other ≠ slot,
      (writeData pointer heap slot obj data).metas other = heap.metas other :=
    fun other hne => Heap.metas_setMeta_of_ne _ _ hne
  have hself : (writeData pointer heap slot obj data).metas slot =
      pointer.setDirty (heap.metas slot) := Heap.metas_setMeta_self ..
  apply of_local
  · intro other hother
    rw [← hrep.shared other hother]
    by_cases heq : other = slot
    · rw [heq, hself, pointer.isShared_setDirty _ hpresent]
    · rw [hmetas other heq]
  · exact hrep.backing
  · exact WriteBackCache.lines_write_self data
  · constructor
    case words =>
      intro other hother
      by_cases heq : other = slot
      · rw [heq, hself, pointer.getObjectAddr_setDirty _ hpresent]
        exact ⟨pointer.isPresent_setDirty _ hpresent, haddr⟩
      · rw [hmetas other heq]
        exact hlocal.words other hother
    case stored =>
      obtain ⟨stored, hstored, hdsId, hobjId, -⟩ := hlocal.stored
      rw [hobj, Option.some.injEq] at hstored
      subst hstored
      refine ⟨{ obj with data := data }, ?_, hdsId, hobjId, rfl⟩
      rw [writeData, haddr, Heap.objects_setMeta, Heap.objects_putObject_self]
    case dirty =>
      simp only [true_iff]
      exact ⟨slot, hslot, by rw [hself, pointer.isDirty_setDirty _ hpresent]⟩

/-- `swap_in` fetches a line, clean. -/
theorem swapIn (hobject : object ∈ layout.objects) (hslot : slot ∈ object.aliases)
    {objAddr : ℕ} (hbound : pointer.isPresent (heap.metas slot) = false →
      objAddr < pointer.addrBound) :
    Represents pointer object (SwapIn.swapIn pointer layout.ring heap slot objAddr)
      (cache.load object.objId) := by
  cases hpresent : pointer.isPresent (heap.metas slot) with
  | true =>
      obtain ⟨line, addr, hline, -⟩ := hrep.exists_local hslot hpresent
      rw [SwapIn.swapIn, if_pos hpresent, WriteBackCache.load_of_cached hline]
      exact hrep
  | false =>
      have hline := hrep.lines_eq_none hslot hpresent
      have hremote := hrep.remote hline
      obtain ⟨-, hdsId, hobjId⟩ := hremote slot hslot
      rw [SwapIn.swapIn, if_neg (by simp [hpresent]),
        WriteBackCache.load_of_uncached hline]
      simp only [hdsId, hobjId]
      apply of_local
      · intro other hother
        rw [Heap.metas_atomicIncRefCnt, hrep.metas_mapMetas hobject hslot _ _ hother,
          pointer.isShared_setPresent]
        exact hrep.shared other hother
      · simpa using hrep.backing
      · exact WriteBackCache.lines_setLine_self _
      · constructor
        case words =>
          intro other hother
          rw [Heap.metas_atomicIncRefCnt, hrep.metas_mapMetas hobject hslot _ _ hother,
            pointer.isPresent_setPresent,
            pointer.getObjectAddr_setPresent _ _ (hbound hpresent)]
          exact ⟨rfl, rfl⟩
        case stored =>
          apply Exists.intro
            { ptrAddr := slot
              dsId := object.dsId
              objId := object.objId
              objIdLen := 8
              data := heap.device object.dsId object.objId : Object }
          constructor
          · simp
          · exact ⟨rfl, rfl, hrep.backing.symm⟩
        case dirty =>
          simp only [Bool.false_eq_true, false_iff, not_exists, not_and]
          intro other hother
          rw [Heap.metas_atomicIncRefCnt, hrep.metas_mapMetas hobject hslot _ _ hother,
            pointer.isDirty_setPresent]
          exact Bool.false_ne_true

/-- A hot copy moves the line and keeps its dirty bit. -/
theorem hotCopy (hcopies : CopiesData notifiers) (hobject : object ∈ layout.objects)
    (hslot : slot ∈ object.aliases) {obj : Object} {newAddr : ℕ}
    (hobj : objectOf pointer heap slot = some obj)
    (hbound : newAddr < pointer.addrBound) :
    Represents pointer object
      (SwapOut.hotCopy pointer layout.ring notifiers heap slot obj newAddr) cache := by
  have hpresent := isPresent_of_objectOf hobj
  obtain ⟨line, addr, hline, hlocal⟩ := hrep.exists_local hslot hpresent
  rw [hlocal.objectOf_eq hslot] at hobj
  have hmetas : ∀ other ∈ object.aliases,
      (SwapOut.hotCopy pointer layout.ring notifiers heap slot obj newAddr).metas
        other = pointer.gcCopy (heap.metas other) newAddr :=
    fun other hother => hrep.metas_mapMetas hobject hslot _ _ hother
  apply of_local
  · intro other hother
    rw [hmetas other hother, pointer.isShared_gcCopy _ _ (hlocal.words other hother).1]
    exact hrep.shared other hother
  · simpa [SwapOut.hotCopy] using hrep.backing
  · exact hline
  · apply hlocal.of_words newAddr
    · intro other hother hlive
      rw [hmetas other hother, pointer.isPresent_gcCopy _ _ hlive]
    · intro other hother hlive
      rw [hmetas other hother, pointer.getObjectAddr_gcCopy _ _ hlive hbound]
    · intro other hother hlive
      rw [hmetas other hother, pointer.isDirty_gcCopy _ _ hlive]
    · simp [SwapOut.hotCopy, copyObject_eq hcopies, hobj]

/-- A write-back evicts the line: the device gets it exactly when it is dirty. -/
theorem writeBack (kHeaderSize : ℕ) (hvanilla : notifiers.evac object.dsId = none)
    (hobject : object ∈ layout.objects) (hslot : slot ∈ object.aliases) {obj : Object}
    (choices : SwapOutChoices) (hobj : objectOf pointer heap slot = some obj) :
    Represents pointer object
      (SwapOut.writeBack pointer layout.ring kHeaderSize notifiers heap slot obj
        (SwapOut.flagsOf pointer layout.ring choices heap slot).dirty)
      (cache.evict object.objId) := by
  obtain ⟨line, hline, hdirtyLine, hdsId, hobjId, hdata⟩ :=
    hrep.exists_line_of_objectOf hslot hobj
  have hdirty : (SwapOut.flagsOf pointer layout.ring choices heap slot).dirty =
      line.dirty := by
    rw [SwapOut.dirty_flagsOf, Bool.eq_iff_iff, List.any_eq_true, hdirtyLine]
    simp only [(hrep.aliasesOf_perm hobject hslot).mem_iff]
  have hstep := SwapOut.writeBack_of_no_notifier pointer layout.ring kHeaderSize
    notifiers obj line.dirty heap slot (hdsId.symm ▸ hvanilla)
  have hmetas : ∀ other ∈ object.aliases,
      (SwapOut.writeBack pointer layout.ring kHeaderSize notifiers heap slot
        obj line.dirty).metas other =
          pointer.gcWb (heap.metas other) object.dsId (obj.size kHeaderSize)
            object.objId := by
    intro other hother
    rw [hstep, SwapOut.gcWbAll, aliasesOf, SwapOut.metas_writeObjectFn, ← aliasesOf,
      hrep.metas_mapMetas hobject hslot _ _ hother, SwapOut.metas_writeObjectFn,
      hdsId, hobjId]
  rw [hdirty]
  constructor
  case shared =>
    intro other hother
    rw [hmetas other hother, pointer.isShared_gcWb]
    exact hrep.shared other hother
  case backing =>
    rw [WriteBackCache.backing_evict_self hline, hstep, SwapOut.device_gcWbAll,
      ← hdsId, ← hobjId, SwapOut.device_writeObjectFn_self, List.take_length, hdata,
      hdsId, hobjId, hrep.backing]
  case cached =>
    intro other hother
    rw [WriteBackCache.lines_evict_self] at hother
    cases hother
  case remote =>
    intro _ other hother
    rw [hmetas other hother]
    constructor
    · exact pointer.isPresent_gcWb ..
    · constructor
      · exact pointer.getDsId_gcWb _ _ _ _ (layout.dsId_lt object hobject)
      · exact pointer.getObjectId_gcWb _ _ _ _ (layout.objId_lt object hobject)

end Represents

end OneObject

/-! ## All objects -/

section AllObjects

variable {pointer layout kHeaderSize notifiers}
variable {heap next : Heap Meta} {cache after : WriteBackCache ℕ Bytes}
variable {object : Tracked} {slot : Slot} {addr : ℕ}

/-- No other object is local at the address. -/
def Exclusive (pointer : FarMemPtrMeta Meta) (layout : Layout) (heap : Heap Meta)
    (object : Tracked) (addr : ℕ) : Prop :=
  ∀ other ∈ layout.objects, other ≠ object → ∀ slot ∈ other.aliases,
    pointer.isPresent (heap.metas slot) = true →
      pointer.getObjectAddr (heap.metas slot) ≠ addr

theorem Unused.exclusive (hunused : Unused pointer layout heap addr) :
    Exclusive pointer layout heap object addr :=
  fun other hother _ slot hslot => hunused other hother slot hslot

/-- What an operation on one object may change: the words of its pointers, what
is stored at one address, which is the object's, and its remote copy. -/
structure Confined (pointer : FarMemPtrMeta Meta) (object : Tracked) (addr : ℕ)
    (heap next : Heap Meta) : Prop where
  metas : ∀ slot, slot ∉ object.aliases → next.metas slot = heap.metas slot
  objects : ∀ other, other ≠ addr → next.objects other = heap.objects other
  device : ∀ dsId objId, objId ≠ object.objId →
    next.device dsId objId = heap.device dsId objId
  words : ∀ slot ∈ object.aliases, pointer.isPresent (next.metas slot) = true →
    pointer.getObjectAddr (next.metas slot) = addr

namespace Inv

variable (hinv : Inv pointer layout heap cache)

include hinv

/-- The frame rule: an operation on one object needs only a proof about it. -/
theorem update (hobject : object ∈ layout.objects)
    (hexclusive : Exclusive pointer layout heap object addr)
    (hconfined : Confined pointer object addr heap next)
    (hagree : after.AgreeOff object.objId cache)
    (hrep : Represents pointer object next after) (hcoherent : after.Coherent) :
    Inv pointer layout next after := by
  have hmetas : ∀ other ∈ layout.objects, other ≠ object → ∀ slot ∈ other.aliases,
      next.metas slot = heap.metas slot := by
    intro other hother hne slot hslot
    apply hconfined.metas
    exact layout.disjoint other hother object hobject hne hslot
  constructor
  case represents =>
    intro other hother
    by_cases heq : other = object
    · exact heq ▸ hrep
    · have hid : other.objId ≠ object.objId :=
        fun hsame => heq (layout.ids other hother object hobject hsame)
      apply (hinv.represents other hother).congr (layout.nonempty other hother)
      · exact fun slot hslot => .inl (hmetas other hother heq slot hslot)
      · intro slot hslot hpresent
        exact hconfined.objects _ (hexclusive other hother heq slot hslot hpresent)
      · exact hconfined.device _ _ hid
      · exact (hagree _ hid).1
      · exact (hagree _ hid).2
  case separate =>
    intro first hfirst second hsecond hne slot hslot rival hrival
    by_cases heq : first = object
    · subst first
      rw [hmetas second hsecond (Ne.symm hne) rival hrival]
      intro hpresent hother hsame
      rw [hconfined.words slot hslot hpresent] at hsame
      exact hexclusive second hsecond (Ne.symm hne) rival hrival hother hsame.symm
    · rw [hmetas first hfirst heq slot hslot]
      by_cases hsecondEq : second = object
      · subst second
        intro hother hpresent hsame
        rw [hconfined.words rival hrival hpresent] at hsame
        exact hexclusive first hfirst heq slot hslot hother hsame
      · rw [hmetas second hsecond hsecondEq rival hrival]
        exact hinv.separate first hfirst second hsecond hne slot hslot rival hrival
  case coherent => exact hcoherent

/-- The address that a local pointer holds is its object's alone. -/
theorem exclusive (hobject : object ∈ layout.objects) (hslot : slot ∈ object.aliases)
    (hpresent : pointer.isPresent (heap.metas slot) = true) :
    Exclusive pointer layout heap object (pointer.getObjectAddr (heap.metas slot)) :=
  fun other hother hne rival hrival hother' =>
    hinv.separate other hother object hobject hne rival hrival slot hslot hother'
      hpresent

theorem writeData {obj : Object} (hobject : object ∈ layout.objects)
    (hslot : slot ∈ object.aliases) (hobj : objectOf pointer heap slot = some obj)
    (data : Bytes) :
    Inv pointer layout (writeData pointer heap slot obj data)
      (cache.write object.objId data) := by
  have hpresent := isPresent_of_objectOf hobj
  have hrep := (hinv.represents object hobject).write hslot hobj data
  apply hinv.update hobject (hinv.exclusive hobject hslot hpresent) _
    (WriteBackCache.agreeOff_write data) hrep (hinv.coherent.write data)
  constructor
  case metas =>
    intro other hother
    apply Heap.metas_setMeta_of_ne
    exact fun heq => hother (heq ▸ hslot)
  case objects => exact fun other hne => Heap.objects_putObject_of_ne _ _ hne
  case device => exact fun _ _ _ => rfl
  case words =>
    obtain ⟨newAddr, hlocal⟩ := hrep.cached _ (WriteBackCache.lines_write_self data)
    intro other hother _
    have hself : (Store.writeData pointer heap slot obj data).metas slot =
        pointer.setDirty (heap.metas slot) := Heap.metas_setMeta_self ..
    rw [(hlocal.words other hother).2, ← (hlocal.words slot hslot).2, hself,
      pointer.getObjectAddr_setDirty _ hpresent]

theorem swapIn (hobject : object ∈ layout.objects) (hslot : slot ∈ object.aliases)
    {objAddr : ℕ} (hservable : Servable pointer layout heap slot objAddr) :
    Inv pointer layout (swapIn pointer layout.ring heap slot objAddr)
      (cache.load object.objId) := by
  have hold := hinv.represents object hobject
  have hrep := hold.swapIn hobject hslot fun habsent => (hservable habsent).1
  cases hpresent : pointer.isPresent (heap.metas slot) with
  | true =>
      obtain ⟨line, -, hline, -⟩ := hold.exists_local hslot hpresent
      rw [SwapIn.swapIn, if_pos hpresent, WriteBackCache.load_of_cached hline]
      exact hinv
  | false =>
      obtain ⟨hbound, hunused⟩ := hservable hpresent
      apply hinv.update hobject hunused.exclusive _ WriteBackCache.agreeOff_load hrep
        hinv.coherent.load
      rw [SwapIn.swapIn, if_neg (by simp [hpresent])]
      constructor
      case metas =>
        intro other hother
        exact hold.metas_mapMetas_of_notMem hobject hslot _ _ hother
      case objects =>
        intro other hne
        simp [hne]
      case device => simp
      case words =>
        intro other hother _
        rw [Heap.metas_atomicIncRefCnt, hold.metas_mapMetas hobject hslot _ _ hother,
          pointer.getObjectAddr_setPresent _ _ hbound]

/-- Each exit of `swap_out` keeps the line or evicts it. -/
theorem swapOut {obj : Object} {choices : SwapOutChoices}
    (hcopies : CopiesData notifiers) (hvanilla : notifiers.evac object.dsId = none)
    (hobject : object ∈ layout.objects) (hslot : slot ∈ object.aliases)
    (hobj : objectOf pointer heap slot = some obj)
    (haddr : ∀ addr ∈ choices.newLocalObjectAddr,
      Allocatable pointer layout heap addr) :
    Inv pointer layout
        (swapOut pointer layout.ring kHeaderSize notifiers choices heap slot obj)
        cache ∨
      Inv pointer layout
        (swapOut pointer layout.ring kHeaderSize notifiers choices heap slot obj)
        (cache.evict object.objId) := by
  have hold := hinv.represents object hobject
  have hpresent := isPresent_of_objectOf hobj
  rcases SwapOut.swapOut_cases pointer layout.ring kHeaderSize notifiers choices heap
    slot obj with hunmarked | ⟨newAddr, hchoice, hhot⟩ | hwriteBack
  · rw [hunmarked]
    exact .inl hinv
  · rw [hhot]
    obtain ⟨hbound, hunused⟩ := haddr newAddr hchoice
    left
    apply hinv.update hobject hunused.exclusive _ (fun _ _ => ⟨rfl, rfl⟩)
      (hold.hotCopy hcopies hobject hslot hobj hbound) hinv.coherent
    constructor
    case metas =>
      intro other hother
      exact hold.metas_mapMetas_of_notMem hobject hslot _ _ hother
    case objects =>
      intro other hne
      simp [SwapOut.hotCopy, hne]
    case device => simp [SwapOut.hotCopy]
    case words =>
      obtain ⟨line, addr, -, hlocal⟩ := hold.exists_local hslot hpresent
      intro other hother _
      rw [SwapOut.hotCopy, Heap.metas_atomicIncRefCnt,
        hold.metas_mapMetas hobject hslot _ _ hother]
      exact pointer.getObjectAddr_gcCopy _ _ (hlocal.words other hother).1 hbound
  · rw [hwriteBack]
    have hrep := hold.writeBack kHeaderSize hvanilla hobject hslot choices hobj
    right
    apply hinv.update hobject (hinv.exclusive hobject hslot hpresent) _
      WriteBackCache.agreeOff_evict hrep hinv.coherent.evict
    obtain ⟨line, -, -, hdsId, hobjId, -⟩ := hold.exists_line_of_objectOf hslot hobj
    constructor
    case words =>
      intro other hother hpresentNext
      rw [(hrep.remote WriteBackCache.lines_evict_self other hother).1] at hpresentNext
      cases hpresentNext
    all_goals
      rw [SwapOut.writeBack_of_no_notifier _ _ _ _ _ _ _ _ (hdsId.symm ▸ hvanilla)]
    case metas =>
      intro other hother
      rw [SwapOut.gcWbAll, aliasesOf, SwapOut.metas_writeObjectFn, ← aliasesOf,
        hold.metas_mapMetas_of_notMem hobject hslot _ _ hother,
        SwapOut.metas_writeObjectFn]
    case objects => simp
    case device =>
      intro dsId objId hne
      rw [SwapOut.device_gcWbAll, SwapOut.device_writeObjectFn_of_ne]
      exact hobjId.symm ▸ hne

/-- Flags of a local pointer's word do not concern its object. -/
theorem retag {word : Meta} (hsame : SameObject pointer (heap.metas slot) word) :
    Inv pointer layout (heap.setMeta slot word) cache := by
  have hmetas : ∀ other, (heap.setMeta slot word).metas other = heap.metas other ∨
      SameObject pointer (heap.metas other) ((heap.setMeta slot word).metas other) := by
    intro other
    by_cases heq : other = slot
    · subst other
      rw [Heap.metas_setMeta_self]
      exact .inr hsame
    · exact .inl (Heap.metas_setMeta_of_ne _ _ heq)
  have hword : ∀ other,
      pointer.isPresent ((heap.setMeta slot word).metas other) =
          pointer.isPresent (heap.metas other) ∧
        pointer.getObjectAddr ((heap.setMeta slot word).metas other) =
          pointer.getObjectAddr (heap.metas other) := by
    intro other
    rcases hmetas other with heq | ⟨hpresent, hnext, -, -, haddr⟩
    · rw [heq]
      exact ⟨rfl, rfl⟩
    · exact ⟨hnext.trans hpresent.symm, haddr⟩
  constructor
  case represents =>
    intro object hobject
    exact (hinv.represents object hobject).congr (layout.nonempty object hobject)
      (fun other _ => hmetas other) (fun _ _ _ => rfl) rfl rfl rfl
  case separate =>
    intro first hfirst second hsecond hne other hother rival hrival
    rw [(hword other).1, (hword rival).1, (hword other).2, (hword rival).2]
    exact hinv.separate first hfirst second hsecond hne other hother rival hrival
  case coherent => exact hinv.coherent

end Inv

/-- Each step of the heap is one operation of the cache: it changes what a read
returns exactly as plain memory does. -/
theorem Inv.step (hcopies : CopiesData notifiers)
    (hvanilla : ∀ object ∈ layout.objects, notifiers.evac object.dsId = none)
    (hinv : Inv pointer layout heap cache) {action : Action Meta}
    (hstep : step pointer layout kHeaderSize notifiers heap action = some next) :
    ∃ after, Inv pointer layout next after ∧
      after.read = applyWrite cache.read action := by
  cases action with
  | write object slot data =>
      rw [Store.step] at hstep
      cases hobj : objectOf pointer heap slot with
      | none => simp [hobj] at hstep
      | some obj =>
          rw [hobj, Option.ite_none_right_eq_some, Option.some.injEq] at hstep
          obtain ⟨⟨hobject, hslot, -⟩, rfl⟩ := hstep
          exact ⟨_, hinv.writeData hobject hslot hobj data,
            WriteBackCache.read_write data⟩
  | read object slot objAddr | swapIn object slot objAddr =>
      rw [Store.step, Option.ite_none_right_eq_some, Option.some.injEq] at hstep
      obtain ⟨⟨hobject, hslot, hservable⟩, rfl⟩ := hstep
      exact ⟨_, hinv.swapIn hobject hslot hservable, WriteBackCache.read_load⟩
  | swapOut object slot choices =>
      rw [Store.step] at hstep
      cases hobj : objectOf pointer heap slot with
      | none => simp [hobj] at hstep
      | some obj =>
          rw [hobj, Option.ite_none_right_eq_some, Option.some.injEq] at hstep
          obtain ⟨⟨hobject, hslot, haddr⟩, rfl⟩ := hstep
          rcases hinv.swapOut hcopies (hvanilla object hobject) hobject hslot hobj haddr
            with hkept | hevicted
          · exact ⟨_, hkept, rfl⟩
          · exact ⟨_, hevicted, hinv.coherent.read_evict⟩
  | retag slot word =>
      rw [Store.step, Option.ite_none_right_eq_some, Option.some.injEq] at hstep
      obtain ⟨hsame, rfl⟩ := hstep
      exact ⟨_, hinv.retag hsame, rfl⟩

/-- A store keeps the length: it is checked against the object in place. -/
theorem Inv.length_applyWrite (hinv : Inv pointer layout heap cache)
    {action : Action Meta}
    (hstep : Store.step pointer layout kHeaderSize notifiers heap action = some next)
    (key : ℕ) :
    (applyWrite cache.read action key).length = (cache.read key).length := by
  cases action with
  | write object slot data =>
      rw [Store.step] at hstep
      cases hobj : objectOf pointer heap slot with
      | none => simp [hobj] at hstep
      | some obj =>
          rw [hobj, Option.ite_none_right_eq_some] at hstep
          obtain ⟨⟨hobject, hslot, hlength⟩, -⟩ := hstep
          obtain ⟨line, hline, -, -, -, hdata⟩ :=
            (hinv.represents object hobject).exists_line_of_objectOf hslot hobj
          rw [applyWrite]
          by_cases hkey : key = object.objId
          · rw [hkey, Function.update_self, hlength, hdata, WriteBackCache.read, hline]
          · rw [Function.update_of_ne hkey]
  | _ => rfl

/-- A run of the heap is a run of the cache, whose reads are plain memory's. -/
theorem Inv.run {memory : ℕ → Bytes} (hcopies : CopiesData notifiers)
    (hvanilla : ∀ object ∈ layout.objects, notifiers.evac object.dsId = none)
    (hinv : Inv pointer layout heap cache) {actions : List (Action Meta)}
    {final : Heap Meta}
    (hrun : (machine pointer layout kHeaderSize notifiers memory).run heap actions =
      some final) :
    ∃ after, Inv pointer layout final after ∧
      after.read = actions.foldl applyWrite cache.read ∧
      ∀ key, (after.read key).length = (cache.read key).length := by
  induction actions generalizing heap cache with
  | nil =>
      rw [Library.Machine.run_nil, Option.some.injEq] at hrun
      exact ⟨cache, hrun ▸ hinv, rfl, fun _ => rfl⟩
  | cons action actions ih =>
      obtain ⟨next, hstep, hrest⟩ := Library.Machine.run_cons.mp hrun
      obtain ⟨middle, hmiddle, hread⟩ := hinv.step hcopies hvanilla hstep
      obtain ⟨after, hafter, hreads, hlengths⟩ := ih hmiddle hrest
      refine ⟨after, hafter, ?_, ?_⟩
      · rw [hreads, hread, List.foldl_cons]
      · intro key
        rw [hlengths key, hread]
        exact hinv.length_applyWrite hstep key

/-- The cache of freshly allocated objects: every line is dirty. -/
def freshCache (layout : Layout) (memory : ℕ → Bytes) (heap : Heap Meta) :
    WriteBackCache ℕ Bytes where
  lines key := (layout.objects.find? (·.objId == key)).map fun _ => ⟨memory key, true⟩
  backing key := ((layout.objects.find? (·.objId == key)).map fun object =>
    heap.device object.dsId key).getD (memory key)

theorem Layout.find?_objId (layout : Layout) (hobject : object ∈ layout.objects) :
    layout.objects.find? (·.objId == object.objId) = some object := by
  cases hfind : layout.objects.find? (·.objId == object.objId) with
  | none =>
      have hnone := List.find?_eq_none.mp hfind object hobject
      simp at hnone
  | some other =>
      have hmem := List.mem_of_find?_eq_some hfind
      have hid : other.objId = object.objId := by
        simpa using List.find?_some hfind
      rw [layout.ids other hmem object hobject hid]

theorem read_freshCache (memory : ℕ → Bytes) :
    (freshCache layout memory heap).read = memory := by
  funext key
  cases hfind : layout.objects.find? (·.objId == key) with
  | none => simp [WriteBackCache.read, freshCache, hfind]
  | some object => simp [WriteBackCache.read, freshCache, hfind]

theorem Fresh.inv {memory : ℕ → Bytes} (hfresh : Fresh pointer layout memory heap) :
    Inv pointer layout heap (freshCache layout memory heap) := by
  constructor
  case represents =>
    intro object hobject
    obtain ⟨addr, hlocal⟩ := hfresh.allocated object hobject
    have hfind := layout.find?_objId hobject
    apply Represents.of_local (hfresh.shared object hobject) _ _ hlocal
    · simp [freshCache, hfind]
    · simp [freshCache, hfind]
  case separate =>
    intro first hfirst second hsecond hne slot hslot rival hrival _ _
    exact hfresh.separate first hfirst second hsecond hne slot hslot rival hrival
  case coherent =>
    intro key line hline hclean
    obtain ⟨object, -, rfl⟩ := Option.map_eq_some_iff.mp hline
    cases hclean

/-- A dereference returns the object's line. -/
theorem Inv.deref (hinv : Inv pointer layout heap cache)
    (hobject : object ∈ layout.objects) (hslot : slot ∈ object.aliases) {objAddr : ℕ}
    (hservable : Servable pointer layout heap slot objAddr) :
    ∃ obj, deref pointer layout heap slot objAddr = some obj ∧
      obj.data = cache.read object.objId ∧ obj.dsId = object.dsId := by
  have hrep := (hinv.swapIn hobject hslot hservable).represents object hobject
  cases hline : (cache.load object.objId).lines object.objId with
  | none =>
      rw [WriteBackCache.load] at hline
      cases hcached : cache.lines object.objId <;> simp [hcached] at hline
  | some line =>
      obtain ⟨addr, hlocal⟩ := hrep.cached line hline
      obtain ⟨obj, hobj, hdsId, -, hdata⟩ := hlocal.stored
      refine ⟨obj, ?_, ?_, hdsId⟩
      · rw [Store.deref, hlocal.objectOf_eq hslot, hobj]
      · rw [hdata, ← WriteBackCache.read_load, WriteBackCache.read, hline]

/-- After any run, a read of an object through any of its pointers returns the
bytes last written to it. -/
theorem deref_eq_lastWritten {memory : ℕ → Bytes} (hcopies : CopiesData notifiers)
    (hvanilla : ∀ object ∈ layout.objects, notifiers.evac object.dsId = none)
    {heap final : Heap Meta} (hfresh : Fresh pointer layout memory heap)
    {actions : List (Action Meta)}
    (hrun : (machine pointer layout kHeaderSize notifiers memory).run heap actions =
      some final)
    {object : Tracked} (hobject : object ∈ layout.objects)
    {slot : Slot} (hslot : slot ∈ object.aliases) {objAddr : ℕ}
    (hservable : Servable pointer layout final slot objAddr) :
    ∃ obj, deref pointer layout final slot objAddr = some obj ∧
      obj.data = actions.foldl applyWrite memory object.objId ∧
      obj.data.length = (memory object.objId).length ∧
      obj.dsId = object.dsId := by
  obtain ⟨cache, hinv, hread, hlength⟩ := hfresh.inv.run hcopies hvanilla hrun
  rw [read_freshCache] at hread hlength
  obtain ⟨obj, hderef, hdata, hdsId⟩ := hinv.deref hobject hslot hservable
  refine ⟨obj, hderef, ?_, ?_, hdsId⟩
  · rw [hdata, hread]
  · rw [hdata]
    exact hlength object.objId

end AllObjects

/-! ## A unique and a shared object -/

/-- Object 7 has a unique pointer, object 8 two shared ones. -/
def pairLayout : Layout where
  objects := [⟨[64], false, 1, 7⟩, ⟨[80, 96], true, 1, 8⟩]
  ring slot := if slot = 80 then [80, 96] else [96, 80]
  nonempty := by decide
  nodup := by decide
  disjoint := by simp
  unique := by decide
  ring_perm := by decide
  ids := by decide
  dsId_lt := by decide
  objId_lt := by decide

/-- Local words at 1030 and 2054; of the shared pointers only 80 is dirty. -/
def pairHeap : Heap ℕ where
  metas slot := if slot = 64 then 0x82C0000 else if slot = 80 then 0x102C0200
    else 0x102C0600
  objects addr := if addr = 1030 then some ⟨64, 1, 7, 8, [1, 2], false⟩
    else if addr = 2054 then some ⟨80, 1, 8, 8, [3], false⟩ else none
  device _ _ := []
  refCnt _ := 0

def pairMemory (key : ℕ) : Bytes :=
  if key = 7 then [1, 2] else [3]

/-- One data structure copies by a notifier, none claims evictions. -/
def copyingNotifiers : Notifiers ℕ where
  copy _ := some fun dest src => { dest with data := src.data }
  evac _ := none

/-- Both objects are written and marked; the unique one moves by a hot copy, the
shared one is written back, read through its other pointer and written again. -/
def pairRun : List (Action ℕ) :=
  [.write ⟨[64], false, 1, 7⟩ 64 [5, 6], .write ⟨[80, 96], true, 1, 8⟩ 96 [9],
    .retag 64 0x82D0000, .retag 80 0x102D0200,
    .swapOut ⟨[64], false, 1, 7⟩ 64 ⟨fun _ => false, false, some 3078⟩,
    .swapOut ⟨[80, 96], true, 1, 8⟩ 80 ⟨fun _ => false, true, none⟩,
    .read ⟨[80, 96], true, 1, 8⟩ 96 4102, .write ⟨[80, 96], true, 1, 8⟩ 80 [4]]

theorem fresh_pairHeap :
    Fresh (FarMemPtrMeta.pointerHpp 16) pairLayout pairMemory pairHeap := by
  constructor
  case allocated =>
    simp only [pairLayout, List.forall_mem_cons]
    refine ⟨⟨1030, ?_, ⟨_, rfl, rfl, rfl, rfl⟩, ?_⟩,
      ⟨2054, ?_, ⟨_, rfl, rfl, rfl, rfl⟩, ?_⟩, by simp⟩
    all_goals decide
  case shared => decide
  case separate => decide

theorem copiesData_copyingNotifiers : CopiesData copyingNotifiers := by
  rintro dsId notifier ⟨⟩ dest src
  rfl

def pairFinal : Heap ℕ :=
  ((machine (FarMemPtrMeta.pointerHpp 16) pairLayout 16 copyingNotifiers
    pairMemory).run pairHeap pairRun).getD pairHeap

theorem run_pairRun :
    (machine (FarMemPtrMeta.pointerHpp 16) pairLayout 16 copyingNotifiers
      pairMemory).run pairHeap pairRun = some pairFinal := rfl

theorem deref_eq_lastWritten_pairRun :
    ∃ obj, deref (FarMemPtrMeta.pointerHpp 16) pairLayout pairFinal 96 5126 =
        some obj ∧
      obj.data = [4] ∧ obj.data.length = 1 ∧ obj.dsId = 1 := by
  have hshared : ⟨[80, 96], true, 1, 8⟩ ∈ pairLayout.objects := by decide
  exact deref_eq_lastWritten copiesData_copyingNotifiers (fun _ _ => rfl)
    fresh_pairHeap run_pairRun hshared (by decide) (by decide)

end DynamicSwap.Store
