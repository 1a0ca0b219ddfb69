import DynamicSwap.Library.Arenas
import DynamicSwap.Swap.ByteLevel
import DynamicSwap.Swap.Refinement

/-!
# The bytes spell the heap

Every run of `swap_in`, `swap_out` and the mutators on bytes is a run of the
heap, object by object, as long as allocations hand out bytes that no local
object has and every id has eight bytes.  An operation on one object writes no
byte of another, and a dereference finds the bytes last written.
-/

namespace DynamicSwap.ByteLevel

open Library (Extent)
open Library.ByteMemory
open NonBlocking (ObjectFormat)
open Store (Tracked Layout Action SameObject Represents Local)
open SwapIn (aliasesOf)
open SwapOut (flagsOf)

variable {Meta : Type}

/-! ## The machine on bytes -/

section Machine

variable (pointer : FarMemPtrMeta Meta) (layout : Layout)
variable {kHeaderSize : ℕ} (format : ObjectFormat kHeaderSize)
variable (notifiers : ByteNotifiers Meta)

/-- No byte of a local object is among the `size` bytes at the address. -/
def Vacant (cache : Cache Meta) (addr count : ℕ) : Prop :=
  addr < pointer.addrBound ∧ ∀ object ∈ layout.objects, ∀ slot ∈ object.aliases,
    pointer.isPresent (cache.metas slot) = true →
      Apart addr count (pointer.getObjectAddr (cache.metas slot))
        (size format cache.memory (pointer.getObjectAddr (cache.metas slot)))

instance (cache : Cache Meta) (addr count : ℕ) :
    Decidable (Vacant pointer layout format cache addr count) :=
  inferInstanceAs (Decidable (_ ∧ ∀ object ∈ layout.objects, ∀ slot ∈ object.aliases, _ → _))

/-- A dereference allocates the size in the word, and only for a remote object. -/
def Servable (cache : Cache Meta) (slot : Slot) (objAddr : ℕ) : Prop :=
  pointer.isPresent (cache.metas slot) = false →
    Vacant pointer layout format cache objAddr (pointer.getObjectSize (cache.metas slot))

instance (cache : Cache Meta) (slot : Slot) (objAddr : ℕ) :
    Decidable (Servable pointer layout format cache slot objAddr) :=
  inferInstanceAs (Decidable (_ → _))

def step (cache : Cache Meta) : Action Meta → Option (Cache Meta)
  | .write object slot data =>
      if pointer.isPresent (cache.metas slot) = true ∧ object ∈ layout.objects ∧
          slot ∈ object.aliases ∧
          data.length =
            dataLen format cache.memory (pointer.getObjectAddr (cache.metas slot)) then
        some (writeData pointer kHeaderSize cache slot data)
      else none
  | .read object slot objAddr | .swapIn object slot objAddr =>
      if object ∈ layout.objects ∧ slot ∈ object.aliases ∧
          Servable pointer layout format cache slot objAddr then
        some (swapIn pointer layout.ring format cache slot objAddr)
      else none
  | .swapOut object slot choices =>
      let objAddr := pointer.getObjectAddr (cache.metas slot)
      if pointer.isPresent (cache.metas slot) = true ∧ object ∈ layout.objects ∧
          slot ∈ object.aliases ∧
          ∀ addr ∈ choices.newLocalObjectAddr,
            Vacant pointer layout format cache addr (size format cache.memory objAddr) then
        some (swapOut pointer layout.ring format notifiers choices cache slot objAddr)
      else none
  | .retag slot word =>
      if SameObject pointer (cache.metas slot) word then
        some (cache.onPlain fun heap => heap.setMeta slot word)
      else none

/-- The heap of the objects that the bytes spell. -/
def decode (cache : Cache Meta) : Heap Meta where
  metas := cache.metas
  objects addr := some (objectAt format cache.memory addr)
  device := cache.device
  refCnt := cache.refCnt

/-- A local object is spelled by bytes of its own, with an id of eight bytes; the
word of a remote one holds the size that `swap_in` fills. -/
structure Spelled (object : Tracked) (cache : Cache Meta) (heap : Heap Meta) : Prop where
  stored : ∀ slot ∈ object.aliases, pointer.isPresent (cache.metas slot) = true →
    heap.objects (pointer.getObjectAddr (cache.metas slot)) =
      some (objectAt format cache.memory (pointer.getObjectAddr (cache.metas slot)))
  idLen : ∀ slot ∈ object.aliases, pointer.isPresent (cache.metas slot) = true →
    objIdLen format cache.memory (pointer.getObjectAddr (cache.metas slot)) = 8
  fits : ∀ slot ∈ object.aliases, pointer.isPresent (cache.metas slot) = true →
    size format cache.memory (pointer.getObjectAddr (cache.metas slot)) < 2 ^ 16
  remote : ∀ slot ∈ object.aliases, pointer.isPresent (cache.metas slot) = false →
    pointer.getObjectSize (cache.metas slot) =
        kHeaderSize + (cache.device object.dsId object.objId).length + 8 ∧
      pointer.getObjectSize (cache.metas slot) < 2 ^ 16

/-- Different local objects have no byte in common. -/
def Separated (cache : Cache Meta) : Prop :=
  ∀ object ∈ layout.objects, ∀ other ∈ layout.objects, object ≠ other →
    ∀ slot ∈ object.aliases, ∀ rival ∈ other.aliases,
      pointer.isPresent (cache.metas slot) = true →
      pointer.isPresent (cache.metas rival) = true →
        Apart (pointer.getObjectAddr (cache.metas slot))
          (size format cache.memory (pointer.getObjectAddr (cache.metas slot)))
          (pointer.getObjectAddr (cache.metas rival))
          (size format cache.memory (pointer.getObjectAddr (cache.metas rival)))

/-- The bytes spell the heap. -/
structure Encodes (cache : Cache Meta) (heap : Heap Meta) : Prop where
  metas : heap.metas = cache.metas
  device : heap.device = cache.device
  refCnt : heap.refCnt = cache.refCnt
  spelled : ∀ object ∈ layout.objects, Spelled pointer format object cache heap
  separated : Separated pointer layout format cache

/-- The header can name every pointer. -/
def Nameable : Prop :=
  ∀ object ∈ layout.objects, ∀ slot ∈ object.aliases, 0 < slot ∧ slot < format.slotBound

/-- The bytes of the local object that a pointer names. -/
def extent (cache : Cache Meta) (slot : Slot) : Extent where
  start := pointer.getObjectAddr (cache.metas slot)
  length := size format cache.memory (pointer.getObjectAddr (cache.metas slot))

/-- The bytes of all local objects. -/
def occupied (cache : Cache Meta) : Set Extent :=
  {bytes | ∃ object ∈ layout.objects, ∃ slot ∈ object.aliases,
    pointer.isPresent (cache.metas slot) = true ∧ bytes = extent pointer format cache slot}

/-- The bytes that an action may write: data in place, or the space that it
allocates. -/
def footprint (cache : Cache Meta) : Action Meta → Set ℕ
  | .write _ slot data =>
      Set.Ico (pointer.getObjectAddr (cache.metas slot) + kHeaderSize)
        (pointer.getObjectAddr (cache.metas slot) + kHeaderSize + data.length)
  | .read _ slot objAddr | .swapIn _ slot objAddr =>
      if pointer.isPresent (cache.metas slot) then ∅
      else Set.Ico objAddr (objAddr + pointer.getObjectSize (cache.metas slot))
  | .swapOut _ slot choices =>
      {address | ∃ newAddr ∈ choices.newLocalObjectAddr, address ∈ Set.Ico newAddr
        (newAddr + size format cache.memory (pointer.getObjectAddr (cache.metas slot)))}
  | .retag _ _ => ∅

/-- The space that an action allocates. -/
def allocated (cache : Cache Meta) : Action Meta → Set Extent
  | .read _ slot objAddr | .swapIn _ slot objAddr =>
      if pointer.isPresent (cache.metas slot) then ∅
      else {⟨objAddr, pointer.getObjectSize (cache.metas slot)⟩}
  | .swapOut _ slot choices =>
      {bytes | ∃ newAddr ∈ choices.newLocalObjectAddr, bytes =
        ⟨newAddr, size format cache.memory (pointer.getObjectAddr (cache.metas slot))⟩}
  | .write _ _ _ | .retag _ _ => ∅

end Machine

section Simulation

variable {pointer : FarMemPtrMeta Meta} {layout : Layout}
variable {kHeaderSize : ℕ} {format : ObjectFormat kHeaderSize}
variable {notifiers : ByteNotifiers Meta}
variable {cache next : Cache Meta} {heap after : Heap Meta}
variable {object : Tracked} {slot : Slot}

theorem metas_mapMetas_congr {first second : Heap Meta} (hmetas : first.metas = second.metas)
    (aliases : List Slot) (setter : Meta → Meta) :
    (first.mapMetas aliases setter).metas = (second.mapMetas aliases setter).metas := by
  induction aliases generalizing first second with
  | nil => exact hmetas
  | cons head aliases ih =>
      have hhead : (first.setMeta head (setter (first.metas head))).metas =
          (second.setMeta head (setter (second.metas head))).metas := by
        rw [Heap.setMeta, Heap.setMeta, hmetas]
      exact ih hhead

theorem aliasesOf_congr {first second : Heap Meta} (hmetas : first.metas = second.metas)
    (ring : Slot → List Slot) (ptr : Slot) :
    aliasesOf pointer ring first ptr = aliasesOf pointer ring second ptr := by
  rw [aliasesOf, aliasesOf, hmetas]

theorem flagsOf_congr {first second : Heap Meta} (hmetas : first.metas = second.metas)
    (ring : Slot → List Slot) (choices : SwapOutChoices) (ptr : Slot) :
    flagsOf pointer ring choices first ptr = flagsOf pointer ring choices second ptr := by
  simp only [flagsOf, hmetas, aliasesOf_congr hmetas]

theorem size_pos {memory : Memory} {addr : ℕ} (hlen : objIdLen format memory addr = 8) :
    0 < size format memory addr := by
  rw [size, hlen]
  omega

/-- What an operation on one object does: it writes bytes that no other object has,
and if the object is local afterwards these are its bytes. -/
structure Update (pointer : FarMemPtrMeta Meta) (layout : Layout)
    (format : ObjectFormat kHeaderSize) (object : Tracked) (start count : ℕ)
    (cache next : Cache Meta) (heap after : Heap Meta) : Prop where
  pos : 0 < count
  metas : after.metas = next.metas
  device : after.device = next.device
  refCnt : after.refCnt = next.refCnt
  confined : Store.Confined pointer object start heap after
  memory : Set.EqOn next.memory cache.memory (Set.Ico start (start + count))ᶜ
  clear : ∀ other ∈ layout.objects, other ≠ object → ∀ rival ∈ other.aliases,
    pointer.isPresent (cache.metas rival) = true →
      Apart start count (pointer.getObjectAddr (cache.metas rival))
        (size format cache.memory (pointer.getObjectAddr (cache.metas rival)))
  length : ∀ slot ∈ object.aliases, pointer.isPresent (next.metas slot) = true →
    size format next.memory start = count
  spelled : Spelled pointer format object next after

section Frame

variable {start count : ℕ}

theorem Update.getObjectAddr (hupdate : Update pointer layout format object start count cache
    next heap after) (hslot : slot ∈ object.aliases)
    (hpresent : pointer.isPresent (next.metas slot) = true) :
    pointer.getObjectAddr (next.metas slot) = start := by
  rw [← hupdate.metas] at hpresent ⊢
  exact hupdate.confined.words slot hslot hpresent

variable {other : Tracked} {rival : Slot}

/-- The words of the other objects. -/
theorem Update.metas_eq (hupdate : Update pointer layout format object start count cache
    next heap after) (hencodes : Encodes pointer layout format cache heap)
    (hobject : object ∈ layout.objects) (hother : other ∈ layout.objects)
    (hne : other ≠ object) (hrival : rival ∈ other.aliases) :
    next.metas rival = cache.metas rival := by
  rw [← hupdate.metas, ← hencodes.metas]
  exact hupdate.confined.metas rival (layout.disjoint other hother object hobject hne hrival)

/-- The bytes of the other objects. -/
theorem Update.objectAt_eq (hupdate : Update pointer layout format object start count cache
    next heap after) (hencodes : Encodes pointer layout format cache heap)
    (hother : other ∈ layout.objects) (hne : other ≠ object) (hrival : rival ∈ other.aliases)
    (hpresent : pointer.isPresent (cache.metas rival) = true) :
    objectAt format next.memory (pointer.getObjectAddr (cache.metas rival)) =
      objectAt format cache.memory (pointer.getObjectAddr (cache.metas rival)) := by
  have hapart := hupdate.clear other hother hne rival hrival hpresent
  apply objectAt_congr ((hencodes.spelled other hother).idLen rival hrival hpresent)
  apply hupdate.memory.mono
  intro address haddress hwritten
  rw [Set.mem_Ico] at haddress hwritten
  rw [Apart] at hapart
  omega

theorem Update.spelled_other (hupdate : Update pointer layout format object start count cache
    next heap after) (hencodes : Encodes pointer layout format cache heap)
    (hobject : object ∈ layout.objects) (hother : other ∈ layout.objects)
    (hne : other ≠ object) : Spelled pointer format other next after := by
  have hold := hencodes.spelled other hother
  have hid : other.objId ≠ object.objId :=
    fun hsame => hne (layout.ids other hother object hobject hsame)
  constructor
  all_goals
    intro rival hrival hpresent
    rw [hupdate.metas_eq hencodes hobject hother hne hrival] at hpresent ⊢
  case stored =>
    rw [hupdate.objectAt_eq hencodes hother hne hrival hpresent,
      ← hold.stored rival hrival hpresent]
    apply hupdate.confined.objects
    have hapart := hupdate.clear other hother hne rival hrival hpresent
    have hpos := size_pos (hold.idLen rival hrival hpresent)
    have hcount := hupdate.pos
    rw [Apart] at hapart
    omega
  case idLen =>
    have hsame := hupdate.objectAt_eq hencodes hother hne hrival hpresent
    exact (congrArg Object.objIdLen hsame).trans (hold.idLen rival hrival hpresent)
  case fits =>
    rw [size_congr (hupdate.objectAt_eq hencodes hother hne hrival hpresent)]
    exact hold.fits rival hrival hpresent
  case remote =>
    have hsame : next.device other.dsId other.objId = cache.device other.dsId other.objId := by
      rw [← hupdate.device, ← hencodes.device]
      exact hupdate.confined.device _ _ hid
    rw [hsame]
    exact hold.remote rival hrival hpresent

/-- Another local object was local before, with the same bytes. -/
theorem Update.extent_eq (hupdate : Update pointer layout format object start count cache
    next heap after) (hencodes : Encodes pointer layout format cache heap)
    (hobject : object ∈ layout.objects) (hother : other ∈ layout.objects)
    (hne : other ≠ object) (hrival : rival ∈ other.aliases)
    (hpresent : pointer.isPresent (next.metas rival) = true) :
    pointer.isPresent (cache.metas rival) = true ∧
      extent pointer format next rival = extent pointer format cache rival := by
  have hword := hupdate.metas_eq hencodes hobject hother hne hrival
  rw [hword] at hpresent
  have hsame := hupdate.objectAt_eq hencodes hother hne hrival hpresent
  exact ⟨hpresent, by rw [extent, hword, size_congr hsame, extent]⟩

/-- If the object is local, its bytes are those that were written. -/
theorem Update.extent_self (hupdate : Update pointer layout format object start count cache
    next heap after) (hslot : slot ∈ object.aliases)
    (hpresent : pointer.isPresent (next.metas slot) = true) :
    extent pointer format next slot = ⟨start, count⟩ := by
  have haddr : pointer.getObjectAddr (next.metas slot) = start := by
    rw [← hupdate.metas] at hpresent ⊢
    exact hupdate.confined.words slot hslot hpresent
  rw [extent, haddr, hupdate.length slot hslot hpresent]

/-- The frame rule: an operation on one object needs only a proof about it. -/
theorem Encodes.update (hencodes : Encodes pointer layout format cache heap)
    (hobject : object ∈ layout.objects)
    (hupdate : Update pointer layout format object start count cache next heap after) :
    Encodes pointer layout format next after := by
  have hclear : ∀ other ∈ layout.objects, other ≠ object → ∀ rival ∈ other.aliases,
      ∀ slot ∈ object.aliases, pointer.isPresent (next.metas slot) = true →
        pointer.isPresent (next.metas rival) = true →
          (extent pointer format next slot).Apart (extent pointer format next rival) := by
    intro other hother hne rival hrival slot hslot hpresent hlive
    obtain ⟨hbefore, hsame⟩ := hupdate.extent_eq hencodes hobject hother hne hrival hlive
    rw [hupdate.extent_self hslot hpresent, hsame]
    exact hupdate.clear other hother hne rival hrival hbefore
  constructor
  case metas => exact hupdate.metas
  case device => exact hupdate.device
  case refCnt => exact hupdate.refCnt
  case spelled =>
    intro other hother
    by_cases heq : other = object
    · exact heq ▸ hupdate.spelled
    · exact hupdate.spelled_other hencodes hobject hother heq
  case separated =>
    intro first hfirst second hsecond hne slot hslot rival hrival hpresent hlive
    by_cases hfirstEq : first = object
    · subst first
      exact hclear second hsecond (Ne.symm hne) rival hrival slot hslot hpresent hlive
    · by_cases hsecondEq : second = object
      · subst second
        exact (hclear first hfirst hfirstEq slot hslot rival hrival hlive hpresent).symm
      · obtain ⟨hbefore, hsame⟩ :=
          hupdate.extent_eq hencodes hobject hfirst hfirstEq hslot hpresent
        obtain ⟨hlast, hother⟩ :=
          hupdate.extent_eq hencodes hobject hsecond hsecondEq hrival hlive
        have happart : (extent pointer format next slot).Apart
            (extent pointer format next rival) := by
          rw [hsame, hother]
          exact hencodes.separated first hfirst second hsecond hne slot hslot rival hrival
            hbefore hlast
        exact happart

/-- An operation occupies no other bytes than those it writes. -/
theorem Update.occupied_subset (hupdate : Update pointer layout format object start count
    cache next heap after) (hencodes : Encodes pointer layout format cache heap)
    (hobject : object ∈ layout.objects) :
    occupied pointer layout format next ⊆
      insert ⟨start, count⟩ (occupied pointer layout format cache) := by
  rintro bytes ⟨other, hother, rival, hrival, hpresent, rfl⟩
  by_cases heq : other = object
  · subst other
    exact .inl (hupdate.extent_self hrival hpresent)
  · obtain ⟨hbefore, hsame⟩ := hupdate.extent_eq hencodes hobject hother heq hrival hpresent
    exact .inr ⟨other, hother, rival, hrival, hbefore, hsame⟩

/-- An object that is not local afterwards occupies no bytes. -/
theorem Update.occupied_subset_of_absent (hupdate : Update pointer layout format object start
    count cache next heap after) (hencodes : Encodes pointer layout format cache heap)
    (hobject : object ∈ layout.objects)
    (habsent : ∀ slot ∈ object.aliases, ¬pointer.isPresent (next.metas slot) = true) :
    occupied pointer layout format next ⊆ occupied pointer layout format cache := by
  rintro bytes ⟨other, hother, rival, hrival, hpresent, rfl⟩
  by_cases heq : other = object
  · subst other
    exact absurd hpresent (habsent rival hrival)
  · obtain ⟨hbefore, hsame⟩ := hupdate.extent_eq hencodes hobject hother heq hrival hpresent
    exact ⟨other, hother, rival, hrival, hbefore, hsame⟩

end Frame

theorem Spelled.of_local {addr : ℕ}
    (hwords : ∀ slot ∈ object.aliases, pointer.isPresent (next.metas slot) = true ∧
      pointer.getObjectAddr (next.metas slot) = addr)
    (hstored : after.objects addr = some (objectAt format next.memory addr))
    (hlen : objIdLen format next.memory addr = 8)
    (hfits : size format next.memory addr < 2 ^ 16) :
    Spelled pointer format object next after := by
  constructor
  case remote =>
    intro slot hslot habsent
    rw [(hwords slot hslot).1] at habsent
    cases habsent
  all_goals
    intro slot hslot _
    rw [(hwords slot hslot).2]
  case stored => exact hstored
  case idLen => exact hlen
  case fits => exact hfits

/-- An operation on an object that is local afterwards and writes its own bytes. -/
theorem Update.of_local (addr : ℕ)
    (hmetas : after.metas = next.metas) (hdevice : after.device = next.device)
    (hrefCnt : after.refCnt = next.refCnt)
    (hconfined : Store.Confined pointer object addr heap after)
    (hwords : ∀ slot ∈ object.aliases, pointer.isPresent (next.metas slot) = true ∧
      pointer.getObjectAddr (next.metas slot) = addr)
    (hstored : after.objects addr = some (objectAt format next.memory addr))
    (hlen : objIdLen format next.memory addr = 8) {count : ℕ}
    (hsize : size format next.memory addr = count) (hfits : count < 2 ^ 16)
    (hmemory : Set.EqOn next.memory cache.memory (Set.Ico addr (addr + count))ᶜ)
    (hclear : ∀ other ∈ layout.objects, other ≠ object → ∀ rival ∈ other.aliases,
      pointer.isPresent (cache.metas rival) = true →
        Apart addr count (pointer.getObjectAddr (cache.metas rival))
          (size format cache.memory (pointer.getObjectAddr (cache.metas rival)))) :
    Update pointer layout format object addr count cache next heap after := by
  have hspelled : Spelled pointer format object next after :=
    .of_local hwords hstored hlen (hsize ▸ hfits)
  exact ⟨hsize ▸ size_pos hlen, hmetas, hdevice, hrefCnt, hconfined, hmemory, hclear,
    fun _ _ _ => hsize, hspelled⟩

/-! ### Each operation -/

variable {contents : Library.WriteBackCache ℕ Store.Bytes}

/-- What the invariants say of an object that is local at an address. -/
structure Resident (pointer : FarMemPtrMeta Meta) (layout : Layout)
    (format : ObjectFormat kHeaderSize) (object : Tracked) (addr : ℕ) (cache : Cache Meta)
    (heap : Heap Meta) : Prop where
  words : ∀ slot ∈ object.aliases, pointer.isPresent (heap.metas slot) = true ∧
    pointer.getObjectAddr (heap.metas slot) = addr
  stored : heap.objects addr = some (objectAt format cache.memory addr)
  idLen : objIdLen format cache.memory addr = 8
  fits : size format cache.memory addr < 2 ^ 16
  clear : ∀ other ∈ layout.objects, other ≠ object → ∀ rival ∈ other.aliases,
    pointer.isPresent (cache.metas rival) = true →
      Apart addr (size format cache.memory addr) (pointer.getObjectAddr (cache.metas rival))
        (size format cache.memory (pointer.getObjectAddr (cache.metas rival)))

theorem Encodes.exists_resident (hencodes : Encodes pointer layout format cache heap)
    (hinv : Store.Inv pointer layout heap contents)
    (hobject : object ∈ layout.objects) (hslot : slot ∈ object.aliases)
    (hpresent : pointer.isPresent (cache.metas slot) = true) :
    ∃ addr, pointer.getObjectAddr (cache.metas slot) = addr ∧
      Resident pointer layout format object addr cache heap := by
  have hspelled := hencodes.spelled object hobject
  have hlive := hpresent
  rw [← hencodes.metas] at hlive
  obtain ⟨line, addr, -, hlocal⟩ :=
    (hinv.represents object hobject).exists_local hslot hlive
  have haddr : pointer.getObjectAddr (cache.metas slot) = addr := by
    rw [← hencodes.metas]
    exact (hlocal.words slot hslot).2
  subst haddr
  refine ⟨_, rfl, hlocal.words, hspelled.stored slot hslot hpresent,
    hspelled.idLen slot hslot hpresent, hspelled.fits slot hslot hpresent, ?_⟩
  exact fun other hother hne rival hrival hlive =>
    hencodes.separated object hobject other hother (Ne.symm hne) slot hslot rival hrival
      hpresent hlive

variable {addr : ℕ}

theorem Resident.objectOf_eq (hresident : Resident pointer layout format object addr cache heap)
    (hslot : slot ∈ object.aliases) :
    Store.objectOf pointer heap slot = some (objectAt format cache.memory addr) := by
  obtain ⟨hpresent, haddr⟩ := hresident.words slot hslot
  rw [Store.objectOf, if_pos hpresent, haddr, hresident.stored]

theorem Resident.update_writeData
    (hresident : Resident pointer layout format object addr cache heap)
    (hencodes : Encodes pointer layout format cache heap) (hslot : slot ∈ object.aliases)
    {data : List (BitVec 8)} (hlength : data.length = dataLen format cache.memory addr) :
    Update pointer layout format object addr (size format cache.memory addr) cache
      (writeData pointer kHeaderSize cache slot data) heap
      (Store.writeData pointer heap slot (objectAt format cache.memory addr) data) := by
  obtain ⟨hpresent, haddr⟩ := hresident.words slot hslot
  have hmemory : (writeData pointer kHeaderSize cache slot data).memory =
      store cache.memory (addr + kHeaderSize) data := by
    rw [← haddr, hencodes.metas]
    rfl
  have hmetas : (Store.writeData pointer heap slot (objectAt format cache.memory addr)
      data).metas = (writeData pointer kHeaderSize cache slot data).metas := by
    rw [Store.writeData, hencodes.metas]
    exact congrArg (Function.update · _ _) hencodes.metas
  have hself : (Store.writeData pointer heap slot (objectAt format cache.memory addr)
      data).metas slot = pointer.setDirty (heap.metas slot) := Heap.metas_setMeta_self ..
  have hrest : ∀ other, other ≠ slot → (Store.writeData pointer heap slot
      (objectAt format cache.memory addr) data).metas other = heap.metas other :=
    fun other hne => Heap.metas_setMeta_of_ne _ _ hne
  have hwords : ∀ other ∈ object.aliases,
      pointer.isPresent ((Store.writeData pointer heap slot
          (objectAt format cache.memory addr) data).metas other) = true ∧
        pointer.getObjectAddr ((Store.writeData pointer heap slot
          (objectAt format cache.memory addr) data).metas other) = addr := by
    intro other hother
    by_cases heq : other = slot
    · subst heq
      rw [hself, pointer.isPresent_setDirty _ hpresent, pointer.getObjectAddr_setDirty _ hpresent]
      exact ⟨rfl, haddr⟩
    · rw [hrest other heq]
      exact hresident.words other hother
  have hspelled := objectAt_store hlength
  have hsize : size format (store cache.memory (addr + kHeaderSize) data) addr =
      size format cache.memory addr := by
    rw [← size_objectAt, hspelled, Object.size, hlength]
    rfl
  have hlen : objIdLen format (store cache.memory (addr + kHeaderSize) data) addr = 8 :=
    (congrArg Object.objIdLen hspelled).trans hresident.idLen
  apply Update.of_local addr hmetas
  case hdevice => exact hencodes.device
  case hrefCnt => exact hencodes.refCnt
  case hconfined =>
    constructor
    case metas => exact fun other hother => hrest other fun heq => hother (heq ▸ hslot)
    case objects =>
      intro other hother
      rw [← haddr] at hother
      exact Heap.objects_putObject_of_ne _ _ hother
    case device => exact fun _ _ _ => rfl
    case words => exact fun other hother _ => (hwords other hother).2
  case hwords => exact hmetas ▸ hwords
  case hstored =>
    rw [hmemory, hspelled, Store.writeData, haddr]
    exact Heap.objects_putObject_self ..
  case hlen => rw [hmemory, hlen]
  case hsize => rw [hmemory, hsize]
  case hfits => exact hresident.fits
  case hmemory =>
    rw [hmemory]
    apply eqOn_store.mono
    apply Set.compl_subset_compl.mpr
    rw [hlength, size]
    exact Set.Ico_subset_Ico (by omega) (by omega)
  case hclear => exact hresident.clear

/-- What a word says of a remote object. -/
theorem remote_of_absent (hinv : Store.Inv pointer layout heap contents)
    (hobject : object ∈ layout.objects) (hslot : slot ∈ object.aliases)
    (habsent : pointer.isPresent (heap.metas slot) = false) :
    pointer.getDsId (heap.metas slot) = object.dsId ∧
      pointer.getObjectId (heap.metas slot) = object.objId := by
  have hrep := hinv.represents object hobject
  exact (hrep.remote (hrep.lines_eq_none hslot habsent) slot hslot).2

/-- A setter that reaches every alias does the same on bytes and on the heap. -/
theorem metas_traverse (first second plain : Heap Meta) (hfirst : first.metas = heap.metas)
    (hsecond : second.metas = heap.metas) (hplain : plain.metas = heap.metas)
    (ring : Slot → List Slot) (setter : Meta → Meta) :
    (first.mapMetas (aliasesOf pointer ring heap slot) setter).metas =
      (second.mapMetas (aliasesOf pointer ring plain slot) setter).metas := by
  rw [aliasesOf_congr hplain]
  exact metas_mapMetas_congr (hfirst.trans hsecond.symm) _ _

theorem update_swapIn (hencodes : Encodes pointer layout format cache heap)
    (hinv : Store.Inv pointer layout heap contents) (hnameable : Nameable layout format)
    (hobject : object ∈ layout.objects) (hslot : slot ∈ object.aliases)
    (habsent : pointer.isPresent (cache.metas slot) = false)
    (hvacant : Vacant pointer layout format cache addr
      (pointer.getObjectSize (cache.metas slot))) :
    Update pointer layout format object addr (pointer.getObjectSize (cache.metas slot)) cache
      (swapIn pointer layout.ring format cache slot addr) heap
      (SwapIn.swapIn pointer layout.ring heap slot addr) := by
  have hrep := hinv.represents object hobject
  have hremote := habsent
  rw [← hencodes.metas] at hremote
  obtain ⟨hdsId, hobjId⟩ := remote_of_absent hinv hobject hslot hremote
  obtain ⟨hsize, hfits⟩ := (hencodes.spelled object hobject).remote slot hslot habsent
  obtain ⟨hptr, hbound⟩ := hnameable object hobject slot hslot
  have hlength : (cache.device object.dsId object.objId).length < 2 ^ 16 := by omega
  have hobjIdLt : object.objId < 2 ^ 64 :=
    (layout.objId_lt object hobject).trans (by norm_num)
  have hmemory : (swapIn pointer layout.ring format cache slot addr).memory =
      writeObject format cache.memory slot addr object.dsId object.objId
        (cache.device object.dsId object.objId) := by
    rw [swapIn, if_neg (by simp [habsent]), ← hencodes.metas, hdsId, hobjId]
    rfl
  have hwritten : objectAt format (swapIn pointer layout.ring format cache slot addr).memory
      addr =
        { ptrAddr := slot
          dsId := object.dsId
          objId := object.objId
          objIdLen := 8
          data := cache.device object.dsId object.objId } := by
    rw [hmemory]
    exact objectAt_writeObject hptr hbound (layout.dsId_lt object hobject) hobjIdLt hlength
  have hafter : size format (swapIn pointer layout.ring format cache slot addr).memory addr =
      pointer.getObjectSize (cache.metas slot) := by
    rw [← size_objectAt, hwritten, Object.size, hsize]
  have hmetas : (SwapIn.swapIn pointer layout.ring heap slot addr).metas =
      (swapIn pointer layout.ring format cache slot addr).metas := by
    rw [SwapIn.swapIn, if_neg (by simp [hremote]), swapIn, if_neg (by simp [habsent])]
    have hplain : cache.plain.metas = heap.metas := hencodes.metas.symm
    exact metas_traverse ((heap.atomicIncRefCnt addr 1).putObject addr _)
      (cache.plain.atomicIncRefCnt addr 1) cache.plain rfl hplain hplain layout.ring _
  have hword : ∀ other ∈ object.aliases,
      (SwapIn.swapIn pointer layout.ring heap slot addr).metas other =
        pointer.setPresent (heap.metas other) addr := by
    intro other hother
    rw [SwapIn.swapIn, if_neg (by simp [hremote])]
    exact hrep.metas_mapMetas hobject hslot _ _ hother
  have hwords : ∀ other ∈ object.aliases,
      pointer.isPresent ((SwapIn.swapIn pointer layout.ring heap slot addr).metas other) =
          true ∧
        pointer.getObjectAddr
          ((SwapIn.swapIn pointer layout.ring heap slot addr).metas other) = addr := by
    intro other hother
    rw [hword other hother]
    exact ⟨pointer.isPresent_setPresent _ _, pointer.getObjectAddr_setPresent _ _ hvacant.1⟩
  apply Update.of_local addr hmetas
  case hdevice =>
    rw [SwapIn.swapIn, if_neg (by simp [hremote]), swapIn, if_neg (by simp [habsent])]
    simp [Cache.onPlain, Cache.plain, Cache.setMemory, hencodes.device]
  case hrefCnt =>
    rw [SwapIn.swapIn, if_neg (by simp [hremote]), swapIn, if_neg (by simp [habsent])]
    simp [Cache.onPlain, Cache.plain, Cache.setMemory, Heap.atomicIncRefCnt, hencodes.refCnt]
  case hconfined =>
    rw [SwapIn.swapIn, if_neg (by simp [hremote])] at hwords ⊢
    constructor
    case metas =>
      exact fun other hother => hrep.metas_mapMetas_of_notMem hobject hslot _ _ hother
    case objects =>
      intro other hne
      simp [hne]
    case device => simp
    case words => exact fun other hother _ => (hwords other hother).2
  case hwords => exact hmetas ▸ hwords
  case hstored =>
    rw [hwritten, SwapIn.swapIn, if_neg (by simp [hremote])]
    simp [hdsId, hobjId, hencodes.device]
  case hlen => exact (congrArg Object.objIdLen hwritten)
  case hsize => exact hafter
  case hfits => exact hfits
  case hmemory =>
    rw [hmemory, hsize]
    exact eqOn_writeObject
  case hclear =>
    exact fun other hother _ rival hrival hlive => hvacant.2 other hother rival hrival hlive

theorem copiesData_heapNotifiers : Store.CopiesData (heapNotifiers notifiers) := by
  intro dsId notifier hnotifier dest src
  rw [heapNotifiers, Option.map_eq_some_iff] at hnotifier
  obtain ⟨_, -, rfl⟩ := hnotifier
  rfl

theorem Resident.update_hotCopy
    (hresident : Resident pointer layout format object addr cache heap)
    (hencodes : Encodes pointer layout format cache heap)
    (hinv : Store.Inv pointer layout heap contents) (hcopies : CopiesBytes format notifiers)
    (hobject : object ∈ layout.objects) (hslot : slot ∈ object.aliases) {newAddr : ℕ}
    (hvacant : Vacant pointer layout format cache newAddr (size format cache.memory addr)) :
    Update pointer layout format object newAddr (size format cache.memory addr) cache
      (hotCopy pointer layout.ring format notifiers cache slot addr newAddr) heap
      (SwapOut.hotCopy pointer layout.ring (heapNotifiers notifiers) heap slot
        (objectAt format cache.memory addr) newAddr) := by
  have hrep := hinv.represents object hobject
  have hwordsOld := hresident.words
  have hapart : Apart newAddr (size format cache.memory addr) addr
      (size format cache.memory addr) := by
    obtain ⟨hpresent, haddr⟩ := hwordsOld slot hslot
    have hall := hvacant.2 object hobject slot hslot
    rw [← hencodes.metas, haddr] at hall
    exact hall hpresent
  have hcopied := copied_copyObject hcopies hresident.idLen hapart
  have hmemory : (hotCopy pointer layout.ring format notifiers cache slot addr newAddr).memory =
      copyObject format notifiers cache.memory addr newAddr := rfl
  have hspelled : objectAt format
      (hotCopy pointer layout.ring format notifiers cache slot addr newAddr).memory newAddr =
        objectAt format cache.memory addr :=
    objectAt_of_eq hresident.idLen fun offset hoffset =>
      hcopied.bytes offset ⟨Nat.zero_le _, hoffset⟩
  have hplain : cache.plain.metas = heap.metas := hencodes.metas.symm
  have hmetas : (SwapOut.hotCopy pointer layout.ring (heapNotifiers notifiers) heap slot
      (objectAt format cache.memory addr) newAddr).metas =
        (hotCopy pointer layout.ring format notifiers cache slot addr newAddr).metas :=
    metas_traverse ((heap.atomicIncRefCnt newAddr 1).putObject newAddr _)
      (cache.plain.atomicIncRefCnt newAddr 1) cache.plain rfl hplain hplain layout.ring _
  have hwords : ∀ other ∈ object.aliases,
      pointer.isPresent ((SwapOut.hotCopy pointer layout.ring (heapNotifiers notifiers) heap
          slot (objectAt format cache.memory addr) newAddr).metas other) = true ∧
        pointer.getObjectAddr ((SwapOut.hotCopy pointer layout.ring (heapNotifiers notifiers)
          heap slot (objectAt format cache.memory addr) newAddr).metas other) = newAddr := by
    intro other hother
    have hword := hrep.metas_mapMetas hobject hslot
      ((heap.atomicIncRefCnt newAddr 1).putObject newAddr (some (SwapOut.copyObject
        (heapNotifiers notifiers) (objectAt format cache.memory addr))))
      (fun word => pointer.gcCopy word newAddr) hother
    have hlive := (hwordsOld other hother).1
    rw [SwapOut.hotCopy, Heap.metas_atomicIncRefCnt, hword]
    exact ⟨pointer.isPresent_gcCopy _ _ hlive,
      pointer.getObjectAddr_gcCopy _ _ hlive hvacant.1⟩
  apply Update.of_local newAddr hmetas
  case hdevice =>
    simp [SwapOut.hotCopy, hotCopy, Cache.onPlain, Cache.plain, Cache.setMemory,
      hencodes.device]
  case hrefCnt =>
    simp [SwapOut.hotCopy, hotCopy, Cache.onPlain, Cache.plain, Cache.setMemory,
      Heap.atomicIncRefCnt, hencodes.refCnt]
  case hconfined =>
    constructor
    case metas =>
      exact fun other hother => hrep.metas_mapMetas_of_notMem hobject hslot _ _ hother
    case objects =>
      intro other hne
      simp [SwapOut.hotCopy, hne]
    case device => simp [SwapOut.hotCopy]
    case words => exact fun other hother _ => (hwords other hother).2
  case hwords => exact hmetas ▸ hwords
  case hstored =>
    rw [hspelled]
    simp [SwapOut.hotCopy, Store.copyObject_eq copiesData_heapNotifiers]
  case hlen => exact (congrArg Object.objIdLen hspelled).trans hresident.idLen
  case hsize => exact size_congr hspelled
  case hfits => exact hresident.fits
  case hmemory =>
    rw [hmemory]
    exact hcopied.eqOn
  case hclear =>
    exact fun other hother _ rival hrival hlive => hvacant.2 other hother rival hrival hlive

/-- After a write-back the device has the object's data, written now or, for a
clean object, before. -/
theorem device_of_writeBack (hinv : Store.Inv pointer layout heap contents)
    {line : Library.Line Store.Bytes} (hline : contents.lines object.objId = some line)
    (hafter : Represents pointer object after (contents.evict object.objId)) :
    after.device object.dsId object.objId = line.value := by
  have hread : (contents.evict object.objId).read object.objId =
      contents.read object.objId := congrFun hinv.coherent.read_evict _
  rw [Library.WriteBackCache.read, Library.WriteBackCache.lines_evict_self,
    Library.WriteBackCache.read, hline] at hread
  exact hafter.backing.symm.trans hread

/-- `write_object` changes only the remote copy of a local object. -/
theorem Resident.encodes_writeObjectFn
    (hresident : Resident pointer layout format object addr cache heap)
    (hencodes : Encodes pointer layout format cache heap) (hobject : object ∈ layout.objects)
    (hobjId : objId format cache.memory addr = object.objId) (dirty : Bool) :
    Encodes pointer layout format
        (writeObjectFn format addr dirty (dataLen format cache.memory addr) cache)
        (SwapOut.writeObjectFn (objectAt format cache.memory addr) dirty
          (objectAt format cache.memory addr).data.length heap) ∧
      Resident pointer layout format object addr
        (writeObjectFn format addr dirty (dataLen format cache.memory addr) cache)
        (SwapOut.writeObjectFn (objectAt format cache.memory addr) dirty
          (objectAt format cache.memory addr).data.length heap) := by
  cases dirty with
  | false => exact ⟨hencodes, hresident⟩
  | true =>
      have hwords := hresident.words
      rw [hencodes.metas] at hwords
      constructor
      · apply hencodes.update hobject
        constructor
        case pos => exact size_pos hresident.idLen
        case metas => exact hencodes.metas
        case device =>
          have htake : (objectAt format cache.memory addr).data.take
              (objectAt format cache.memory addr).data.length =
                load cache.memory (addr + kHeaderSize) (dataLen format cache.memory addr) :=
            List.take_length
          simp only [SwapOut.writeObjectFn, writeObjectFn, if_true, htake, Cache.onPlain,
            Heap.writeObject, Cache.plain, hencodes.device]
          rfl
        case refCnt => exact hencodes.refCnt
        case confined =>
          constructor
          case metas => exact fun _ _ => rfl
          case objects => exact fun _ _ => rfl
          case device =>
            intro otherDs other hne
            apply SwapOut.device_writeObjectFn_of_ne
            exact fun heq => hne (heq.trans hobjId)
          case words => exact fun other hother _ => (hresident.words other hother).2
        case memory => exact fun _ _ => rfl
        case clear => exact hresident.clear
        case length => exact fun _ _ _ => rfl
        case spelled =>
          exact .of_local hwords hresident.stored hresident.idLen hresident.fits
      · exact ⟨hresident.words, hresident.stored, hresident.idLen, hresident.fits,
          hresident.clear⟩

/-- `gc_wb` leaves no alias present, and the words that it stores hold the size
that `swap_in` fills. -/
theorem Resident.update_gcWbAll
    (hresident : Resident pointer layout format object addr cache heap)
    (hencodes : Encodes pointer layout format cache heap) (hobject : object ∈ layout.objects)
    (slot : Slot) (hperm : (aliasesOf pointer layout.ring heap slot).Perm object.aliases)
    (hdevice : (heap.device object.dsId object.objId).length =
      dataLen format cache.memory addr) :
    Update pointer layout format object addr (size format cache.memory addr) cache
        (gcWbAll pointer layout.ring format cache slot addr) heap
        (SwapOut.gcWbAll pointer layout.ring kHeaderSize heap slot
          (objectAt format cache.memory addr)) ∧
      ∀ other ∈ object.aliases, ¬pointer.isPresent
        ((gcWbAll pointer layout.ring format cache slot addr).metas other) = true := by
  have hplain : cache.plain.metas = heap.metas := hencodes.metas.symm
  have hmetas : (SwapOut.gcWbAll pointer layout.ring kHeaderSize heap slot
      (objectAt format cache.memory addr)).metas =
        (gcWbAll pointer layout.ring format cache slot addr).metas := by
    rw [SwapOut.gcWbAll, size_objectAt]
    exact metas_traverse heap cache.plain cache.plain rfl hplain hplain layout.ring _
  have hword : ∀ other ∈ object.aliases,
      (gcWbAll pointer layout.ring format cache slot addr).metas other =
        pointer.gcWb (heap.metas other) (dsId format cache.memory addr)
          (size format cache.memory addr) (objId format cache.memory addr) := by
    intro other hother
    rw [← hmetas, SwapOut.gcWbAll, size_objectAt]
    apply Heap.metas_mapMetas_of_mem
    · exact hperm.nodup_iff.mpr (layout.nodup object hobject)
    · exact hperm.mem_iff.mpr hother
  have hnot : ∀ other ∈ object.aliases, ¬pointer.isPresent
      ((gcWbAll pointer layout.ring format cache slot addr).metas other) = true := by
    intro other hother
    rw [hword other hother, pointer.isPresent_gcWb]
    exact Bool.false_ne_true
  have hsameDevice : (gcWbAll pointer layout.ring format cache slot addr).device =
      heap.device := by
    rw [gcWbAll, Cache.onPlain, hencodes.device]
    exact Heap.device_mapMetas ..
  refine ⟨?_, hnot⟩
  constructor
  case pos => exact size_pos hresident.idLen
  case metas => exact hmetas
  case device => rw [SwapOut.device_gcWbAll, hsameDevice]
  case refCnt =>
    simp [SwapOut.gcWbAll, gcWbAll, Cache.onPlain, Cache.plain, hencodes.refCnt]
  case confined =>
    constructor
    case metas =>
      intro other hother
      apply Heap.metas_mapMetas_of_notMem
      rw [hperm.mem_iff]
      exact hother
    case objects =>
      intro other _
      rw [SwapOut.objects_gcWbAll]
    case device =>
      intro _ _ _
      rw [SwapOut.device_gcWbAll]
    case words =>
      intro other hother hpresent
      rw [hmetas] at hpresent
      exact absurd hpresent (hnot other hother)
  case memory => exact fun _ _ => rfl
  case clear => exact hresident.clear
  case length => exact fun other hother hlive => absurd hlive (hnot other hother)
  case spelled =>
    constructor
    case remote =>
      intro other hother _
      rw [hword other hother, hsameDevice, pointer.getObjectSize_gcWb _ _ _ _ hresident.fits,
        hdevice]
      have hsize : size format cache.memory addr =
          kHeaderSize + dataLen format cache.memory addr + 8 := by
        rw [size, hresident.idLen]
      exact ⟨hsize, hresident.fits⟩
    all_goals exact fun other hother hlive => absurd hlive (hnot other hother)

theorem Resident.encodes_writeBack
    (hresident : Resident pointer layout format object addr cache heap)
    (hencodes : Encodes pointer layout format cache heap)
    (hinv : Store.Inv pointer layout heap contents)
    (hvanilla : notifiers.evac object.dsId = none)
    (hobject : object ∈ layout.objects) (hslot : slot ∈ object.aliases)
    (choices : SwapOutChoices) :
    Encodes pointer layout format
        (writeBack pointer layout.ring format notifiers cache slot addr
          (flagsOf pointer layout.ring choices heap slot).dirty)
        (SwapOut.writeBack pointer layout.ring kHeaderSize (heapNotifiers notifiers) heap slot
          (objectAt format cache.memory addr)
            (flagsOf pointer layout.ring choices heap slot).dirty) ∧
      occupied pointer layout format (writeBack pointer layout.ring format notifiers cache slot
          addr (flagsOf pointer layout.ring choices heap slot).dirty) ⊆
        occupied pointer layout format cache := by
  have hrep := hinv.represents object hobject
  have hobj := hresident.objectOf_eq hslot
  obtain ⟨line, hline, -, hdsId, hobjId, hdata⟩ := hrep.exists_line_of_objectOf hslot hobj
  have hafter : Represents pointer object
      (SwapOut.writeBack pointer layout.ring kHeaderSize (heapNotifiers notifiers) heap slot
        (objectAt format cache.memory addr)
          (flagsOf pointer layout.ring choices heap slot).dirty)
      (contents.evict object.objId) :=
    hrep.writeBack kHeaderSize rfl hobject hslot choices hobj
  have hdevice := device_of_writeBack hinv hline hafter
  generalize (flagsOf pointer layout.ring choices heap slot).dirty = dirty at hdevice ⊢
  have hevac : notifiers.evac (dsId format cache.memory addr) = none := by
    rw [← hvanilla]
    exact congrArg notifiers.evac hdsId
  rw [SwapOut.writeBack_of_no_notifier _ _ _ _ _ _ _ _ rfl, SwapOut.device_gcWbAll] at hdevice
  rw [SwapOut.writeBack_of_no_notifier _ _ _ _ _ _ _ _ rfl, writeBack, hevac]
  obtain ⟨hwritten, hstill⟩ :=
    hresident.encodes_writeObjectFn hencodes hobject hobjId dirty
  have hmemory : (writeObjectFn format addr dirty (dataLen format cache.memory addr)
      cache).memory = cache.memory := by
    cases dirty <;> rfl
  have hoccupied : occupied pointer layout format (writeObjectFn format addr dirty
      (dataLen format cache.memory addr) cache) = occupied pointer layout format cache := by
    cases dirty <;> rfl
  have hfinal := hstill.update_gcWbAll hwritten hobject slot
  rw [hmemory] at hfinal
  obtain ⟨hupdate, habsent⟩ := hfinal (by
    rw [aliasesOf, SwapOut.metas_writeObjectFn, ← aliasesOf]
    exact hrep.aliasesOf_perm hobject hslot) (by
    rw [hdevice, ← hdata]
    exact length_dataOf)
  rw [← hoccupied]
  exact ⟨hwritten.update hobject hupdate,
    hupdate.occupied_subset_of_absent hwritten hobject habsent⟩

/-- Both levels take the same exit of `swap_out`. -/
theorem Resident.encodes_swapOut
    (hresident : Resident pointer layout format object addr cache heap)
    (hencodes : Encodes pointer layout format cache heap)
    (hinv : Store.Inv pointer layout heap contents) (hcopies : CopiesBytes format notifiers)
    (hvanilla : notifiers.evac object.dsId = none)
    (hobject : object ∈ layout.objects) (hslot : slot ∈ object.aliases)
    {choices : SwapOutChoices}
    (hvacant : ∀ newAddr ∈ choices.newLocalObjectAddr,
      Vacant pointer layout format cache newAddr (size format cache.memory addr)) :
    Encodes pointer layout format
        (swapOut pointer layout.ring format notifiers choices cache slot addr)
        (SwapOut.swapOut pointer layout.ring kHeaderSize (heapNotifiers notifiers) choices heap
          slot (objectAt format cache.memory addr)) ∧
      occupied pointer layout format
          (swapOut pointer layout.ring format notifiers choices cache slot addr) ⊆
        {bytes | ∃ newAddr ∈ choices.newLocalObjectAddr,
          bytes = ⟨newAddr, size format cache.memory addr⟩} ∪
            occupied pointer layout format cache := by
  have hflags : flagsOf pointer layout.ring choices cache.plain slot =
      flagsOf pointer layout.ring choices heap slot := flagsOf_congr hencodes.metas.symm _ _ _
  obtain ⟨hwriteBack, hfewer⟩ :=
    hresident.encodes_writeBack hencodes hinv hvanilla hobject hslot choices
  rw [swapOut, SwapOut.swapOut, hencodes.metas, hflags]
  by_cases hmarked : pointer.isEvacuation (cache.metas slot) = true
  · rw [if_pos hmarked, if_pos hmarked]
    dsimp only
    split
    · cases hchoice : choices.newLocalObjectAddr with
      | none => exact ⟨hwriteBack, hfewer.trans Set.subset_union_right⟩
      | some newAddr =>
          have hupdate := hresident.update_hotCopy hencodes hinv hcopies hobject hslot
            (hvacant newAddr hchoice)
          refine ⟨hencodes.update hobject hupdate, ?_⟩
          apply (hupdate.occupied_subset hencodes hobject).trans
          exact Set.union_subset_union_left _ fun bytes hbytes => ⟨newAddr, rfl, hbytes⟩
    · exact ⟨hwriteBack, hfewer.trans Set.subset_union_right⟩
  · rw [if_neg hmarked, if_neg hmarked]
    exact ⟨hencodes, Set.subset_union_right⟩

theorem words_retag {word : Meta} (hsame : SameObject pointer (cache.metas slot) word)
    (other : Slot) :
    pointer.isPresent ((cache.onPlain fun heap => heap.setMeta slot word).metas other) =
        pointer.isPresent (cache.metas other) ∧
      pointer.getObjectAddr ((cache.onPlain fun heap => heap.setMeta slot word).metas other) =
        pointer.getObjectAddr (cache.metas other) := by
  by_cases heq : other = slot
  · have hself : (cache.onPlain fun heap => heap.setMeta slot word).metas slot = word :=
      Heap.metas_setMeta_self ..
    rw [heq, hself]
    exact ⟨hsame.2.1.trans hsame.1.symm, hsame.2.2.2.2⟩
  · have hrest : (cache.onPlain fun heap => heap.setMeta slot word).metas other =
        cache.metas other := Heap.metas_setMeta_of_ne _ _ heq
    rw [hrest]
    exact ⟨rfl, rfl⟩

theorem Encodes.retag (hencodes : Encodes pointer layout format cache heap) {word : Meta}
    (hsame : SameObject pointer (cache.metas slot) word) :
    Encodes pointer layout format (cache.onPlain fun heap => heap.setMeta slot word)
      (heap.setMeta slot word) := by
  have hpresent := fun other => (words_retag hsame other).1
  have haddr := fun other => (words_retag hsame other).2
  constructor
  case metas => exact congrArg (Function.update · _ _) hencodes.metas
  case device => exact hencodes.device
  case refCnt => exact hencodes.refCnt
  case spelled =>
    intro object hobject
    have hold := hencodes.spelled object hobject
    constructor
    case remote =>
      intro other hother habsent
      rw [hpresent] at habsent
      have hne : other ≠ slot := by
        rintro rfl
        rw [hsame.1] at habsent
        cases habsent
      have hrest : (cache.onPlain fun heap => heap.setMeta slot word).metas other =
          cache.metas other := Heap.metas_setMeta_of_ne _ _ hne
      rw [hrest]
      exact hold.remote other hother habsent
    all_goals
      intro other hother hlive
      rw [hpresent] at hlive
      rw [haddr]
    case stored => exact hold.stored other hother hlive
    case idLen => exact hold.idLen other hother hlive
    case fits => exact hold.fits other hother hlive
  case separated =>
    intro first hfirst second hsecond hne other hother rival hrival
    rw [hpresent, hpresent, haddr, haddr]
    exact hencodes.separated first hfirst second hsecond hne other hother rival hrival

/-! ### Runs -/

/-- Vacant bytes begin at an address that no local object has. -/
theorem Encodes.allocatable (hencodes : Encodes pointer layout format cache heap) {count : ℕ}
    (hcount : 0 < count) (hvacant : Vacant pointer layout format cache addr count) :
    Store.Allocatable pointer layout heap addr := by
  refine ⟨hvacant.1, fun other hother rival hrival hlive => ?_⟩
  rw [hencodes.metas] at hlive ⊢
  have hapart := hvacant.2 other hother rival hrival hlive
  have hpos := size_pos ((hencodes.spelled other hother).idLen rival hrival hlive)
  rw [Apart] at hapart
  omega

theorem Encodes.servable (hencodes : Encodes pointer layout format cache heap)
    (hobject : object ∈ layout.objects) (hslot : slot ∈ object.aliases)
    (hservable : Servable pointer layout format cache slot addr) :
    Store.Servable pointer layout heap slot addr := by
  intro habsent
  rw [hencodes.metas] at habsent
  have hremote := ((hencodes.spelled object hobject).remote slot hslot habsent).1
  exact hencodes.allocatable (by omega) (hservable habsent)

theorem Encodes.swapIn (hencodes : Encodes pointer layout format cache heap)
    (hinv : Store.Inv pointer layout heap contents) (hnameable : Nameable layout format)
    (hobject : object ∈ layout.objects) (hslot : slot ∈ object.aliases)
    (hservable : Servable pointer layout format cache slot addr) :
    Encodes pointer layout format (swapIn pointer layout.ring format cache slot addr)
      (SwapIn.swapIn pointer layout.ring heap slot addr) := by
  cases hpresent : pointer.isPresent (cache.metas slot) with
  | true =>
      rw [ByteLevel.swapIn, if_pos hpresent, SwapIn.swapIn,
        if_pos (hencodes.metas ▸ hpresent)]
      exact hencodes
  | false =>
      exact hencodes.update hobject
        (update_swapIn hencodes hinv hnameable hobject hslot hpresent (hservable hpresent))

/-- Every step on bytes is the step of the heap that the bytes spell. -/
theorem Encodes.step (hcopies : CopiesBytes format notifiers)
    (hvanilla : ∀ object ∈ layout.objects, notifiers.evac object.dsId = none)
    (hnameable : Nameable layout format)
    (hencodes : Encodes pointer layout format cache heap)
    (hinv : Store.Inv pointer layout heap contents) {action : Action Meta}
    (hstep : step pointer layout format notifiers cache action = some next) :
    ∃ after, Store.step pointer layout kHeaderSize (heapNotifiers notifiers) heap action =
        some after ∧ Encodes pointer layout format next after := by
  cases action with
  | write object slot data =>
      rw [ByteLevel.step, Option.ite_none_right_eq_some, Option.some.injEq] at hstep
      obtain ⟨⟨hpresent, hobject, hslot, hlength⟩, rfl⟩ := hstep
      obtain ⟨addr, haddr, hresident⟩ :=
        hencodes.exists_resident hinv hobject hslot hpresent
      rw [haddr] at hlength
      refine ⟨_, ?_,
        hencodes.update hobject (hresident.update_writeData hencodes hslot hlength)⟩
      have hsame : data.length = (objectAt format cache.memory addr).data.length :=
        hlength.trans length_dataOf.symm
      simp only [Store.step, hresident.objectOf_eq hslot]
      rw [if_pos ⟨hobject, hslot, hsame⟩]
  | read object slot objAddr | swapIn object slot objAddr =>
      rw [ByteLevel.step, Option.ite_none_right_eq_some, Option.some.injEq] at hstep
      obtain ⟨⟨hobject, hslot, hservable⟩, rfl⟩ := hstep
      refine ⟨_, ?_, hencodes.swapIn hinv hnameable hobject hslot hservable⟩
      rw [Store.step, if_pos ⟨hobject, hslot, hencodes.servable hobject hslot hservable⟩]
  | swapOut object slot choices =>
      simp only [ByteLevel.step, Option.ite_none_right_eq_some, Option.some.injEq] at hstep
      obtain ⟨⟨hpresent, hobject, hslot, hvacant⟩, rfl⟩ := hstep
      obtain ⟨addr, haddr, hresident⟩ :=
        hencodes.exists_resident hinv hobject hslot hpresent
      rw [haddr] at hvacant ⊢
      refine ⟨_, ?_, (hresident.encodes_swapOut hencodes hinv hcopies
        (hvanilla object hobject) hobject hslot hvacant).1⟩
      have hallocatable : ∀ newAddr ∈ choices.newLocalObjectAddr,
          Store.Allocatable pointer layout heap newAddr := fun newAddr hchoice =>
        hencodes.allocatable (size_pos hresident.idLen) (hvacant newAddr hchoice)
      simp only [Store.step, hresident.objectOf_eq hslot]
      rw [if_pos ⟨hobject, hslot, hallocatable⟩]
  | retag slot word =>
      rw [ByteLevel.step, Option.ite_none_right_eq_some, Option.some.injEq] at hstep
      obtain ⟨hsame, rfl⟩ := hstep
      refine ⟨_, ?_, hencodes.retag hsame⟩
      rw [Store.step, hencodes.metas, if_pos hsame]

/-- Wherever the object is, these are its bytes. -/
structure Holds (pointer : FarMemPtrMeta Meta) (format : ObjectFormat kHeaderSize)
    (object : Tracked) (bytes : Store.Bytes) (cache : Cache Meta) : Prop where
  present : ∀ slot ∈ object.aliases, pointer.isPresent (cache.metas slot) = true →
    dataOf format cache.memory (pointer.getObjectAddr (cache.metas slot)) = bytes ∧
      dsId format cache.memory (pointer.getObjectAddr (cache.metas slot)) = object.dsId ∧
      objId format cache.memory (pointer.getObjectAddr (cache.metas slot)) = object.objId
  remote : ∀ slot ∈ object.aliases, pointer.isPresent (cache.metas slot) = false →
    pointer.getDsId (cache.metas slot) = object.dsId ∧
      pointer.getObjectId (cache.metas slot) = object.objId ∧
      cache.device object.dsId object.objId = bytes

theorem Encodes.holds (hencodes : Encodes pointer layout format cache heap)
    (hinv : Store.Inv pointer layout heap contents) (hobject : object ∈ layout.objects) :
    Holds pointer format object (contents.read object.objId) cache := by
  have hrep := hinv.represents object hobject
  constructor
  case present =>
    intro slot hslot hpresent
    obtain ⟨addr, haddr, hresident⟩ :=
      hencodes.exists_resident hinv hobject hslot hpresent
    obtain ⟨line, hline, -, hdsId, hobjId, hdata⟩ :=
      hrep.exists_line_of_objectOf hslot (hresident.objectOf_eq hslot)
    rw [haddr, Library.WriteBackCache.read, hline]
    exact ⟨hdata, hdsId, hobjId⟩
  case remote =>
    intro slot hslot habsent
    rw [← hencodes.metas] at habsent
    have hnone := hrep.lines_eq_none hslot habsent
    obtain ⟨hdsId, hobjId⟩ := remote_of_absent hinv hobject hslot habsent
    rw [hencodes.metas] at hdsId hobjId
    rw [← hencodes.device, ← hrep.backing, Library.WriteBackCache.read, hnone]
    exact ⟨hdsId, hobjId, rfl⟩

/-! ### What a step writes -/

theorem Apart.disjoint {first firstSize second secondSize : ℕ}
    (hapart : Apart first firstSize second secondSize) :
    Disjoint (Set.Ico first (first + firstSize)) (Set.Ico second (second + secondSize)) := by
  rw [Set.disjoint_left]
  intro address hfirst hsecond
  rw [Set.mem_Ico] at hfirst hsecond
  rw [Apart] at hapart
  omega

theorem Resident.extent_eq (hresident : Resident pointer layout format object addr cache heap)
    (hencodes : Encodes pointer layout format cache heap) (hslot : slot ∈ object.aliases) :
    extent pointer format cache slot = ⟨addr, size format cache.memory addr⟩ := by
  have haddr := (hresident.words slot hslot).2
  rw [hencodes.metas] at haddr
  rw [extent, haddr]

/-- The size in the word of a remote object covers what the device returns. -/
theorem eqOn_swapIn (hencodes : Encodes pointer layout format cache heap)
    (hinv : Store.Inv pointer layout heap contents)
    (hobject : object ∈ layout.objects) (hslot : slot ∈ object.aliases)
    (habsent : pointer.isPresent (cache.metas slot) = false) :
    Set.EqOn (swapIn pointer layout.ring format cache slot addr).memory cache.memory
      (Set.Ico addr (addr + pointer.getObjectSize (cache.metas slot)))ᶜ := by
  have hremote := habsent
  rw [← hencodes.metas] at hremote
  obtain ⟨hdsId, hobjId⟩ := remote_of_absent hinv hobject hslot hremote
  rw [hencodes.metas] at hdsId hobjId
  have hsize := ((hencodes.spelled object hobject).remote slot hslot habsent).1
  apply (swapIn_inside_iff habsent _).mpr
  rw [hdsId, hobjId, hsize]

theorem eqOn_hotCopy {newAddr : ℕ} (hcopies : CopiesBytes format notifiers)
    (hlen : objIdLen format cache.memory addr = 8)
    (hapart : Apart newAddr (size format cache.memory addr) addr
      (size format cache.memory addr)) :
    Set.EqOn (hotCopy pointer layout.ring format notifiers cache slot addr newAddr).memory
      cache.memory (Set.Ico newAddr (newAddr + size format cache.memory addr))ᶜ :=
  (copied_copyObject hcopies hlen hapart).eqOn

theorem memory_writeBack (hevac : notifiers.evac (dsId format cache.memory addr) = none)
    (dirty : Bool) :
    (writeBack pointer layout.ring format notifiers cache slot addr dirty).memory =
      cache.memory := by
  rw [writeBack, hevac]
  cases dirty <;> rfl

theorem Resident.eqOn_swapOut
    (hresident : Resident pointer layout format object addr cache heap)
    (hencodes : Encodes pointer layout format cache heap)
    (hinv : Store.Inv pointer layout heap contents) (hcopies : CopiesBytes format notifiers)
    (hvanilla : notifiers.evac object.dsId = none)
    (hobject : object ∈ layout.objects) (hslot : slot ∈ object.aliases)
    {choices : SwapOutChoices}
    (hvacant : ∀ newAddr ∈ choices.newLocalObjectAddr,
      Vacant pointer layout format cache newAddr (size format cache.memory addr)) :
    Set.EqOn (swapOut pointer layout.ring format notifiers choices cache slot addr).memory
      cache.memory {address | ∃ newAddr ∈ choices.newLocalObjectAddr,
        address ∈ Set.Ico newAddr (newAddr + size format cache.memory addr)}ᶜ := by
  obtain ⟨line, -, -, hdsId, -⟩ :=
    (hinv.represents object hobject).exists_line_of_objectOf hslot (hresident.objectOf_eq hslot)
  have hevac : notifiers.evac (dsId format cache.memory addr) = none := by
    rw [← hvanilla]
    exact congrArg notifiers.evac hdsId
  intro address houtside
  rw [swapOut]
  split
  · dsimp only
    split
    · cases hchoice : choices.newLocalObjectAddr with
      | none => exact congrFun (memory_writeBack hevac _) address
      | some newAddr =>
          have hwords := hresident.words slot hslot
          rw [hencodes.metas] at hwords
          have hapart := (hvacant newAddr hchoice).2 object hobject slot hslot hwords.1
          rw [hwords.2] at hapart
          apply eqOn_hotCopy hcopies hresident.idLen hapart
          exact fun hinside => houtside ⟨newAddr, hchoice, hinside⟩
    · exact congrFun (memory_writeBack hevac _) address
  · rfl

/-- A step writes inside its footprint only. -/
theorem Encodes.eqOn_step (hcopies : CopiesBytes format notifiers)
    (hvanilla : ∀ object ∈ layout.objects, notifiers.evac object.dsId = none)
    (hencodes : Encodes pointer layout format cache heap)
    (hinv : Store.Inv pointer layout heap contents) {action : Action Meta}
    (hstep : ByteLevel.step pointer layout format notifiers cache action = some next) :
    Set.EqOn next.memory cache.memory (footprint pointer format cache action)ᶜ := by
  cases action with
  | write object slot data =>
      rw [ByteLevel.step, Option.ite_none_right_eq_some, Option.some.injEq] at hstep
      obtain ⟨-, rfl⟩ := hstep
      exact eqOn_store
  | read object slot objAddr | swapIn object slot objAddr =>
      rw [ByteLevel.step, Option.ite_none_right_eq_some, Option.some.injEq] at hstep
      obtain ⟨⟨hobject, hslot, -⟩, rfl⟩ := hstep
      rw [footprint]
      cases hpresent : pointer.isPresent (cache.metas slot) with
      | true =>
          rw [ByteLevel.swapIn, if_pos hpresent]
          exact Set.eqOn_refl _ _
      | false => exact eqOn_swapIn hencodes hinv hobject hslot hpresent
  | swapOut object slot choices =>
      simp only [ByteLevel.step, Option.ite_none_right_eq_some, Option.some.injEq] at hstep
      obtain ⟨⟨hpresent, hobject, hslot, hvacant⟩, rfl⟩ := hstep
      obtain ⟨addr, haddr, hresident⟩ :=
        hencodes.exists_resident hinv hobject hslot hpresent
      rw [footprint, haddr]
      rw [haddr] at hvacant
      exact hresident.eqOn_swapOut hencodes hinv hcopies (hvanilla object hobject) hobject
        hslot hvacant
  | retag slot word =>
      rw [ByteLevel.step, Option.ite_none_right_eq_some, Option.some.injEq] at hstep
      obtain ⟨-, rfl⟩ := hstep
      exact Set.eqOn_refl _ _

/-- The footprint of a step meets no local object, but for data stored in place,
which stays inside its object. -/
theorem Encodes.footprint_apart (hencodes : Encodes pointer layout format cache heap)
    (hinv : Store.Inv pointer layout heap contents) {action : Action Meta}
    (hstep : ByteLevel.step pointer layout format notifiers cache action = some next)
    {other : Tracked} {rival : Slot} (hother : other ∈ layout.objects)
    (hrival : rival ∈ other.aliases) (hlive : pointer.isPresent (cache.metas rival) = true) :
    Disjoint (footprint pointer format cache action)
        (extent pointer format cache rival).addresses ∨
      ∃ slot data, action = .write other slot data ∧
        footprint pointer format cache action ⊆
          (extent pointer format cache rival).addresses := by
  cases action with
  | write object slot data =>
      rw [ByteLevel.step, Option.ite_none_right_eq_some, Option.some.injEq] at hstep
      obtain ⟨⟨hpresent, hobject, hslot, hlength⟩, rfl⟩ := hstep
      obtain ⟨addr, haddr, hresident⟩ :=
        hencodes.exists_resident hinv hobject hslot hpresent
      have hinside : footprint pointer format cache (.write object slot data) ⊆
          Set.Ico addr (addr + size format cache.memory addr) := by
        rw [haddr] at hlength
        rw [footprint, haddr, hlength, size]
        exact Set.Ico_subset_Ico (by omega) (by omega)
      by_cases heq : other = object
      · subst other
        right
        refine ⟨slot, data, rfl, ?_⟩
        rw [hresident.extent_eq hencodes hrival]
        exact hinside
      · left
        exact (hresident.clear other hother heq rival hrival hlive).disjoint.mono_left hinside
  | read object slot objAddr | swapIn object slot objAddr =>
      rw [ByteLevel.step, Option.ite_none_right_eq_some, Option.some.injEq] at hstep
      obtain ⟨⟨-, -, hservable⟩, rfl⟩ := hstep
      left
      rw [footprint]
      cases hpresent : pointer.isPresent (cache.metas slot) with
      | true => exact Set.disjoint_left.mpr fun _ hmem => absurd hmem (Set.notMem_empty _)
      | false => exact ((hservable hpresent).2 other hother rival hrival hlive).disjoint
  | swapOut object slot choices =>
      simp only [ByteLevel.step, Option.ite_none_right_eq_some, Option.some.injEq] at hstep
      obtain ⟨⟨-, -, -, hvacant⟩, rfl⟩ := hstep
      left
      rw [footprint, Set.disjoint_left]
      rintro address ⟨newAddr, hchoice, hinside⟩
      have hapart := (hvacant newAddr hchoice).2 other hother rival hrival hlive
      exact Set.disjoint_left.mp hapart.disjoint hinside
  | retag slot word =>
      left
      exact Set.empty_disjoint _

/-- After a step the local objects have the bytes that they had or those that the
step allocated. -/
theorem Encodes.occupied_step (hcopies : CopiesBytes format notifiers)
    (hvanilla : ∀ object ∈ layout.objects, notifiers.evac object.dsId = none)
    (hnameable : Nameable layout format)
    (hencodes : Encodes pointer layout format cache heap)
    (hinv : Store.Inv pointer layout heap contents) {action : Action Meta}
    (hstep : ByteLevel.step pointer layout format notifiers cache action = some next) :
    occupied pointer layout format next ⊆
      allocated pointer format cache action ∪ occupied pointer layout format cache := by
  cases action with
  | write object slot data =>
      rw [ByteLevel.step, Option.ite_none_right_eq_some, Option.some.injEq] at hstep
      obtain ⟨⟨hpresent, hobject, hslot, hlength⟩, rfl⟩ := hstep
      obtain ⟨addr, haddr, hresident⟩ :=
        hencodes.exists_resident hinv hobject hslot hpresent
      rw [haddr] at hlength
      have hown : ⟨addr, size format cache.memory addr⟩ ∈
          occupied pointer layout format cache :=
        ⟨object, hobject, slot, hslot, hpresent, (hresident.extent_eq hencodes hslot).symm⟩
      have hoccupied := (hresident.update_writeData hencodes hslot hlength).occupied_subset
        hencodes hobject
      rw [Set.insert_eq_of_mem hown] at hoccupied
      exact hoccupied.trans Set.subset_union_right
  | read object slot objAddr | swapIn object slot objAddr =>
      rw [ByteLevel.step, Option.ite_none_right_eq_some, Option.some.injEq] at hstep
      obtain ⟨⟨hobject, hslot, hservable⟩, rfl⟩ := hstep
      rw [allocated]
      cases hpresent : pointer.isPresent (cache.metas slot) with
      | true =>
          rw [ByteLevel.swapIn, if_pos hpresent]
          exact Set.subset_union_right
      | false =>
          exact (update_swapIn hencodes hinv hnameable hobject hslot hpresent
            (hservable hpresent)).occupied_subset hencodes hobject
  | swapOut object slot choices =>
      simp only [ByteLevel.step, Option.ite_none_right_eq_some, Option.some.injEq] at hstep
      obtain ⟨⟨hpresent, hobject, hslot, hvacant⟩, rfl⟩ := hstep
      obtain ⟨addr, haddr, hresident⟩ :=
        hencodes.exists_resident hinv hobject hslot hpresent
      rw [haddr] at hvacant
      rw [allocated, haddr]
      exact (hresident.encodes_swapOut hencodes hinv hcopies (hvanilla object hobject) hobject
        hslot hvacant).2
  | retag slot word =>
      rw [ByteLevel.step, Option.ite_none_right_eq_some, Option.some.injEq] at hstep
      obtain ⟨hsame, rfl⟩ := hstep
      rintro bytes ⟨object, hobject, other, hother, hlive, rfl⟩
      obtain ⟨hpresent, haddr⟩ := words_retag hsame other
      rw [hpresent] at hlive
      right
      exact ⟨object, hobject, other, hother, hlive, by rw [extent, haddr]; rfl⟩

end Simulation

/-- Every object has just been allocated: its bytes spell it, with an id of eight
bytes, apart from the others. -/
structure Fresh (pointer : FarMemPtrMeta Meta) (layout : Layout) {kHeaderSize : ℕ}
    (format : ObjectFormat kHeaderSize) (contents : ℕ → Store.Bytes) (cache : Cache Meta) :
    Prop where
  fresh : Store.Fresh pointer layout contents (decode format cache)
  idLen : ∀ object ∈ layout.objects, ∀ slot ∈ object.aliases,
    objIdLen format cache.memory (pointer.getObjectAddr (cache.metas slot)) = 8
  fits : ∀ object ∈ layout.objects, ∀ slot ∈ object.aliases,
    size format cache.memory (pointer.getObjectAddr (cache.metas slot)) < 2 ^ 16
  separated : Separated pointer layout format cache

def machine (pointer : FarMemPtrMeta Meta) (layout : Layout) {kHeaderSize : ℕ}
    (format : ObjectFormat kHeaderSize) (notifiers : ByteNotifiers Meta)
    (contents : ℕ → Store.Bytes) : Library.Machine (Cache Meta) (Action Meta) where
  initial := Fresh pointer layout format contents
  step := step pointer layout format notifiers

section Runs

variable {pointer : FarMemPtrMeta Meta} {layout : Layout}
variable {kHeaderSize : ℕ} {format : ObjectFormat kHeaderSize}
variable {notifiers : ByteNotifiers Meta} {contents : ℕ → Store.Bytes}
variable {cache final : Cache Meta} {object : Tracked} {slot : Slot} {objAddr : ℕ}

theorem Fresh.encodes (hfresh : Fresh pointer layout format contents cache) :
    Encodes pointer layout format cache (decode format cache) := by
  constructor
  case metas => rfl
  case device => rfl
  case refCnt => rfl
  case spelled =>
    intro object hobject
    constructor
    case stored => exact fun _ _ _ => rfl
    case idLen => exact fun slot hslot _ => hfresh.idLen object hobject slot hslot
    case fits => exact fun slot hslot _ => hfresh.fits object hobject slot hslot
    case remote =>
      intro slot hslot habsent
      obtain ⟨addr, hlocal⟩ := hfresh.fresh.allocated object hobject
      have hpresent := (hlocal.words slot hslot).1
      rw [decode, habsent] at hpresent
      cases hpresent
  case separated => exact hfresh.separated

/-- A run on bytes is a run of the heap, which represents a cache of lines. -/
theorem exists_run_heap (hcopies : CopiesBytes format notifiers)
    (hvanilla : ∀ object ∈ layout.objects, notifiers.evac object.dsId = none)
    (hnameable : Nameable layout format) {heap : Heap Meta}
    {lines : Library.WriteBackCache ℕ Store.Bytes}
    (hencodes : Encodes pointer layout format cache heap)
    (hinv : Store.Inv pointer layout heap lines) {actions : List (Action Meta)}
    (hrun : (machine pointer layout format notifiers contents).run cache actions =
      some final) :
    ∃ after kept, (Store.machine pointer layout kHeaderSize (heapNotifiers notifiers)
        contents).run heap actions = some after ∧
      Encodes pointer layout format final after ∧ Store.Inv pointer layout after kept ∧
      kept.read = actions.foldl Store.applyWrite lines.read := by
  induction actions generalizing cache heap lines with
  | nil =>
      rw [Library.Machine.run_nil, Option.some.injEq] at hrun
      subst hrun
      exact ⟨heap, lines, rfl, hencodes, hinv, rfl⟩
  | cons action actions ih =>
      obtain ⟨next, hstep, hrest⟩ := Library.Machine.run_cons.mp hrun
      obtain ⟨middle, hmiddle, hnext⟩ :=
        hencodes.step hcopies hvanilla hnameable hinv hstep
      obtain ⟨between, hbetween, hread⟩ :=
        hinv.step copiesData_heapNotifiers (fun _ _ => rfl) hmiddle
      obtain ⟨after, kept, hafter, hfinal, hkept, hreads⟩ := ih hnext hbetween hrest
      refine ⟨after, kept, Library.Machine.run_cons.mpr ⟨middle, hmiddle, hafter⟩, hfinal,
        hkept, ?_⟩
      rw [hreads, hread, List.foldl_cons]

/-- No step of a run writes outside the bytes it stores in place or allocates, and
these meet no local object but the one whose data is stored.  The size that
`swap_in` finds in a remote word is that of header, device data and id. -/
theorem writes_inside (hcopies : CopiesBytes format notifiers)
    (hvanilla : ∀ object ∈ layout.objects, notifiers.evac object.dsId = none)
    (hnameable : Nameable layout format) (hfresh : Fresh pointer layout format contents cache)
    {actions : List (Action Meta)} {action : Action Meta} {next : Cache Meta}
    (hrun : (machine pointer layout format notifiers contents).run cache actions =
      some final)
    (hstep : (machine pointer layout format notifiers contents).step final action =
      some next) :
    Set.EqOn next.memory final.memory (footprint pointer format final action)ᶜ ∧
      (∀ other ∈ layout.objects, ∀ rival ∈ other.aliases,
        pointer.isPresent (final.metas rival) = true →
          Disjoint (footprint pointer format final action)
              (extent pointer format final rival).addresses ∨
            ∃ slot data, action = .write other slot data ∧
              footprint pointer format final action ⊆
                (extent pointer format final rival).addresses) ∧
      ∀ other ∈ layout.objects, ∀ slot ∈ other.aliases,
        pointer.isPresent (final.metas slot) = false →
          pointer.getObjectSize (final.metas slot) =
            kHeaderSize + (final.device other.dsId other.objId).length + 8 := by
  obtain ⟨after, kept, -, hencodes, hinv, -⟩ :=
    exists_run_heap hcopies hvanilla hnameable hfresh.encodes hfresh.fresh.inv hrun
  refine ⟨hencodes.eqOn_step hcopies hvanilla hinv hstep, ?_, ?_⟩
  · exact fun other hother rival hrival hlive =>
      hencodes.footprint_apart hinv hstep hother hrival hlive
  · exact fun other hother slot hslot habsent =>
      ((hencodes.spelled other hother).remote slot hslot habsent).1

/-- After any run on bytes, a dereference finds the object local, and the bytes
at its data address are those last written to it. -/
theorem bytes_eq_lastWritten (hcopies : CopiesBytes format notifiers)
    (hvanilla : ∀ object ∈ layout.objects, notifiers.evac object.dsId = none)
    (hnameable : Nameable layout format) (hfresh : Fresh pointer layout format contents cache)
    {actions : List (Action Meta)}
    (hrun : (machine pointer layout format notifiers contents).run cache actions =
      some final)
    (hobject : object ∈ layout.objects) (hslot : slot ∈ object.aliases)
    (hservable : Servable pointer layout format final slot objAddr) :
    ∃ addr loaded, swapIn pointer layout.ring format final slot objAddr = loaded ∧
      pointer.isPresent (loaded.metas slot) = true ∧
      pointer.getObjectAddr (loaded.metas slot) = addr ∧
      dataOf format loaded.memory addr = actions.foldl Store.applyWrite contents object.objId ∧
      dsId format loaded.memory addr = object.dsId ∧
      objId format loaded.memory addr = object.objId := by
  obtain ⟨after, kept, -, hencodes, hinv, hread⟩ :=
    exists_run_heap hcopies hvanilla hnameable hfresh.encodes hfresh.fresh.inv hrun
  rw [Store.read_freshCache] at hread
  have hloaded := hencodes.swapIn hinv hnameable hobject hslot hservable
  have hserved := hencodes.servable hobject hslot hservable
  have hafter := hinv.swapIn hobject hslot hserved
  obtain ⟨obj, hderef, -⟩ := hinv.deref hobject hslot hserved
  have hpresent := Store.isPresent_of_objectOf hderef
  rw [hloaded.metas] at hpresent
  have hholds := (hloaded.holds hafter hobject).present slot hslot hpresent
  rw [congrFun Library.WriteBackCache.read_load _, hread] at hholds
  exact ⟨_, _, rfl, hpresent, rfl, hholds⟩

end Runs

/-! ## Two objects in bytes -/

/-- The objects of `Store.pairLayout`, at 1030 and 2054. -/
def pairBytes : Cache ℕ where
  memory := writeObject NonBlocking.sixteenByteFormat
    (writeObject NonBlocking.sixteenByteFormat (fun _ => 0) 64 1030 1 7 [1, 2]) 80 2054 1 8 [3]
  metas := Store.pairHeap.metas
  device _ _ := []
  refCnt _ := 0

/-- One data structure copies by a notifier, none claims evictions. -/
def copyingBytes : ByteNotifiers ℕ where
  copy _ := some fun dest src memory =>
    place memory (dest + 16)
      (window memory (src + 16) (dataLen NonBlocking.sixteenByteFormat memory dest))
  evac _ := none

/-- The unique object is written, marked and written back. -/
def writtenBack : List (Action ℕ) :=
  [.write ⟨[64], false, 1, 7⟩ 64 [5, 6], .retag 64 0x82D0000,
    .swapOut ⟨[64], false, 1, 7⟩ 64 ⟨fun _ => false, true, none⟩]

theorem objectAt_pairBytes :
    objectAt NonBlocking.sixteenByteFormat pairBytes.memory 1030 =
        ⟨64, 1, 7, 8, [1, 2], false⟩ ∧
      objectAt NonBlocking.sixteenByteFormat pairBytes.memory 2054 =
        ⟨80, 1, 8, 8, [3], false⟩ := by
  decide +kernel

theorem fresh_pairBytes :
    Fresh (FarMemPtrMeta.pointerHpp 16) Store.pairLayout NonBlocking.sixteenByteFormat
      Store.pairMemory pairBytes := by
  obtain ⟨hunique, hshared⟩ := objectAt_pairBytes
  constructor
  case fresh =>
    constructor
    case allocated =>
      simp only [Store.pairLayout, List.forall_mem_cons]
      refine ⟨⟨1030, ?_, ⟨_, rfl, ?_⟩, ?_⟩, ⟨2054, ?_, ⟨_, rfl, ?_⟩, ?_⟩, by simp⟩
      · decide
      · rw [hunique]
        exact ⟨rfl, rfl, rfl⟩
      · decide
      · decide
      · rw [hshared]
        exact ⟨rfl, rfl, rfl⟩
      · decide
    case shared => decide
    case separate => decide
  case idLen => decide +kernel
  case fits => decide +kernel
  case separated =>
    rw [Separated]
    decide +kernel

theorem nameable_pairLayout :
    Nameable Store.pairLayout NonBlocking.sixteenByteFormat := by
  rw [Nameable]
  decide

theorem copiesBytes_copyingBytes :
    CopiesBytes NonBlocking.sixteenByteFormat copyingBytes := by
  rintro dsId notifier ⟨⟩ dest src memory
  rfl

theorem exists_writtenBack :
    ∃ final, (machine (FarMemPtrMeta.pointerHpp 16) Store.pairLayout
        NonBlocking.sixteenByteFormat copyingBytes Store.pairMemory).run pairBytes
          writtenBack = some final ∧
      (final.metas 64, decide (Servable (FarMemPtrMeta.pointerHpp 16) Store.pairLayout
        NonBlocking.sixteenByteFormat final 64 3078)) =
        ((FarMemPtrMeta.pointerHpp 16).gcWb 0x82D0000 1 26 7, true) :=
  Option.map_eq_some_iff.mp (by decide +kernel)

theorem writes_inside_writtenBack :
    ∃ final next, (machine (FarMemPtrMeta.pointerHpp 16) Store.pairLayout
        NonBlocking.sixteenByteFormat copyingBytes Store.pairMemory).run pairBytes
          writtenBack = some final ∧
      swapIn (FarMemPtrMeta.pointerHpp 16) Store.pairLayout.ring
        NonBlocking.sixteenByteFormat final 64 3078 = next ∧
      Set.EqOn next.memory final.memory (footprint (FarMemPtrMeta.pointerHpp 16)
        NonBlocking.sixteenByteFormat final (.swapIn ⟨[64], false, 1, 7⟩ 64 3078))ᶜ ∧
      (FarMemPtrMeta.pointerHpp 16).getObjectSize (final.metas 64) =
        16 + (final.device 1 7).length + 8 := by
  obtain ⟨final, hrun, hfinal⟩ := exists_writtenBack
  obtain ⟨hword, hdecided⟩ := Prod.mk.inj hfinal
  have hservable := of_decide_eq_true hdecided
  have hobject : ⟨[64], false, 1, 7⟩ ∈ Store.pairLayout.objects := by decide
  have hstep : (machine (FarMemPtrMeta.pointerHpp 16) Store.pairLayout
      NonBlocking.sixteenByteFormat copyingBytes Store.pairMemory).step final
        (.swapIn ⟨[64], false, 1, 7⟩ 64 3078) =
        some (swapIn (FarMemPtrMeta.pointerHpp 16) Store.pairLayout.ring
          NonBlocking.sixteenByteFormat final 64 3078) :=
    if_pos ⟨hobject, List.mem_singleton_self 64, hservable⟩
  have habsent : (FarMemPtrMeta.pointerHpp 16).isPresent (final.metas 64) = false := by
    rw [hword]
    decide
  obtain ⟨hinside, -, hsizes⟩ := writes_inside copiesBytes_copyingBytes (fun _ _ => rfl)
    nameable_pairLayout fresh_pairBytes hrun hstep
  exact ⟨final, _, hrun, rfl, hinside,
    hsizes _ hobject 64 (List.mem_singleton_self 64) habsent⟩

theorem bytes_eq_lastWritten_writtenBack :
    ∃ final addr loaded, (machine (FarMemPtrMeta.pointerHpp 16) Store.pairLayout
        NonBlocking.sixteenByteFormat copyingBytes Store.pairMemory).run pairBytes
          writtenBack = some final ∧
      swapIn (FarMemPtrMeta.pointerHpp 16) Store.pairLayout.ring
        NonBlocking.sixteenByteFormat final 64 3078 = loaded ∧
      dataOf NonBlocking.sixteenByteFormat loaded.memory addr = [5, 6] := by
  obtain ⟨final, hrun, hfinal⟩ := exists_writtenBack
  have hservable := of_decide_eq_true (Prod.mk.inj hfinal).2
  have hobject : ⟨[64], false, 1, 7⟩ ∈ Store.pairLayout.objects := by decide
  obtain ⟨addr, loaded, hloaded, -, -, hdata, -⟩ :=
    bytes_eq_lastWritten copiesBytes_copyingBytes (fun _ _ => rfl) nameable_pairLayout
      fresh_pairBytes hrun hobject (List.mem_singleton_self 64) hservable
  exact ⟨final, addr, loaded, hrun, hloaded, hdata⟩

end DynamicSwap.ByteLevel
