import DynamicSwap.Region.Placement
import DynamicSwap.Swap.ByteRefinement

/-!
# Swapping in a cache of regions

`swap_in` and `swap_out` take space from the regions of the cache while these
circulate between the cores, the queues and the collector.  A region starts over
only when no pointer leads into it, so every run is a run on bytes whose
allocations return bytes that no local object has.
-/

namespace DynamicSwap.LocalCache

open Library (Extent)
open NonBlocking (ObjectFormat)
open Store (Tracked Layout)
open SwapOut (flagsOf)
open RegionManager (owned live)
open Placement (Placed Tiled Bumps pushing)
open ByteLevel (Cache ByteNotifiers Encodes occupied Vacant)

/-- The bytes, pointers and device, and the regions that the bytes belong to. -/
structure State (Meta : Type) where
  cache : Cache Meta
  regions : Circulation.State

/-- `swapIn` is a call of `swap_in` up to its allocation or its wait for the
collector; `swapOut` carries what the call meets outside the state. -/
inductive Action (Meta : Type)
  | write (object : Tracked) (slot : Slot) (data : Store.Bytes)
  | swapIn (object : Tracked) (slot : Slot) (core : Fin kNumCPUs) (nt : Bool)
  | swapOut (object : Tracked) (slot : Slot) (core : Fin kNumCPUs) (isNt : Slot → Bool)
      (almostEmpty : Bool)
  | retag (slot : Slot) (word : Meta)
  | circulate (action : Circulation.Action)

variable {Meta : Type}

/-- What the model takes from outside the repository, and how the cache is built. -/
structure Setting (Meta : Type) (kHeaderSize : ℕ) where
  pointer : FarMemPtrMeta Meta
  layout : Layout
  format : ObjectFormat kHeaderSize
  notifiers : ByteNotifiers Meta
  ops : RegionOps
  kPickRegionMaxRetryTimes : ℕ
  cacheSize : ℕ
  localCachePtr : ℕ

variable {kHeaderSize : ℕ} (setting : Setting Meta kHeaderSize)

namespace State

def setCache (state : State Meta) (cache : Cache Meta) : State Meta :=
  { state with cache := cache }

def setManager (state : State Meta) (manager : RegionManager) : State Meta :=
  { state with regions := { state.regions with manager := manager } }

end State

/-- No pointer of an object leads into the region. -/
def Vacated (cache : Cache Meta) (region : Region) : Prop :=
  ∀ object ∈ setting.layout.objects, ∀ slot ∈ object.aliases,
    setting.pointer.isPresent (cache.metas slot) = true →
      ¬region.Contains (setting.pointer.getObjectAddr (cache.metas slot))

instance (cache : Cache Meta) (region : Region) : Decidable (Vacated setting cache region) :=
  inferInstanceAs (Decidable (∀ object ∈ setting.layout.objects, ∀ slot ∈ object.aliases, _ → _))

/-- The collector pushes a region once it has moved or written back its objects. -/
def MayCirculate (state : State Meta) : Circulation.Action → Prop
  | .push => ∀ region ∈ pushing state.regions, Vacated setting state.cache region
  | _ => True

instance (state : State Meta) (action : Circulation.Action) :
    Decidable (MayCirculate setting state action) :=
  match action with
  | .push => inferInstanceAs (Decidable (∀ region ∈ pushing state.regions, _))
  | .refill _ _ | .beginPick _ | .pick _ => inferInstanceAs (Decidable True)

/-- `swap_in(nt, ptr)`: without space the caller waits and tries again. -/
def swapIn (state : State Meta) (slot : Slot) (core : Fin kNumCPUs) (nt : Bool) :
    Option (State Meta) :=
  let word := state.cache.metas slot
  if setting.pointer.isPresent word then some state
  else
    match state.regions.manager.allocateLocalObjectNb setting.ops core nt
        (setting.pointer.getObjectSize word) with
    | none => none
    | some (none, manager) => some (state.setManager manager)
    | some (some objAddr, manager) =>
        some ((state.setManager manager).setCache
          (ByteLevel.swapIn setting.pointer setting.layout.ring setting.format state.cache slot
            objAddr))

/-- `swap_out` asks for space only for an object that it would copy. -/
def swapOut (state : State Meta) (slot : Slot) (core : Fin kNumCPUs) (isNt : Slot → Bool)
    (almostEmpty : Bool) : Option (State Meta) :=
  let word := state.cache.metas slot
  let objAddr := setting.pointer.getObjectAddr word
  let flags := flagsOf setting.pointer setting.layout.ring ⟨isNt, almostEmpty, none⟩
    state.cache.plain slot
  let finish := fun newLocalObjectAddr =>
    ByteLevel.swapOut setting.pointer setting.layout.ring setting.format setting.notifiers
      ⟨isNt, almostEmpty, newLocalObjectAddr⟩ state.cache slot objAddr
  if setting.pointer.isEvacuation word && flags.hot && !flags.nt && !almostEmpty then
    match state.regions.manager.allocateLocalObjectNb setting.ops core false
        (ByteLevel.size setting.format state.cache.memory objAddr) with
    | none => none
    | some (newLocalObjectAddr, manager) =>
        some ((state.setManager manager).setCache (finish newLocalObjectAddr))
  else some (state.setCache (finish none))

def step (state : State Meta) : Action Meta → Option (State Meta)
  | .write object slot data =>
      (ByteLevel.step setting.pointer setting.layout setting.format setting.notifiers
        state.cache (.write object slot data)).map state.setCache
  | .swapIn object slot core nt =>
      if object ∈ setting.layout.objects ∧ slot ∈ object.aliases then
        swapIn setting state slot core nt
      else none
  | .swapOut object slot core isNt almostEmpty =>
      if setting.pointer.isPresent (state.cache.metas slot) = true ∧
          object ∈ setting.layout.objects ∧ slot ∈ object.aliases then
        swapOut setting state slot core isNt almostEmpty
      else none
  | .retag slot word =>
      (ByteLevel.step setting.pointer setting.layout setting.format setting.notifiers
        state.cache (.retag slot word)).map state.setCache
  | .circulate action =>
      if MayCirculate setting state action then
        (Circulation.step setting.ops setting.kPickRegionMaxRetryTimes state.regions action).map
          fun regions => { state with regions := regions }
      else none

/-- Plain memory: the bytes of each object id. -/
def applyWrite (memory : ℕ → Store.Bytes) : Action Meta → ℕ → Store.Bytes
  | .write object _ data => Function.update memory object.objId data
  | _ => memory

/-- What the code outside the repository promises, and a cache that fits. -/
structure Documented : Prop where
  bumps : Bumps setting.ops
  copies : ByteLevel.CopiesBytes setting.format setting.notifiers
  vanilla : ∀ object ∈ setting.layout.objects, setting.notifiers.evac object.dsId = none
  nameable : ByteLevel.Nameable setting.layout setting.format
  counted : RegionManager.carvedCount setting.cacheSize < 2 ^ 32
  addressable : setting.localCachePtr +
    RegionManager.carvedCount setting.cacheSize * Region.kSize ≤ setting.pointer.addrBound

/-- The objects have just been allocated in regions of the constructed manager. -/
structure Fresh (contents : ℕ → Store.Bytes) (constructed : RegionManager)
    (state : State Meta) : Prop where
  fresh : ByteLevel.Fresh setting.pointer setting.layout setting.format contents state.cache
  construct : RegionManager.construct setting.cacheSize true setting.localCachePtr =
    some constructed
  circulation : Circulation.Inv (owned constructed.regions) state.regions
  placed : Placed (live state.regions.places)
    (occupied setting.pointer setting.layout setting.format state.cache)

def machine (contents : ℕ → Store.Bytes) : Library.Machine (State Meta) (Action Meta) where
  initial state := ∃ constructed, Fresh setting contents constructed state
  step := step setting

/-! ## What every step keeps -/

/-- The bytes spell a heap that represents a write-back cache, and the objects lie
in regions of the constructor. -/
structure Inv (constructed : RegionManager) (state : State Meta) (heap : Heap Meta)
    (lines : Library.WriteBackCache ℕ Store.Bytes) : Prop where
  construct : RegionManager.construct setting.cacheSize true setting.localCachePtr =
    some constructed
  circulation : Circulation.Inv (owned constructed.regions) state.regions
  encodes : Encodes setting.pointer setting.layout setting.format state.cache heap
  inv : Store.Inv setting.pointer setting.layout heap lines
  placed : Placed (live state.regions.places)
    (occupied setting.pointer setting.layout setting.format state.cache)

section Step

variable {setting}
variable {constructed manager : RegionManager} {state next : State Meta} {heap : Heap Meta}
variable {lines : Library.WriteBackCache ℕ Store.Bytes}
variable {core : Fin kNumCPUs} {nt : Bool} {objectSize : ℕ} {result : Option ℕ}

/-- What an allocation returns is vacant, and lies in its region. -/
theorem Inv.allocate (hdocumented : Documented setting)
    (hinv : Inv setting constructed state heap lines) (hpos : 0 < objectSize)
    (hallocate : state.regions.manager.allocateLocalObjectNb setting.ops core nt objectSize =
      some (result, manager)) :
    Circulation.Inv (owned constructed.regions) (state.setManager manager).regions ∧
      (result = none ∧ Placed (live (state.setManager manager).regions.places)
          (occupied setting.pointer setting.layout setting.format state.cache) ∨
        ∃ addr, result = some addr ∧
          Vacant setting.pointer setting.layout setting.format state.cache addr objectSize ∧
          Placed (live (state.setManager manager).regions.places) (insert ⟨addr, objectSize⟩
            (occupied setting.pointer setting.layout setting.format state.cache))) := by
  have hcores := hinv.circulation.cores
  have hcirculation : Circulation.Inv (owned constructed.regions)
      (state.setManager manager).regions :=
    hinv.circulation.setManager (hcores.allocateLocalObjectNb hallocate).1
  refine ⟨hcirculation, ?_⟩
  rcases Placement.placed_allocate hdocumented.bumps hinv.construct hdocumented.counted
    hinv.circulation hinv.placed hallocate with hnone | ⟨addr, rfl, hafter, hapart⟩
  · exact .inl hnone
  · right
    refine ⟨addr, rfl, ⟨?_, ?_⟩, hafter⟩
    · obtain ⟨region, hregion, -, -, hend⟩ := hafter _ (Set.mem_insert _ _)
      obtain ⟨-, hle⟩ :=
        Placement.base_le hinv.construct hdocumented.counted hcirculation hregion
      have haddressable := hdocumented.addressable
      dsimp only at hend
      omega
    · exact fun object hobject slot hslot hpresent =>
        hapart _ ⟨object, hobject, slot, hslot, hpresent, rfl⟩

variable {cache : Cache Meta} {regions : Circulation.State} {label : Store.Action Meta}

/-- The bytes take a step whose allocations have been placed. -/
theorem Inv.bytes (hdocumented : Documented setting)
    (hinv : Inv setting constructed state heap lines)
    (hstep : ByteLevel.step setting.pointer setting.layout setting.format setting.notifiers
      state.cache label = some cache)
    (hcirculation : Circulation.Inv (owned constructed.regions) regions)
    (hplaced : Placed (live regions.places)
      (ByteLevel.allocated setting.pointer setting.format state.cache label ∪
        occupied setting.pointer setting.layout setting.format state.cache)) :
    ∃ after kept, Inv setting constructed ⟨cache, regions⟩ after kept := by
  have hoccupied := hinv.encodes.occupied_step hdocumented.copies hdocumented.vanilla
    hdocumented.nameable hinv.inv hstep
  obtain ⟨after, hafter, hencodes⟩ := hinv.encodes.step hdocumented.copies
    hdocumented.vanilla hdocumented.nameable hinv.inv hstep
  obtain ⟨kept, hkept, -⟩ :=
    hinv.inv.step ByteLevel.copiesData_heapNotifiers (fun _ _ => rfl) hafter
  exact ⟨after, kept, hinv.construct, hcirculation, hencodes, hkept, hplaced.mono hoccupied⟩

/-- Regions move and the bytes stay. -/
theorem Inv.setRegions (hinv : Inv setting constructed state heap lines)
    (hcirculation : Circulation.Inv (owned constructed.regions) regions)
    (hplaced : Placed (live regions.places)
      (occupied setting.pointer setting.layout setting.format state.cache)) :
    Inv setting constructed ⟨state.cache, regions⟩ heap lines :=
  ⟨hinv.construct, hcirculation, hinv.encodes, hinv.inv, hplaced⟩

/-- Nothing lies in a region without pointers into it. -/
theorem Inv.not_below (hinv : Inv setting constructed state heap lines) {region : Region}
    (hregion : region ∈ live state.regions.places)
    (hvacated : Vacated setting state.cache region) {bytes : Extent}
    (hbytes : bytes ∈ occupied setting.pointer setting.layout setting.format state.cache) :
    ¬Library.Arenas.Below Region.base Region.firstFreeByteIdx Region.kSize region bytes := by
  obtain ⟨object, hobject, slot, hslot, hpresent, rfl⟩ := hbytes
  rintro ⟨hstart, -, hend⟩
  apply hvacated object hobject slot hslot hpresent
  have hpos := ByteLevel.size_pos
    ((hinv.encodes.spelled object hobject).idLen slot hslot hpresent)
  refine ⟨region.base, Placement.bufPtr_eq hinv.construct hinv.circulation hregion, hstart, ?_⟩
  rw [ByteLevel.extent] at hend
  dsimp only at hend
  omega

theorem Inv.circulate (hinv : Inv setting constructed state heap lines)
    {action : Circulation.Action} (hmay : MayCirculate setting state action)
    (hstep : Circulation.step setting.ops setting.kPickRegionMaxRetryTimes state.regions
      action = some regions) : Inv setting constructed ⟨state.cache, regions⟩ heap lines := by
  apply hinv.setRegions (hinv.circulation.step hstep)
  rcases Placement.live_step hinv.circulation hstep with
    hsame | ⟨region, rest, rfl, hpushing, hbefore, hafter⟩
  · rw [hsame]
    exact hinv.placed
  · have hplaced := hinv.placed
    rw [hbefore] at hplaced
    rw [hafter]
    apply hplaced.replace
    intro bytes hbytes
    have hregion : region ∈ live state.regions.places := hbefore ▸ Multiset.mem_cons_self _ _
    exact hinv.not_below hregion (hmay region hpushing) hbytes

/-- A call of `swap_in` returns, waits, or loads the object into space of its own. -/
theorem Inv.swapIn (hdocumented : Documented setting)
    (hinv : Inv setting constructed state heap lines) {object : Tracked} {slot : Slot}
    (hobject : object ∈ setting.layout.objects) (hslot : slot ∈ object.aliases)
    (hstep : swapIn setting state slot core nt = some next) :
    (next.cache = state.cache ∧ Inv setting constructed next heap lines) ∨
      ∃ objAddr, ByteLevel.step setting.pointer setting.layout setting.format
          setting.notifiers state.cache (.swapIn object slot objAddr) = some next.cache ∧
        ∃ after kept, Inv setting constructed next after kept := by
  simp only [LocalCache.swapIn] at hstep
  cases hpresent : setting.pointer.isPresent (state.cache.metas slot) with
  | true =>
      rw [hpresent, if_pos rfl, Option.some.injEq] at hstep
      subst hstep
      exact .inl ⟨rfl, hinv⟩
  | false =>
      rw [hpresent, if_neg Bool.false_ne_true] at hstep
      have hsize := ((hinv.encodes.spelled object hobject).remote slot hslot hpresent).1
      split at hstep
      · cases hstep
      · rename_i manager hallocate
        cases hstep
        obtain ⟨hcirculation, ⟨-, hplaced⟩ | ⟨addr, hsome, -⟩⟩ :=
          hinv.allocate hdocumented (by omega) hallocate
        · exact .inl ⟨rfl, hinv.setRegions hcirculation hplaced⟩
        · cases hsome
      · rename_i objAddr manager hallocate
        cases hstep
        obtain ⟨hcirculation, ⟨hnone, -⟩ | ⟨addr, hsome, hvacant, hplaced⟩⟩ :=
          hinv.allocate hdocumented (by omega) hallocate
        · cases hnone
        · cases hsome
          have hlabel : ByteLevel.step setting.pointer setting.layout setting.format
              setting.notifiers state.cache (.swapIn object slot objAddr) = some
                (ByteLevel.swapIn setting.pointer setting.layout.ring setting.format state.cache
                  slot objAddr) :=
            if_pos ⟨hobject, hslot, fun _ => hvacant⟩
          refine .inr ⟨objAddr, hlabel, hinv.bytes hdocumented hlabel hcirculation ?_⟩
          rw [ByteLevel.allocated, hpresent, if_neg Bool.false_ne_true]
          exact hplaced

/-- A call of `swap_out` copies the object into space of its own or writes it back. -/
theorem Inv.swapOut (hdocumented : Documented setting)
    (hinv : Inv setting constructed state heap lines) {object : Tracked} {slot : Slot}
    {isNt : Slot → Bool} {almostEmpty : Bool}
    (hpresent : setting.pointer.isPresent (state.cache.metas slot) = true)
    (hobject : object ∈ setting.layout.objects) (hslot : slot ∈ object.aliases)
    (hstep : swapOut setting state slot core isNt almostEmpty = some next) :
    ∃ newLocalObjectAddr, ByteLevel.step setting.pointer setting.layout setting.format
        setting.notifiers state.cache
          (.swapOut object slot ⟨isNt, almostEmpty, newLocalObjectAddr⟩) = some next.cache ∧
      ∃ after kept, Inv setting constructed next after kept := by
  have hlabel : ∀ newLocalObjectAddr : Option ℕ, (∀ addr ∈ newLocalObjectAddr,
      Vacant setting.pointer setting.layout setting.format state.cache addr
        (ByteLevel.size setting.format state.cache.memory
          (setting.pointer.getObjectAddr (state.cache.metas slot)))) →
      ByteLevel.step setting.pointer setting.layout setting.format setting.notifiers
          state.cache (.swapOut object slot ⟨isNt, almostEmpty, newLocalObjectAddr⟩) =
        some (ByteLevel.swapOut setting.pointer setting.layout.ring setting.format
          setting.notifiers ⟨isNt, almostEmpty, newLocalObjectAddr⟩ state.cache slot
            (setting.pointer.getObjectAddr (state.cache.metas slot))) :=
    fun _ hvacant => if_pos ⟨hpresent, hobject, hslot, hvacant⟩
  have hpos := ByteLevel.size_pos
    ((hinv.encodes.spelled object hobject).idLen slot hslot hpresent)
  -- without new space only the bytes of the caller's object go
  have hwithout : ∀ regions, Circulation.Inv (owned constructed.regions) regions →
      Placed (live regions.places)
        (occupied setting.pointer setting.layout setting.format state.cache) →
      ∃ after kept, Inv setting constructed ⟨ByteLevel.swapOut setting.pointer
        setting.layout.ring setting.format setting.notifiers ⟨isNt, almostEmpty, none⟩
          state.cache slot (setting.pointer.getObjectAddr (state.cache.metas slot)), regions⟩
            after kept := by
    intro regions hcirculation hplaced
    apply hinv.bytes hdocumented (hlabel none (by simp)) hcirculation
    have hnothing : ByteLevel.allocated setting.pointer setting.format state.cache
        (.swapOut object slot ⟨isNt, almostEmpty, none⟩) = ∅ := by
      simp [ByteLevel.allocated]
    rw [hnothing, Set.empty_union]
    exact hplaced
  simp only [LocalCache.swapOut] at hstep
  split at hstep
  · split at hstep
    · cases hstep
    · rename_i newLocalObjectAddr manager hallocate
      cases hstep
      obtain ⟨hcirculation, ⟨rfl, hplaced⟩ | ⟨addr, rfl, hvacant, hplaced⟩⟩ :=
        hinv.allocate hdocumented hpos hallocate
      · exact ⟨none, hlabel none (by simp), hwithout _ hcirculation hplaced⟩
      · have hgiven := hlabel (some addr) (by simpa using hvacant)
        refine ⟨some addr, hgiven, hinv.bytes hdocumented hgiven hcirculation ?_⟩
        have hnew : ByteLevel.allocated setting.pointer setting.format state.cache
            (.swapOut object slot ⟨isNt, almostEmpty, some addr⟩) =
              {⟨addr, ByteLevel.size setting.format state.cache.memory
                (setting.pointer.getObjectAddr (state.cache.metas slot))⟩} := by
          ext bytes
          simp [ByteLevel.allocated]
        rw [hnew]
        exact hplaced
  · cases hstep
    exact ⟨none, hlabel none (by simp), hwithout _ hinv.circulation hinv.placed⟩

/-- Actions on bytes that write what one action writes. -/
def Shows (action : Action Meta) (labels : List (Store.Action Meta)) : Prop :=
  ∀ memory, labels.foldl Store.applyWrite memory = applyWrite memory action

/-- Every step is a step of the bytes, or leaves them alone. -/
theorem Inv.step (hdocumented : Documented setting)
    (hinv : Inv setting constructed state heap lines) {action : Action Meta}
    (contents : ℕ → Store.Bytes) (hstep : step setting state action = some next) :
    ∃ labels, Shows action labels ∧
      (ByteLevel.machine setting.pointer setting.layout setting.format setting.notifiers
        contents).run state.cache labels = some next.cache ∧
      ∃ after kept, Inv setting constructed next after kept := by
  have hsingle : ∀ {label cache}, ByteLevel.step setting.pointer setting.layout setting.format
      setting.notifiers state.cache label = some cache →
        (ByteLevel.machine setting.pointer setting.layout setting.format setting.notifiers
          contents).run state.cache [label] = some cache := fun hlabel =>
    Library.Machine.run_cons.mpr ⟨_, hlabel, rfl⟩
  have hnone : ∀ {label}, ByteLevel.allocated setting.pointer setting.format state.cache label
      = ∅ → Placed (live state.regions.places)
        (ByteLevel.allocated setting.pointer setting.format state.cache label ∪
          occupied setting.pointer setting.layout setting.format state.cache) := by
    intro label hnothing
    rw [hnothing, Set.empty_union]
    exact hinv.placed
  cases action with
  | write object slot data =>
      rw [LocalCache.step, Option.map_eq_some_iff] at hstep
      obtain ⟨cache, hlabel, rfl⟩ := hstep
      exact ⟨_, fun _ => rfl, hsingle hlabel,
        hinv.bytes hdocumented hlabel hinv.circulation (hnone rfl)⟩
  | retag slot word =>
      rw [LocalCache.step, Option.map_eq_some_iff] at hstep
      obtain ⟨cache, hlabel, rfl⟩ := hstep
      exact ⟨_, fun _ => rfl, hsingle hlabel,
        hinv.bytes hdocumented hlabel hinv.circulation (hnone rfl)⟩
  | circulate action =>
      rw [LocalCache.step, Option.ite_none_right_eq_some, Option.map_eq_some_iff] at hstep
      obtain ⟨hmay, regions, hregions, rfl⟩ := hstep
      exact ⟨[], fun _ => rfl, rfl, heap, lines, hinv.circulate hmay hregions⟩
  | swapIn object slot core nt =>
      rw [LocalCache.step, Option.ite_none_right_eq_some] at hstep
      obtain ⟨⟨hobject, hslot⟩, hstep⟩ := hstep
      rcases hinv.swapIn hdocumented hobject hslot hstep with
        ⟨hsame, hnext⟩ | ⟨objAddr, hlabel, hnext⟩
      · exact ⟨[], fun _ => rfl, congrArg some hsame.symm, heap, lines, hnext⟩
      · exact ⟨_, fun _ => rfl, hsingle hlabel, hnext⟩
  | swapOut object slot core isNt almostEmpty =>
      rw [LocalCache.step, Option.ite_none_right_eq_some] at hstep
      obtain ⟨⟨hpresent, hobject, hslot⟩, hstep⟩ := hstep
      obtain ⟨newLocalObjectAddr, hlabel, hnext⟩ :=
        hinv.swapOut hdocumented hpresent hobject hslot hstep
      exact ⟨_, fun _ => rfl, hsingle hlabel, hnext⟩

end Step

/-! ## Runs -/

/-- Wherever an object is, its bytes are those of plain memory, and local objects lie
below the offsets of regions, apart from each other. -/
structure Sound (memory : ℕ → Store.Bytes) (state : State Meta) : Prop where
  holds : ∀ object ∈ setting.layout.objects,
    ByteLevel.Holds setting.pointer setting.format object (memory object.objId) state.cache
  separated : ByteLevel.Separated setting.pointer setting.layout setting.format state.cache
  placed : Placed (live state.regions.places)
    (occupied setting.pointer setting.layout setting.format state.cache)

section Runs

variable {setting}
variable {contents : ℕ → Store.Bytes} {constructed : RegionManager}
variable {state final : State Meta} {actions : List (Action Meta)}

theorem Fresh.inv (hfresh : Fresh setting contents constructed state) :
    Inv setting constructed state (ByteLevel.decode setting.format state.cache)
      (Store.freshCache setting.layout contents
        (ByteLevel.decode setting.format state.cache)) :=
  ⟨hfresh.construct, hfresh.circulation, hfresh.fresh.encodes, hfresh.fresh.fresh.inv,
    hfresh.placed⟩

theorem foldl_flatten {blocks : List (List (Store.Action Meta))}
    (hshows : List.Forall₂ Shows actions blocks) (memory : ℕ → Store.Bytes) :
    blocks.flatten.foldl Store.applyWrite memory = actions.foldl applyWrite memory := by
  induction hshows generalizing memory with
  | nil => rfl
  | cons hhead _ ih =>
      rw [List.flatten_cons, List.foldl_append, hhead, ih, List.foldl_cons]

/-- Every run is a run of the bytes in which allocations return vacant bytes. -/
theorem exists_run_bytes (hdocumented : Documented setting)
    (hfresh : Fresh setting contents constructed state)
    (hrun : (machine setting contents).run state actions = some final) :
    ∃ labels, (ByteLevel.machine setting.pointer setting.layout setting.format
        setting.notifiers contents).run state.cache labels = some final.cache ∧
      labels.foldl Store.applyWrite contents = actions.foldl applyWrite contents ∧
      ∃ heap lines, Inv setting constructed final heap lines := by
  obtain ⟨blocks, cache, hshows, hblocks, rfl, hinv⟩ :=
    Library.Machine.exists_run_of_simulation
      (fun state cache => state.cache = cache ∧
        ∃ heap lines, Inv setting constructed state heap lines) Shows
      (by
        rintro state next action _ ⟨rfl, heap, lines, hinv⟩ hstep
        obtain ⟨labels, hshows, hlabels, hnext⟩ := hinv.step hdocumented contents hstep
        exact ⟨labels, _, hshows, hlabels, rfl, hnext⟩)
      ⟨rfl, _, _, hfresh.inv⟩ hrun
  exact ⟨blocks.flatten, hblocks, foldl_flatten hshows contents, hinv⟩

/-- In every run no write is lost and no two objects meet. -/
theorem sound_of_run (hdocumented : Documented setting)
    (hinitial : (machine setting contents).initial state)
    (hrun : (machine setting contents).run state actions = some final) :
    Sound setting (actions.foldl applyWrite contents) final := by
  obtain ⟨constructed, hfresh⟩ := hinitial
  obtain ⟨labels, hlabels, hwrites, heap, lines, hinv⟩ :=
    exists_run_bytes hdocumented hfresh hrun
  obtain ⟨after, kept, -, hencodes, hkept, hread⟩ :=
    ByteLevel.exists_run_heap hdocumented.copies hdocumented.vanilla hdocumented.nameable
      hfresh.fresh.encodes hfresh.fresh.fresh.inv hlabels
  rw [Store.read_freshCache, hwrites] at hread
  constructor
  case holds =>
    intro object hobject
    rw [← hread]
    exact hencodes.holds hkept hobject
  case separated => exact hencodes.separated
  case placed => exact hinv.placed

end Runs

/-! ## Two objects in two regions -/

def pairSetting : Setting ℕ 16 where
  pointer := FarMemPtrMeta.pointerHpp 16
  layout := Store.pairLayout
  format := NonBlocking.sixteenByteFormat
  notifiers := ByteLevel.copyingBytes
  ops := RegionOps.bump
  kPickRegionMaxRetryTimes := 10
  cacheSize := 16384
  localCachePtr := 1024

theorem documented_pairSetting : Documented pairSetting := by
  constructor
  case bumps => exact Placement.bumps_bump
  case copies => exact ByteLevel.copiesBytes_copyingBytes
  case vanilla => exact fun _ _ => rfl
  case nameable => exact ByteLevel.nameable_pairLayout
  case counted => decide +kernel
  case addressable => decide +kernel

/-- The unique object is written, marked, written back and brought back behind the
place that it had. -/
def broughtBack : List (Action ℕ) :=
  [.write ⟨[64], false, 1, 7⟩ 64 [5, 6], .retag 64 0x82D0000,
    .swapOut ⟨[64], false, 1, 7⟩ 64 ⟨0, kNumCPUs_pos⟩ (fun _ => false) true,
    .circulate (.beginPick 1), .swapIn ⟨[64], false, 1, 7⟩ 64 ⟨0, kNumCPUs_pos⟩ false]

theorem occupied_pairBytes :
    occupied pairSetting.pointer pairSetting.layout pairSetting.format ByteLevel.pairBytes ⊆
      {⟨2054, 25⟩, ⟨1030, 26⟩} := by
  rintro bytes ⟨object, hobject, slot, hslot, -, rfl⟩
  have hall : ∀ object ∈ pairSetting.layout.objects, ∀ slot ∈ object.aliases,
      ByteLevel.extent pairSetting.pointer pairSetting.format ByteLevel.pairBytes slot ∈
        [⟨2054, 25⟩, ⟨1030, 26⟩] := by
    decide +kernel
  simpa using hall object hobject slot hslot

theorem exists_broughtBack :
    ∃ constructed, RegionManager.construct 16384 true 1024 = some constructed ∧
      ∃ first, constructed.allocateLocalObjectNb RegionOps.bump ⟨0, kNumCPUs_pos⟩ false 26 =
        some (some 1030, first) ∧
      ∃ second, first.allocateLocalObjectNb RegionOps.bump ⟨0, kNumCPUs_pos⟩ true 25 =
        some (some 2054, second) ∧
      ∃ final, (machine pairSetting Store.pairMemory).run
          ⟨ByteLevel.pairBytes, second, [], .idle⟩ broughtBack = some final ∧
        (FarMemPtrMeta.pointerHpp 16).isPresent (final.cache.metas 64) = true ∧
        (FarMemPtrMeta.pointerHpp 16).getObjectAddr (final.cache.metas 64) = 1056 := by
  have hrun : (RegionManager.construct 16384 true 1024).bind (fun constructed =>
      (constructed.allocateLocalObjectNb RegionOps.bump ⟨0, kNumCPUs_pos⟩ false 26).bind
        fun first =>
          (first.2.allocateLocalObjectNb RegionOps.bump ⟨0, kNumCPUs_pos⟩ true 25).bind
            fun second =>
              ((machine pairSetting Store.pairMemory).run
                ⟨ByteLevel.pairBytes, second.2, [], .idle⟩ broughtBack).bind fun final =>
                  some (first.1, second.1,
                    (FarMemPtrMeta.pointerHpp 16).isPresent (final.cache.metas 64),
                    (FarMemPtrMeta.pointerHpp 16).getObjectAddr (final.cache.metas 64))) =
        some (some 1030, some 2054, true, 1056) := by
    decide +kernel
  obtain ⟨constructed, hconstruct, hrun⟩ := Option.bind_eq_some_iff.mp hrun
  obtain ⟨⟨firstAddr, first⟩, hfirst, hrun⟩ := Option.bind_eq_some_iff.mp hrun
  obtain ⟨⟨secondAddr, second⟩, hsecond, hrun⟩ := Option.bind_eq_some_iff.mp hrun
  obtain ⟨final, hfinal, hlast⟩ := Option.bind_eq_some_iff.mp hrun
  simp only [Option.some.injEq, Prod.mk.injEq] at hlast
  obtain ⟨rfl, rfl, hlast⟩ := hlast
  exact ⟨constructed, hconstruct, first, hfirst, second, hsecond, final, hfinal, hlast⟩

theorem sound_of_run_broughtBack :
    ∃ start final, (machine pairSetting Store.pairMemory).run start broughtBack = some final ∧
      (FarMemPtrMeta.pointerHpp 16).getObjectAddr (final.cache.metas 64) = 1056 ∧
      ByteLevel.dataOf NonBlocking.sixteenByteFormat final.cache.memory 1056 = [5, 6] := by
  obtain ⟨constructed, hconstruct, first, hfirst, second, hsecond, final, hrun, hpresent,
    haddr⟩ := exists_broughtBack
  have hinitial : (Circulation.machine RegionOps.bump 10 16384 true 1024).initial
      ⟨constructed, [], .idle⟩ := ⟨hconstruct, rfl, rfl⟩
  have hstart : Circulation.Inv (owned constructed.regions) ⟨constructed, [], .idle⟩ :=
    .of_initial hinitial
  have hmiddle : Circulation.Inv (owned constructed.regions) ⟨first, [], .idle⟩ :=
    hstart.setManager (hstart.cores.allocateLocalObjectNb hfirst).1
  have hend : Circulation.Inv (owned constructed.regions) ⟨second, [], .idle⟩ :=
    hmiddle.setManager (hmiddle.cores.allocateLocalObjectNb hsecond).1
  have hnone : Placed (live (Circulation.State.places ⟨constructed, [], .idle⟩)) ∅ :=
    fun _ hnot => absurd hnot (Set.notMem_empty _)
  obtain ⟨hfalse, -⟩ | ⟨_, hone, hplacedOne, -⟩ := Placement.placed_allocate
    Placement.bumps_bump hconstruct documented_pairSetting.counted hstart hnone hfirst
  · cases hfalse
  obtain ⟨hfalse, -⟩ | ⟨_, htwo, hplacedTwo, -⟩ := Placement.placed_allocate
    Placement.bumps_bump hconstruct documented_pairSetting.counted hmiddle hplacedOne hsecond
  · cases hfalse
  cases hone
  cases htwo
  have hplaced : Placed (live (Circulation.State.places ⟨second, [], .idle⟩))
      (occupied pairSetting.pointer pairSetting.layout pairSetting.format
        ByteLevel.pairBytes) := by
    apply hplacedTwo.mono
    apply occupied_pairBytes.trans
    simp
  have hfresh : Fresh pairSetting Store.pairMemory constructed
      ⟨ByteLevel.pairBytes, second, [], .idle⟩ :=
    ⟨ByteLevel.fresh_pairBytes, hconstruct, hend, hplaced⟩
  have hsound := sound_of_run documented_pairSetting ⟨constructed, hfresh⟩ hrun
  have hobject : ⟨[64], false, 1, 7⟩ ∈ Store.pairLayout.objects := by decide
  have hholds := (hsound.holds _ hobject).present 64 (List.mem_singleton_self 64) hpresent
  have hdata := hholds.1
  have hplace : pairSetting.pointer.getObjectAddr (final.cache.metas 64) = 1056 := haddr
  rw [hplace] at hdata
  exact ⟨_, final, hrun, haddr, hdata⟩

end DynamicSwap.LocalCache
