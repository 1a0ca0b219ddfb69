import DynamicSwap.Core.Heap
import DynamicSwap.Library.Machine

/-!
# Arrays and the object registry

`GenericArray::GenericArray` registers every slot of its pointer block with
`register_object`; `GenericArray::~GenericArray` has an empty body, so the
registry keeps the entries of a block that is freed with the array.  The
registry therefore describes the live arrays exactly as long as no array with
items has been destroyed.
-/

namespace DynamicSwap

/-- `DSwap::ObjRef`. -/
structure ObjRef where
  ptr : Slot
  size : ℕ
  deriving DecidableEq

/-- The two vectors guarded by `object_addrs_mut`. -/
structure Registry where
  objectRefs : List ObjRef
  objectAddrs : List Slot
  deriving DecidableEq

namespace Registry

def empty : Registry := ⟨[], []⟩

def registerObject (registry : Registry) (ptr : Slot) (size : ℕ) : Registry where
  objectRefs := registry.objectRefs ++ [⟨ptr, size⟩]
  objectAddrs := registry.objectAddrs ++ [ptr]

end Registry

/-- The members of a `GenericArray` that locate its slots: `ptrs_.get()`,
`kItemSize_` and `kNumItems_`. -/
structure GenericArray where
  ptrs : ℕ
  kItemSize : ℕ
  kNumItems : ℕ
  deriving DecidableEq

namespace GenericArray

/-- `sizeof(GenericUniquePtr)`: the eight bytes of its metadata. -/
def kSlotSize : ℕ := 8

/-- `&ptrs_[index]`. -/
def slot (array : GenericArray) (index : ℕ) : ℕ :=
  array.ptrs + kSlotSize * index

def slots (array : GenericArray) : List Slot :=
  (List.range array.kNumItems).map array.slot

/-- The registry entries the array should have. -/
def refs (array : GenericArray) : List ObjRef :=
  array.slots.map fun ptr => ⟨ptr, array.kItemSize⟩

/-- The registrations of the constructor's loop. -/
def registerSlots (array : GenericArray) (registry : Registry) : Registry :=
  (List.range array.kNumItems).foldl
    (fun registry index =>
      registry.registerObject (array.slot index) array.kItemSize) registry

/-- Two pointer blocks that the allocator can have handed out together. -/
def BlocksDisjoint (left right : GenericArray) : Prop :=
  left.ptrs + kSlotSize * left.kNumItems ≤ right.ptrs ∨
    right.ptrs + kSlotSize * right.kNumItems ≤ left.ptrs

instance (left right : GenericArray) : Decidable (BlocksDisjoint left right) :=
  inferInstanceAs (Decidable (_ ∨ _))

theorem BlocksDisjoint.symm {left right : GenericArray}
    (hdisjoint : BlocksDisjoint left right) : BlocksDisjoint right left :=
  Or.symm hdisjoint

theorem nodup_slots (array : GenericArray) : array.slots.Nodup := by
  refine List.Nodup.map ?_ List.nodup_range
  intro left right heq
  have hslot : array.slot left = array.slot right := heq
  simp only [slot, kSlotSize] at hslot
  omega

theorem mem_slots {array : GenericArray} {ptr : Slot} :
    ptr ∈ array.slots ↔ ∃ index < array.kNumItems, array.slot index = ptr := by
  simp [slots]

@[simp]
theorem map_ptr_refs (array : GenericArray) :
    array.refs.map ObjRef.ptr = array.slots := by
  simp [refs, Function.comp_def]

@[simp]
theorem length_refs (array : GenericArray) :
    array.refs.length = array.kNumItems := by
  simp [refs, slots]

theorem refs_eq_nil {array : GenericArray} (hempty : array.kNumItems = 0) :
    array.refs = [] := by
  simp [refs, slots, hempty]

theorem disjoint_slots {left right : GenericArray}
    (hdisjoint : BlocksDisjoint left right) :
    List.Disjoint left.slots right.slots := by
  intro ptr hleft hright
  obtain ⟨leftIndex, hleftIndex, rfl⟩ := mem_slots.mp hleft
  obtain ⟨rightIndex, hrightIndex, heq⟩ := mem_slots.mp hright
  simp only [BlocksDisjoint, slot, kSlotSize] at hdisjoint heq
  omega

/-- The constructor's loop appends exactly the entries of the array. -/
theorem registerSlots_eq (array : GenericArray) (registry : Registry) :
    array.registerSlots registry =
      ⟨registry.objectRefs ++ array.refs,
        registry.objectAddrs ++ array.slots⟩ := by
  have hloop : ∀ indices : List ℕ, ∀ start : Registry,
      indices.foldl (fun registry index =>
        registry.registerObject (array.slot index) array.kItemSize) start =
      ⟨start.objectRefs ++
          indices.map (fun index => ⟨array.slot index, array.kItemSize⟩),
        start.objectAddrs ++ indices.map array.slot⟩ := by
    intro indices
    induction indices with
    | nil => intro start; simp
    | cons index indices ih =>
        intro start
        rw [List.foldl_cons, ih]
        simp [Registry.registerObject]
  rw [registerSlots, hloop]
  simp [refs, slots, Function.comp_def]

end GenericArray

/-- The registry next to the arrays that are alive. -/
structure ArrayWorld where
  registry : Registry
  live : List GenericArray
  deriving DecidableEq

namespace ArrayWorld

/-- Lifetime events.  A construction names the block that `new` returned. -/
inductive Operation
  | construct (array : GenericArray)
  | destroy (array : GenericArray)
  deriving DecidableEq

/-- `new GenericUniquePtr[num_items]` returns a block outside the live ones;
the destructor frees the block and leaves the registry as it is. -/
def step (world : ArrayWorld) : Operation → Option ArrayWorld
  | .construct array =>
      if ∀ other ∈ world.live, array.BlocksDisjoint other then
        some ⟨array.registerSlots world.registry, world.live ++ [array]⟩
      else none
  | .destroy array =>
      if array ∈ world.live then
        some { world with live := world.live.erase array }
      else none

def empty : ArrayWorld := ⟨Registry.empty, []⟩

def machine : Library.Machine ArrayWorld Operation where
  initial world := world = empty
  step := step

/-- The registry holds exactly the slots of the live arrays, each once with its
item size, in the same order in both vectors; no entry dangles. -/
structure RegistryAgrees (world : ArrayWorld) : Prop where
  refs : world.registry.objectRefs.Perm
    (world.live.flatMap GenericArray.refs)
  addrs : world.registry.objectAddrs =
    world.registry.objectRefs.map ObjRef.ptr
  once : (world.registry.objectRefs.map ObjRef.ptr).Nodup
  alive : ∀ ref ∈ world.registry.objectRefs,
    ∃ array ∈ world.live, ref.ptr ∈ array.slots

theorem step_construct {world next : ArrayWorld} {array : GenericArray}
    (hstep : step world (.construct array) = some next) :
    (∀ other ∈ world.live, array.BlocksDisjoint other) ∧
      next = ⟨⟨world.registry.objectRefs ++ array.refs,
        world.registry.objectAddrs ++ array.slots⟩,
          world.live ++ [array]⟩ := by
  simp only [step] at hstep
  split at hstep
  · rename_i hfree
    rw [array.registerSlots_eq, Option.some.injEq] at hstep
    exact ⟨hfree, hstep.symm⟩
  · exact absurd hstep (by simp)

theorem step_destroy {world next : ArrayWorld} {array : GenericArray}
    (hstep : step world (.destroy array) = some next) :
    array ∈ world.live ∧
      next = { world with live := world.live.erase array } := by
  simp only [step] at hstep
  split at hstep
  · rename_i hmem
    exact ⟨hmem, (Option.some.inj hstep).symm⟩
  · exact absurd hstep (by simp)

/-! ## What the registry keeps -/

/-- Items of the arrays destroyed by a sequence of operations. -/
def destroyedItems : List Operation → ℕ
  | [] => 0
  | .construct _ :: operations => destroyedItems operations
  | .destroy array :: operations =>
      array.kNumItems + destroyedItems operations

def liveItems (world : ArrayWorld) : ℕ :=
  (world.live.map GenericArray.kNumItems).sum

theorem liveItems_eq_length (world : ArrayWorld) :
    world.liveItems = (world.live.flatMap GenericArray.refs).length := by
  simp [liveItems, List.length_flatMap]

/-- Entries are never removed: their number counts the live and the destroyed
items together. -/
theorem length_objectRefs_run {world final : ArrayWorld}
    {operations : List Operation}
    (hrun : machine.run world operations = some final) :
    final.registry.objectRefs.length + world.liveItems =
      world.registry.objectRefs.length + final.liveItems +
        destroyedItems operations := by
  induction operations generalizing world with
  | nil =>
      rw [Library.Machine.run_nil, Option.some.injEq] at hrun
      simp [hrun, destroyedItems]
  | cons operation operations ih =>
      obtain ⟨next, hstep, hrest⟩ := Library.Machine.run_cons.mp hrun
      have hcount := ih hrest
      cases operation with
      | construct array =>
          obtain ⟨-, rfl⟩ := step_construct hstep
          simp only [liveItems, List.map_append, List.map_cons, List.map_nil,
            List.sum_append, List.sum_singleton, List.length_append,
            GenericArray.length_refs, destroyedItems] at hcount ⊢
          omega
      | destroy array =>
          obtain ⟨hmem, rfl⟩ := step_destroy hstep
          have hsum : (world.live.map GenericArray.kNumItems).sum =
              array.kNumItems +
                ((world.live.erase array).map GenericArray.kNumItems).sum := by
            rw [((List.perm_cons_erase hmem).map _).sum_eq, List.map_cons,
              List.sum_cons]
          simp only [liveItems, destroyedItems] at hcount ⊢
          omega

/-- What every operation keeps when no array with items is destroyed. -/
structure Consistent (world : ArrayWorld) : Prop where
  refs : world.registry.objectRefs.Perm
    (world.live.flatMap GenericArray.refs)
  addrs : world.registry.objectAddrs =
    world.registry.objectRefs.map ObjRef.ptr
  blocks : world.live.Pairwise GenericArray.BlocksDisjoint

theorem consistent_empty : Consistent empty where
  refs := List.Perm.nil
  addrs := rfl
  blocks := List.Pairwise.nil

theorem Consistent.step {world next : ArrayWorld} {operation : Operation}
    (hconsistent : Consistent world)
    (hdestroy : ∀ array, operation = .destroy array → array.kNumItems = 0)
    (hstep : step world operation = some next) : Consistent next := by
  cases operation with
  | construct array =>
      obtain ⟨hfree, rfl⟩ := step_construct hstep
      refine ⟨?_, ?_, ?_⟩
      · simpa using hconsistent.refs.append_right array.refs
      · simp [hconsistent.addrs]
      · rw [List.pairwise_append]
        refine ⟨hconsistent.blocks, List.pairwise_singleton _ _, ?_⟩
        intro other hother new hnew
        rw [List.mem_singleton.mp hnew]
        exact (hfree other hother).symm
  | destroy array =>
      obtain ⟨hmem, rfl⟩ := step_destroy hstep
      refine ⟨hconsistent.refs.trans ?_, hconsistent.addrs, ?_⟩
      · have hperm := (List.perm_cons_erase hmem).flatMap_right
          GenericArray.refs
        rwa [List.flatMap_cons, GenericArray.refs_eq_nil (hdestroy array rfl),
          List.nil_append] at hperm
      · exact hconsistent.blocks.sublist List.erase_sublist

theorem Consistent.run {world final : ArrayWorld} {operations : List Operation}
    (hconsistent : Consistent world)
    (hdestroy : ∀ array, .destroy array ∈ operations → array.kNumItems = 0)
    (hrun : machine.run world operations = some final) : Consistent final := by
  induction operations generalizing world with
  | nil =>
      rw [Library.Machine.run_nil, Option.some.injEq] at hrun
      exact hrun ▸ hconsistent
  | cons operation operations ih =>
      obtain ⟨next, hstep, hrest⟩ := Library.Machine.run_cons.mp hrun
      refine ih (hconsistent.step ?_ hstep) ?_ hrest
      · intro array heq
        exact hdestroy array (heq ▸ List.mem_cons_self)
      · intro array hmem
        exact hdestroy array (List.mem_cons_of_mem _ hmem)

theorem Consistent.registryAgrees {world : ArrayWorld}
    (hconsistent : Consistent world) : RegistryAgrees world where
  refs := hconsistent.refs
  addrs := hconsistent.addrs
  once := by
    rw [(hconsistent.refs.map ObjRef.ptr).nodup_iff, List.map_flatMap]
    simp only [GenericArray.map_ptr_refs]
    rw [List.nodup_flatMap]
    refine ⟨fun array _ => array.nodup_slots, ?_⟩
    exact hconsistent.blocks.imp GenericArray.disjoint_slots
  alive := by
    intro ref href
    obtain ⟨array, harray, hmem⟩ :=
      List.mem_flatMap.mp (hconsistent.refs.mem_iff.mp href)
    refine ⟨array, harray, ?_⟩
    rw [← array.map_ptr_refs]
    exact List.mem_map_of_mem hmem

theorem kNumItems_eq_zero_of_destroyedItems {operations : List Operation}
    (hzero : destroyedItems operations = 0) (array : GenericArray)
    (hmem : .destroy array ∈ operations) : array.kNumItems = 0 := by
  induction operations with
  | nil => simp at hmem
  | cons operation operations ih =>
      cases operation with
      | construct other =>
          rcases List.mem_cons.mp hmem with heq | hmem
          · cases heq
          · exact ih hzero hmem
      | destroy other =>
          rw [destroyedItems, Nat.add_eq_zero_iff] at hzero
          rcases List.mem_cons.mp hmem with heq | hmem
          · cases heq
            exact hzero.1
          · exact ih hzero.2 hmem

/-- After any sequence of constructions and destructions the registry agrees
with the live arrays if and only if every destroyed array was empty. -/
theorem registryAgrees_iff {world : ArrayWorld} {operations : List Operation}
    (hrun : machine.run empty operations = some world) :
    RegistryAgrees world ↔
      ∀ array, .destroy array ∈ operations → array.kNumItems = 0 := by
  constructor
  · intro hagrees
    have hcount := length_objectRefs_run hrun
    have hlength := hagrees.refs.length_eq
    rw [← liveItems_eq_length] at hlength
    have hzero : destroyedItems operations = 0 := by
      simp only [empty, Registry.empty, liveItems, List.map_nil, List.sum_nil,
        List.length_nil] at hcount hlength
      omega
    exact kNumItems_eq_zero_of_destroyedItems hzero
  · intro hdestroy
    exact (consistent_empty.run hdestroy hrun).registryAgrees

/-- Two arrays of the shipped test, the second destroyed. -/
theorem registryAgrees_iff_two_arrays :
    RegistryAgrees ⟨⟨[⟨4096, 8⟩, ⟨8192, 8⟩], [4096, 8192]⟩, [⟨4096, 8, 1⟩]⟩ ↔
      ∀ array, ArrayWorld.Operation.destroy array ∈
        [.construct ⟨4096, 8, 1⟩, .construct ⟨8192, 8, 1⟩,
          .destroy ⟨8192, 8, 1⟩] → array.kNumItems = 0 :=
  registryAgrees_iff (by decide)

/-- A later array in a recycled block: the slot is registered twice. -/
theorem not_forall_registryAgrees :
    ¬ ∀ (operations : List Operation) (world : ArrayWorld),
      machine.run empty operations = some world → RegistryAgrees world := by
  intro hclaim
  have hrun : machine.run empty
      [.construct ⟨4096, 8, 1⟩, .destroy ⟨4096, 8, 1⟩,
        .construct ⟨4096, 16, 1⟩] =
      some ⟨⟨[⟨4096, 8⟩, ⟨4096, 16⟩], [4096, 4096]⟩, [⟨4096, 16, 1⟩]⟩ := by
    decide
  have honce := (hclaim _ _ hrun).once
  exact absurd honce (by decide)

end ArrayWorld

end DynamicSwap
