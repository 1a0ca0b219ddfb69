import DynamicSwap.Library.Machine
import DynamicSwap.Swap.SwapIn

/-!
# Concurrent swap-ins of one object

Any number of threads call `swap_in` on one absent object, each through the
unique pointer or through some alias of the shared ring, and nothing evicts it.
The id read before the presence check is used as a lock key only when the check
found the pointer absent, so all loads are serialized by one lock and the first
of them publishes the object.  A call that finds its own alias present returns
at once, possibly before the loading thread has published the other aliases.
-/

namespace DynamicSwap.ConcurrentSwapIn

open SwapIn (Pc aliasesOf)

variable {Meta : Type} {count : ℕ}

/-- The shared memory and the position of every call. -/
structure State (Meta : Type) (count : ℕ) where
  shared : Shared Meta (Fin count)
  pc : Fin count → Pc Meta

/-- The thread that steps and the address that an allocation would return. -/
structure Action (count : ℕ) where
  thread : Fin count
  objAddr : ℕ

variable (pointer : FarMemPtrMeta Meta) (ring : Slot → List Slot)
variable (ptr : Fin count → Slot)

def step (state : State Meta count) (action : Action count) :
    Option (State Meta count) :=
  match SwapIn.step pointer ring action.thread (ptr action.thread)
      action.objAddr state.shared (state.pc action.thread) with
  | none => none
  | some (shared, pc) =>
      some ⟨shared, Function.update state.pc action.thread pc⟩

/-- Every thread is about to call `swap_in` on one absent object: its aliases
all name `objId` and a setter reaches each of them once. -/
structure Calling (aliases : List Slot) (objId : ℕ)
    (state : State Meta count) : Prop where
  pc : ∀ thread, state.pc thread = .readId
  called : ∀ thread, ptr thread ∈ aliases
  nodup : aliases.Nodup
  absent : ∀ slot ∈ aliases,
    pointer.isPresent (state.shared.heap.metas slot) = false
  names : ∀ slot ∈ aliases,
    pointer.getObjectId (state.shared.heap.metas slot) = objId
  reach : ∀ slot ∈ aliases,
    (aliasesOf pointer ring state.shared.heap slot).Perm aliases
  unlocked : state.shared.lockOwner objId = none
  allocations : state.shared.allocations = []
  reads : state.shared.reads = []

def machine (aliases : List Slot) (objId : ℕ) :
    Library.Machine (State Meta count) (Action count) where
  initial := Calling pointer ring ptr aliases objId
  step := step pointer ring ptr

/-- The alias is present at a local address. -/
def PresentAt (shared : Shared Meta (Fin count)) (objAddr : ℕ) (slot : Slot) :
    Prop :=
  pointer.isPresent (shared.heap.metas slot) = true ∧
    pointer.getObjectAddr (shared.heap.metas slot) = objAddr

/-- The alias is present at the one address that was allocated. -/
def Published (shared : Shared Meta (Fin count)) (slot : Slot) : Prop :=
  ∃ loader objAddr, shared.allocations = [(loader, objAddr)] ∧
    PresentAt pointer shared objAddr slot

section Invariant

variable (aliases : List Slot) (objId : ℕ) (base : Shared Meta (Fin count))

/-- Nobody has begun to load the object. -/
structure Untouched (shared : Shared Meta (Fin count)) : Prop where
  metas : ∀ slot ∈ aliases, shared.heap.metas slot = base.heap.metas slot
  allocations : shared.allocations = []
  reads : shared.reads = []
  refCnt : shared.heap.refCnt = base.heap.refCnt

/-- `loader` has allocated the object and still has to publish `pending`. -/
structure Loading (loader : Fin count) (objAddr : ℕ) (pending : List Slot)
    (reads : List (Fin count × ℕ)) (shared : Shared Meta (Fin count)) : Prop where
  metas : ∀ slot ∈ pending, shared.heap.metas slot = base.heap.metas slot
  published : ∀ slot ∈ aliases, slot ∉ pending →
    PresentAt pointer shared objAddr slot
  nodup : pending.Nodup
  bound : objAddr < pointer.addrBound
  allocations : shared.allocations = [(loader, objAddr)]
  reads : shared.reads = reads
  refCnt : shared.heap.refCnt = (base.heap.atomicIncRefCnt objAddr 1).refCnt

/-- Every alias is published and the reference is given back. -/
def Finished (shared : Shared Meta (Fin count)) : Prop :=
  ∃ loader objAddr, (∀ slot ∈ aliases, PresentAt pointer shared objAddr slot) ∧
    shared.allocations = [(loader, objAddr)] ∧
    shared.reads = [(loader, objId)] ∧
    shared.heap.refCnt = base.heap.refCnt

/-- What holds at each position outside the lock. -/
def Outside (shared : Shared Meta (Fin count)) (slot : Slot) : Pc Meta → Prop
  | .readId => True
  | .checkPresent word =>
      (pointer.isPresent word = true → Published pointer shared slot) ∧
        (pointer.isPresent word = false → pointer.getObjectId word = objId)
  | .lock key => key = objId
  | .returned => Published pointer shared slot
  | _ => False

/-- What holds at each position of the thread that has the lock. -/
def Inside (shared : Shared Meta (Fin count)) (thread : Fin count) :
    Pc Meta → Prop
  | .checkAgain key => key = objId ∧
      (Untouched aliases base shared ∨
        Finished pointer aliases objId base shared)
  | .allocate key => key = objId ∧ Untouched aliases base shared
  | .readDsId key objAddr | .readObject key objAddr _ => key = objId ∧
      Loading pointer aliases base thread objAddr aliases [] shared
  | .checkShared key objAddr => key = objId ∧
      Loading pointer aliases base thread objAddr aliases [(thread, objId)] shared
  | .setPresent key objAddr pending => key = objId ∧ pending ⊆ aliases ∧
      Loading pointer aliases base thread objAddr pending [(thread, objId)] shared
  | .decRefCnt key objAddr => key = objId ∧
      Loading pointer aliases base thread objAddr [] [(thread, objId)] shared
  | .unlock key => key = objId ∧ Finished pointer aliases objId base shared
  | _ => False

/-- The invariant of the machine, relative to the memory it started from. -/
structure Inv (state : State Meta count) : Prop where
  outside : ∀ thread, state.shared.lockOwner objId ≠ some thread →
    Outside pointer objId state.shared (ptr thread) (state.pc thread)
  inside : ∀ thread, state.shared.lockOwner objId = some thread →
    Inside pointer aliases objId base state.shared thread (state.pc thread)
  free : state.shared.lockOwner objId = none →
    Untouched aliases base state.shared ∨
      Finished pointer aliases objId base state.shared
  otherLocks : ∀ key, key ≠ objId →
    state.shared.lockOwner key = base.lockOwner key

end Invariant

section Steps

variable {pointer ring ptr}
variable {aliases : List Slot} {objId : ℕ} {start : State Meta count}
variable {shared next : Shared Meta (Fin count)} {thread : Fin count}
variable {slot : Slot} {objAddr : ℕ} {pc nextPc : Pc Meta}

theorem Published.congr (hmetas : next.heap.metas = shared.heap.metas)
    (hallocations : next.allocations = shared.allocations)
    (hpublished : Published pointer shared slot) :
    Published pointer next slot := by
  simpa only [Published, PresentAt, hmetas, hallocations] using hpublished

theorem Finished.published {base : Shared Meta (Fin count)}
    (hfinished : Finished pointer aliases objId base shared)
    (hslot : slot ∈ aliases) : Published pointer shared slot := by
  obtain ⟨loader, objAddr, hpresent, hallocations, -, -⟩ := hfinished
  exact ⟨loader, objAddr, hallocations, hpresent slot hslot⟩

/-- The store of `set_present` on the first pending alias. -/
theorem Loading.publish {base : Shared Meta (Fin count)} {pending : List Slot}
    {reads : List (Fin count × ℕ)}
    (hloading : Loading pointer aliases base thread objAddr (slot :: pending)
      reads shared) :
    Loading pointer aliases base thread objAddr pending reads
      { shared with
        heap := shared.heap.setMeta slot
          (pointer.setPresent (shared.heap.metas slot) objAddr) } where
  metas other hother := by
    have hne : other ≠ slot := by
      rintro rfl
      exact (List.nodup_cons.mp hloading.nodup).1 hother
    rw [Heap.metas_setMeta_of_ne _ _ hne]
    exact hloading.metas other (List.mem_cons_of_mem _ hother)
  published other hother hpending := by
    by_cases heq : other = slot
    · subst other
      simp only [PresentAt, Heap.metas_setMeta_self]
      exact ⟨pointer.isPresent_setPresent _ _,
        pointer.getObjectAddr_setPresent _ _ hloading.bound⟩
    · simp only [PresentAt, Heap.metas_setMeta_of_ne _ _ heq]
      exact hloading.published other hother (by simp [heq, hpending])
  nodup := (List.nodup_cons.mp hloading.nodup).2
  bound := hloading.bound
  allocations := hloading.allocations
  reads := hloading.reads
  refCnt := hloading.refCnt

/-- Publishing keeps what is published. -/
theorem Loading.published_publish {base : Shared Meta (Fin count)}
    {pending : List Slot} {reads : List (Fin count × ℕ)} {other : Slot}
    (hloading : Loading pointer aliases base thread objAddr (slot :: pending)
      reads shared) (hpublished : Published pointer shared other) :
    Published pointer { shared with
      heap := shared.heap.setMeta slot
        (pointer.setPresent (shared.heap.metas slot) objAddr) } other := by
  by_cases heq : other = slot
  · subst other
    refine ⟨thread, objAddr, hloading.allocations, ?_⟩
    simp only [PresentAt, Heap.metas_setMeta_self]
    exact ⟨pointer.isPresent_setPresent _ _,
      pointer.getObjectAddr_setPresent _ _ hloading.bound⟩
  · simpa only [Published, PresentAt, Heap.metas_setMeta_of_ne _ _ heq]
      using hpublished

/-- Before the first store a setter still reaches every alias once. -/
theorem Loading.aliasesOf_perm
    (hcalling : Calling pointer ring ptr aliases objId start)
    {reads : List (Fin count × ℕ)}
    (hloading : Loading pointer aliases start.shared thread objAddr aliases reads
      shared) (hslot : slot ∈ aliases) :
    (aliasesOf pointer ring shared.heap slot).Perm aliases := by
  have hsame : aliasesOf pointer ring shared.heap slot =
      aliasesOf pointer ring start.shared.heap slot := by
    simp only [aliasesOf, hloading.metas slot hslot]
  exact hsame ▸ hcalling.reach slot hslot

/-- Giving back the reference that the allocation took. -/
theorem Loading.finish {base : Shared Meta (Fin count)}
    (hloading : Loading pointer aliases base thread objAddr []
      [(thread, objId)] shared) :
    Finished pointer aliases objId base
      { shared with heap := shared.heap.atomicIncRefCnt objAddr (-1) } := by
  refine ⟨thread, objAddr, fun slot hslot => ?_, hloading.allocations,
    hloading.reads, ?_⟩
  · exact hloading.published slot hslot List.not_mem_nil
  · funext region
    simp only [Heap.atomicIncRefCnt, hloading.refCnt]
    by_cases hregion : region = regionOf objAddr
    · subst region
      simp
    · simp [Function.update_of_ne hregion]

/-- One step of the thread that has the lock: it keeps its invariant or gives
the lock back with the object loaded. -/
theorem Inside.step (hcalling : Calling pointer ring ptr aliases objId start)
    (hinside : Inside pointer aliases objId start.shared shared thread pc)
    (hstep : SwapIn.step pointer ring thread (ptr thread) objAddr shared pc =
      some (next, nextPc)) :
    (∀ slot ∈ aliases, Published pointer shared slot →
        Published pointer next slot) ∧
      ((next.lockOwner = shared.lockOwner ∧
          Inside pointer aliases objId start.shared next thread nextPc) ∨
        (next.lockOwner = Function.update shared.lockOwner objId none ∧
          Finished pointer aliases objId start.shared next ∧
          nextPc = .returned)) := by
  have hcalled := hcalling.called thread
  cases pc with
  | readId | checkPresent word | lock key | returned => exact hinside.elim
  | checkAgain key =>
      obtain ⟨rfl, hobject⟩ := hinside
      rw [SwapIn.step] at hstep
      split at hstep <;> cases hstep
      · rename_i hpresent
        rcases hobject with huntouched | hfinished
        · rw [huntouched.metas _ hcalled, hcalling.absent _ hcalled] at hpresent
          cases hpresent
        · exact ⟨fun _ _ => id, .inl ⟨rfl, rfl, hfinished⟩⟩
      · rename_i habsent
        rcases hobject with huntouched | hfinished
        · exact ⟨fun _ _ => id, .inl ⟨rfl, rfl, huntouched⟩⟩
        · obtain ⟨_, _, _, hpresent⟩ := hfinished.published hcalled
          exact absurd hpresent.1 habsent
  | allocate key =>
      obtain ⟨rfl, huntouched⟩ := hinside
      rw [SwapIn.step] at hstep
      split at hstep <;> cases hstep
      rename_i hbound
      refine ⟨fun slot hslot hpublished => ?_, .inl ⟨rfl, rfl, ?_⟩⟩
      · obtain ⟨loader, addr, hallocations, -⟩ := hpublished
        rw [huntouched.allocations] at hallocations
        cases hallocations
      · exact {
          metas := huntouched.metas
          published := fun slot hslot hpending => absurd hslot hpending
          nodup := hcalling.nodup
          bound := hbound
          allocations := by rw [huntouched.allocations, List.nil_append]
          reads := huntouched.reads
          refCnt := by simp only [Heap.atomicIncRefCnt, huntouched.refCnt] }
  | readDsId key addr =>
      cases hstep
      exact ⟨fun _ _ => id, .inl ⟨rfl, hinside⟩⟩
  | readObject key addr dsId =>
      obtain ⟨rfl, hloading⟩ := hinside
      cases hstep
      refine ⟨fun _ _ => Published.congr rfl rfl, .inl ⟨rfl, rfl, ?_⟩⟩
      exact {
        hloading with
        reads := by rw [hloading.reads, List.nil_append] }
  | checkShared key addr =>
      obtain ⟨rfl, hloading⟩ := hinside
      cases hstep
      have hperm := hloading.aliasesOf_perm hcalling hcalled
      refine ⟨fun _ _ => id, .inl ⟨rfl, rfl, hperm.subset, ?_⟩⟩
      exact {
        hloading with
        metas := fun slot hslot => hloading.metas slot (hperm.mem_iff.mp hslot)
        published := fun slot hslot hpending =>
          absurd (hperm.mem_iff.mpr hslot) hpending
        nodup := hperm.nodup_iff.mpr hcalling.nodup }
  | setPresent key addr pending =>
      obtain ⟨rfl, hsubset, hloading⟩ := hinside
      cases pending with
      | nil =>
          cases hstep
          exact ⟨fun _ _ => id, .inl ⟨rfl, rfl, hloading⟩⟩
      | cons slot pending =>
          cases hstep
          refine ⟨fun _ _ => hloading.published_publish, .inl ⟨rfl, rfl, ?_, ?_⟩⟩
          · exact fun _ hslot => hsubset (List.mem_cons_of_mem _ hslot)
          · exact hloading.publish
  | decRefCnt key addr =>
      obtain ⟨rfl, hloading⟩ := hinside
      cases hstep
      exact ⟨fun _ _ => Published.congr rfl rfl,
        .inl ⟨rfl, rfl, hloading.finish⟩⟩
  | unlock key =>
      obtain ⟨rfl, hfinished⟩ := hinside
      cases hstep
      exact ⟨fun _ _ => Published.congr rfl rfl, .inr ⟨rfl, hfinished, rfl⟩⟩

/-- A call outside the lock only reads, or takes the free lock. -/
theorem Outside.step
    (hword : pointer.isPresent (shared.heap.metas slot) = false →
      pointer.getObjectId (shared.heap.metas slot) = objId)
    (hpublished : pointer.isPresent (shared.heap.metas slot) = true →
      Published pointer shared slot)
    (houtside : Outside pointer objId shared slot pc)
    (hstep : SwapIn.step pointer ring thread slot objAddr shared pc =
      some (next, nextPc)) :
    (next = shared ∧ Outside pointer objId shared slot nextPc) ∨
      (shared.lockOwner objId = none ∧
        next = { shared with
          lockOwner := Function.update shared.lockOwner objId (some thread) } ∧
        nextPc = .checkAgain objId) := by
  cases pc with
  | readId =>
      cases hstep
      exact .inl ⟨rfl, hpublished, hword⟩
  | checkPresent word =>
      rw [SwapIn.step] at hstep
      split at hstep <;> cases hstep <;> rename_i hpresent
      · exact .inl ⟨rfl, hpublished hpresent⟩
      · -- a word that was present would have stayed present
        refine .inl ⟨rfl, houtside.2 ?_⟩
        by_contra hword
        obtain ⟨_, _, _, hstill⟩ := houtside.1 (by simpa using hword)
        exact hpresent hstill.1
  | lock key =>
      cases houtside
      rw [SwapIn.step] at hstep
      split at hstep <;> cases hstep
      rename_i hfree
      exact .inr ⟨hfree, rfl, rfl⟩
  | returned => cases hstep
  | _ => exact houtside.elim

theorem Outside.mono
    (hkeep : Published pointer shared slot → Published pointer next slot)
    (houtside : Outside pointer objId shared slot pc) :
    Outside pointer objId next slot pc := by
  cases pc with
  | checkPresent word => exact ⟨fun hword => hkeep (houtside.1 hword), houtside.2⟩
  | returned => exact hkeep houtside
  | _ => exact houtside

theorem Untouched.metas_or_published {base : Shared Meta (Fin count)}
    (hobject : Untouched aliases base shared ∨
      Finished pointer aliases objId base shared) (hslot : slot ∈ aliases) :
    shared.heap.metas slot = base.heap.metas slot ∨
      Published pointer shared slot :=
  hobject.imp (fun huntouched => huntouched.metas slot hslot)
    fun hfinished => hfinished.published hslot

theorem Loading.metas_or_published {base : Shared Meta (Fin count)}
    {pending : List Slot} {reads : List (Fin count × ℕ)}
    (hloading : Loading pointer aliases base thread objAddr pending reads shared)
    (hslot : slot ∈ aliases) :
    shared.heap.metas slot = base.heap.metas slot ∨
      Published pointer shared slot := by
  by_cases hpending : slot ∈ pending
  · exact .inl (hloading.metas slot hpending)
  · exact .inr ⟨thread, objAddr, hloading.allocations,
      hloading.published slot hslot hpending⟩

/-- At every position of the loading thread an alias is as it was or published. -/
theorem Inside.metas_or_published {base : Shared Meta (Fin count)}
    (hinside : Inside pointer aliases objId base shared thread pc)
    (hslot : slot ∈ aliases) :
    shared.heap.metas slot = base.heap.metas slot ∨
      Published pointer shared slot := by
  cases pc with
  | readId | checkPresent word | lock key | returned => exact hinside.elim
  | checkAgain key => exact Untouched.metas_or_published hinside.2 hslot
  | allocate key => exact .inl (hinside.2.metas slot hslot)
  | readDsId key addr | readObject key addr dsId | checkShared key addr
  | decRefCnt key addr => exact hinside.2.metas_or_published hslot
  | setPresent key addr pending =>
      exact hinside.2.2.metas_or_published hslot
  | unlock key => exact .inr (hinside.2.published hslot)

variable {state after : State Meta count} {action : Action count}

theorem Inv.metas_or_published
    (hinv : Inv pointer ptr aliases objId start.shared state)
    (hslot : slot ∈ aliases) :
    state.shared.heap.metas slot = start.shared.heap.metas slot ∨
      Published pointer state.shared slot := by
  cases howner : state.shared.lockOwner objId with
  | none => exact Untouched.metas_or_published (hinv.free howner) hslot
  | some owner => exact (hinv.inside owner howner).metas_or_published hslot

theorem Calling.inv (hcalling : Calling pointer ring ptr aliases objId start) :
    Inv pointer ptr aliases objId start.shared start where
  outside thread _ := by
    rw [hcalling.pc thread]
    trivial
  inside thread howner := by
    rw [hcalling.unlocked] at howner
    cases howner
  free _ := .inl ⟨fun _ _ => rfl, hcalling.allocations, hcalling.reads, rfl⟩
  otherLocks _ _ := rfl

theorem step_eq_some (hstep : step pointer ring ptr state action = some after) :
    ∃ next nextPc, SwapIn.step pointer ring action.thread (ptr action.thread)
        action.objAddr state.shared (state.pc action.thread) =
          some (next, nextPc) ∧
      after = ⟨next, Function.update state.pc action.thread nextPc⟩ := by
  simp only [step] at hstep
  split at hstep <;> cases hstep
  exact ⟨_, _, by assumption, rfl⟩

/-- The thread that moved has the lock afterwards. -/
theorem Inv.of_locked {pcs : Fin count → Pc Meta}
    (howner : next.lockOwner objId = some thread)
    (hinside : Inside pointer aliases objId start.shared next thread nextPc)
    (hothers : ∀ other, other ≠ thread →
      Outside pointer objId next (ptr other) (pcs other))
    (hlocks : ∀ key, key ≠ objId →
      next.lockOwner key = start.shared.lockOwner key) :
    Inv pointer ptr aliases objId start.shared
      ⟨next, Function.update pcs thread nextPc⟩ where
  outside other hother := by
    have hne : other ≠ thread := by
      rintro rfl
      exact hother howner
    simpa only [Function.update_of_ne hne] using hothers other hne
  inside other hother := by
    obtain rfl : thread = other := Option.some.inj (howner.symm.trans hother)
    simpa only [Function.update_self] using hinside
  free hfree := by
    cases howner.symm.trans hfree
  otherLocks := hlocks

/-- Nobody has the lock after the thread moved. -/
theorem Inv.of_unlocked {pcs : Fin count → Pc Meta}
    (hfree : next.lockOwner objId = none)
    (hfinished : Finished pointer aliases objId start.shared next)
    (houtside : Outside pointer objId next (ptr thread) nextPc)
    (hothers : ∀ other, other ≠ thread →
      Outside pointer objId next (ptr other) (pcs other))
    (hlocks : ∀ key, key ≠ objId →
      next.lockOwner key = start.shared.lockOwner key) :
    Inv pointer ptr aliases objId start.shared
      ⟨next, Function.update pcs thread nextPc⟩ where
  outside other _ := by
    by_cases hne : other = thread
    · subst other
      simpa only [Function.update_self] using houtside
    · simpa only [Function.update_of_ne hne] using hothers other hne
  inside other hother := by
    cases hfree.symm.trans hother
  free _ := .inr hfinished
  otherLocks := hlocks

/-- A thread that has no lock moved without touching the memory. -/
theorem Inv.of_outside (hinv : Inv pointer ptr aliases objId start.shared state)
    (howner : state.shared.lockOwner objId ≠ some thread)
    (houtside : Outside pointer objId state.shared (ptr thread) nextPc) :
    Inv pointer ptr aliases objId start.shared
      ⟨state.shared, Function.update state.pc thread nextPc⟩ where
  outside other hother := by
    by_cases hne : other = thread
    · subst other
      simpa only [Function.update_self] using houtside
    · simpa only [Function.update_of_ne hne] using hinv.outside other hother
  inside other hother := by
    have hne : other ≠ thread := by
      rintro rfl
      exact howner hother
    simpa only [Function.update_of_ne hne] using hinv.inside other hother
  free := hinv.free
  otherLocks := hinv.otherLocks

theorem Inv.step (hcalling : Calling pointer ring ptr aliases objId start)
    (hinv : Inv pointer ptr aliases objId start.shared state)
    (hstep : step pointer ring ptr state action = some after) :
    Inv pointer ptr aliases objId start.shared after := by
  obtain ⟨next, nextPc, hcall, rfl⟩ := step_eq_some hstep
  generalize action.thread = thread at hcall ⊢
  have hcalled := hcalling.called thread
  by_cases howner : state.shared.lockOwner objId = some thread
  · obtain ⟨hkeep, hrest⟩ := (hinv.inside thread howner).step hcalling hcall
    have hothers : ∀ other, other ≠ thread →
        Outside pointer objId next (ptr other) (state.pc other) := by
      intro other hne
      have hnot : state.shared.lockOwner objId ≠ some other := by
        rw [howner]
        exact fun heq => hne (Option.some.inj heq).symm
      exact (hinv.outside other hnot).mono (hkeep _ (hcalling.called other))
    rcases hrest with ⟨hlocks, hinside⟩ | ⟨hlocks, hfinished, rfl⟩
    · refine .of_locked (hlocks ▸ howner) hinside hothers fun key hkey => ?_
      rw [hlocks, hinv.otherLocks key hkey]
    · refine .of_unlocked (by rw [hlocks, Function.update_self]) hfinished
        (hfinished.published hcalled) hothers fun key hkey => ?_
      rw [hlocks, Function.update_of_ne hkey, hinv.otherLocks key hkey]
  · have hword : pointer.isPresent (state.shared.heap.metas (ptr thread)) = false →
        pointer.getObjectId (state.shared.heap.metas (ptr thread)) = objId := by
      intro habsent
      rcases hinv.metas_or_published hcalled with hsame | ⟨_, _, _, hpresent⟩
      · rw [hsame, hcalling.names _ hcalled]
      · cases habsent.symm.trans hpresent.1
    have hpublished : pointer.isPresent (state.shared.heap.metas (ptr thread)) = true →
        Published pointer state.shared (ptr thread) := by
      intro hpresent
      refine (hinv.metas_or_published hcalled).resolve_left fun hsame => ?_
      rw [hsame, hcalling.absent _ hcalled] at hpresent
      cases hpresent
    rcases (hinv.outside thread howner).step hword hpublished hcall with
      ⟨rfl, houtside⟩ | ⟨hfree, rfl, rfl⟩
    · exact hinv.of_outside howner houtside
    · refine .of_locked (Function.update_self ..) ⟨rfl, ?_⟩ ?_ fun key hkey => ?_
      · refine (hinv.free hfree).imp (fun huntouched => ?_) id
        exact ⟨huntouched.metas, huntouched.allocations, huntouched.reads,
          huntouched.refCnt⟩
      · intro other _
        have hnot : state.shared.lockOwner objId ≠ some other := by
          simp [hfree]
        exact (hinv.outside other hnot).mono (Published.congr rfl rfl)
      · exact (Function.update_of_ne hkey ..).trans (hinv.otherLocks key hkey)

theorem Inv.of_run (hcalling : Calling pointer ring ptr aliases objId start)
    {actions : List (Action count)} {final : State Meta count}
    (hrun : (machine pointer ring ptr aliases objId).run start actions =
      some final) :
    Inv pointer ptr aliases objId start.shared final :=
  Library.Machine.run_induction (Inv pointer ptr aliases objId start.shared)
    (fun hinv hstep => hinv.step hcalling hstep) hcalling.inv hrun

/-! ## Every run ends -/

/-- Steps that a call still has ahead, for a ring of `size` aliases. -/
def remaining (size : ℕ) : Pc Meta → ℕ
  | .readId => size + 11
  | .checkPresent _ => size + 10
  | .lock _ => size + 9
  | .checkAgain _ => size + 8
  | .allocate _ => size + 7
  | .readDsId .. => size + 6
  | .readObject .. => size + 5
  | .checkShared .. => size + 4
  | .setPresent _ _ pending => pending.length + 3
  | .decRefCnt .. => 2
  | .unlock _ => 1
  | .returned => 0

theorem remaining_step {size : ℕ}
    (hsize : ∀ key addr, pc = .checkShared key addr →
      (aliasesOf pointer ring shared.heap slot).length = size)
    (hstep : SwapIn.step pointer ring thread slot objAddr shared pc =
      some (next, nextPc)) :
    remaining size nextPc < remaining size pc := by
  cases pc with
  | checkPresent word | lock key | checkAgain key | allocate key =>
      rw [SwapIn.step] at hstep
      split at hstep <;> cases hstep <;> simp [remaining]
  | checkShared key addr =>
      cases hstep
      simp [remaining, hsize key addr rfl]
  | setPresent key addr pending =>
      cases pending <;> cases hstep <;> simp [remaining]
  | returned => cases hstep
  | _ =>
      cases hstep
      simp [remaining]

theorem Inv.aliasesOf_length
    (hcalling : Calling pointer ring ptr aliases objId start)
    (hinv : Inv pointer ptr aliases objId start.shared state) {key addr : ℕ}
    (hpc : state.pc thread = .checkShared key addr) :
    (aliasesOf pointer ring state.shared.heap (ptr thread)).length =
      aliases.length := by
  by_cases howner : state.shared.lockOwner objId = some thread
  · have hinside := hinv.inside thread howner
    rw [hpc] at hinside
    exact (hinside.2.aliasesOf_perm hcalling (hcalling.called thread)).length_eq
  · have houtside := hinv.outside thread howner
    rw [hpc] at houtside
    exact houtside.elim

theorem sum_remaining_step
    (hcalling : Calling pointer ring ptr aliases objId start)
    (hinv : Inv pointer ptr aliases objId start.shared state)
    (hstep : step pointer ring ptr state action = some after) :
    ∑ thread, remaining aliases.length (after.pc thread) <
      ∑ thread, remaining aliases.length (state.pc thread) := by
  obtain ⟨next, nextPc, hcall, rfl⟩ := step_eq_some hstep
  generalize action.thread = thread at hcall ⊢
  have hlower : remaining aliases.length nextPc <
      remaining aliases.length (state.pc thread) :=
    remaining_step (fun _ _ hpc => hinv.aliasesOf_length hcalling hpc) hcall
  refine Finset.sum_lt_sum (fun other _ => ?_) ⟨thread, Finset.mem_univ _, ?_⟩
  · by_cases hne : other = thread
    · subst other
      simpa only [Function.update_self] using hlower.le
    · simp only [Function.update_of_ne hne, le_refl]
  · simpa only [Function.update_self] using hlower

/-- Runs are bounded by the number of callers and the size of the ring. -/
theorem length_le_of_run
    (hcalling : Calling pointer ring ptr aliases objId start)
    {actions : List (Action count)} {final : State Meta count}
    (hrun : (machine pointer ring ptr aliases objId).run start actions =
      some final) :
    actions.length ≤ count * (aliases.length + 11) := by
  have hbound := Library.Machine.length_le_of_run
    (Inv pointer ptr aliases objId start.shared)
    (fun state => ∑ thread, remaining aliases.length (state.pc thread))
    (fun hinv hstep => hinv.step hcalling hstep)
    (fun hinv hstep => sum_remaining_step hcalling hinv hstep) hcalling.inv hrun
  calc actions.length
      ≤ ∑ thread, remaining aliases.length (start.pc thread) :=
        (Nat.le_add_right _ _).trans hbound
    _ = ∑ _thread : Fin count, (aliases.length + 11) :=
        Finset.sum_congr rfl fun thread _ => by
          rw [hcalling.pc thread, remaining]
    _ = count * (aliases.length + 11) := by simp

/-- A call that has not returned never blocks all of them. -/
theorem exists_step
    (hinv : Inv pointer ptr aliases objId start.shared state)
    (hunfinished : state.pc thread ≠ .returned) :
    ∃ action after, step pointer ring ptr state action = some after := by
  have henabled : ∃ runner, (SwapIn.step pointer ring runner (ptr runner) 0
      state.shared (state.pc runner)).isSome = true := by
    cases howner : state.shared.lockOwner objId with
    | none =>
        have houtside := hinv.outside thread (by simp [howner])
        refine ⟨thread, ?_⟩
        cases hpc : state.pc thread with
        | readId => rfl
        | checkPresent word => rw [SwapIn.step]; split <;> rfl
        | lock key =>
            rw [hpc] at houtside
            rw [SwapIn.step, if_pos (by rw [houtside, howner])]
            rfl
        | returned => exact absurd hpc hunfinished
        | _ =>
            rw [hpc] at houtside
            exact houtside.elim
    | some owner =>
        have hinside := hinv.inside owner howner
        refine ⟨owner, ?_⟩
        cases hpc : state.pc owner with
        | checkAgain key => rw [SwapIn.step]; split <;> rfl
        | allocate key =>
            rw [SwapIn.step, if_pos pointer.addrBound_pos]
            rfl
        | setPresent key addr pending => cases pending <;> rfl
        | readDsId | readObject | checkShared | decRefCnt | unlock => rfl
        | _ =>
            rw [hpc] at hinside
            exact hinside.elim
  obtain ⟨runner, hrunner⟩ := henabled
  obtain ⟨result, hresult⟩ := Option.isSome_iff_exists.mp hrunner
  exact ⟨⟨runner, 0⟩, _, by rw [step, hresult]⟩

theorem Inv.finished_of_returned (hcount : 0 < count)
    (hinv : Inv pointer ptr aliases objId start.shared state)
    (hreturned : ∀ thread, state.pc thread = .returned) :
    state.shared.lockOwner objId = none ∧
      Finished pointer aliases objId start.shared state.shared := by
  have hfree : state.shared.lockOwner objId = none := by
    by_contra hheld
    obtain ⟨owner, howner⟩ := Option.ne_none_iff_exists'.mp hheld
    have hinside := hinv.inside owner howner
    rw [hreturned owner] at hinside
    exact hinside
  refine ⟨hfree, (hinv.free hfree).resolve_left fun huntouched => ?_⟩
  have houtside := hinv.outside ⟨0, hcount⟩ (by simp [hfree])
  rw [hreturned] at houtside
  obtain ⟨loader, addr, hallocations, -⟩ := houtside
  cases huntouched.allocations.symm.trans hallocations

end Steps

section Result

variable {pointer ring ptr}

/-- One thread allocated the object and read the device, every alias is present
at its copy, and the locks and reference counts are as they were. -/
def LoadedOnce (pointer : FarMemPtrMeta Meta) (aliases : List Slot) (objId : ℕ)
    (start final : Shared Meta (Fin count)) : Prop :=
  ∃ loader objAddr, final.allocations = [(loader, objAddr)] ∧
    final.reads = [(loader, objId)] ∧
    (∀ slot ∈ aliases, PresentAt pointer final objAddr slot) ∧
    final.lockOwner = start.lockOwner ∧
    final.heap.refCnt = start.heap.refCnt

/-- Any number of concurrent calls load the object once.  A call returns with
its own pointer present at the one copy, a call that took the lock leaves every
alias there, and no interleaving is endless or stuck. -/
theorem loads_once {aliases : List Slot} {objId : ℕ}
    {start final : State Meta count} {actions : List (Action count)}
    (hcalling : Calling pointer ring ptr aliases objId start)
    (hrun : (machine pointer ring ptr aliases objId).run start actions =
      some final) :
    (∀ thread, final.pc thread = .returned →
        Published pointer final.shared (ptr thread)) ∧
      (∀ thread key, final.pc thread = .unlock key →
        ∀ slot ∈ aliases, Published pointer final.shared slot) ∧
      (0 < count → (∀ thread, final.pc thread = .returned) →
        LoadedOnce pointer aliases objId start.shared
          final.shared) ∧
      actions.length ≤ count * (aliases.length + 11) ∧
      ((∃ thread, final.pc thread ≠ .returned) →
        ∃ action after, step pointer ring ptr final action = some after) := by
  have hinv := Inv.of_run hcalling hrun
  refine ⟨fun thread hpc => ?_, fun thread key hpc slot hslot => ?_,
    fun hcount hreturned => ?_, length_le_of_run hcalling hrun,
    fun ⟨thread, hunfinished⟩ => exists_step hinv hunfinished⟩
  · by_cases howner : final.shared.lockOwner objId = some thread
    · have hinside := hinv.inside thread howner
      rw [hpc] at hinside
      exact hinside.elim
    · have houtside := hinv.outside thread howner
      rwa [hpc] at houtside
  · by_cases howner : final.shared.lockOwner objId = some thread
    · have hinside := hinv.inside thread howner
      rw [hpc] at hinside
      exact hinside.2.published hslot
    · have houtside := hinv.outside thread howner
      rw [hpc] at houtside
      exact houtside.elim
  · obtain ⟨hfree, loader, addr, hpresent, hallocations, hreads, hrefCnt⟩ :=
      hinv.finished_of_returned hcount hreturned
    refine ⟨loader, addr, hallocations, hreads, hpresent, ?_, hrefCnt⟩
    funext key
    by_cases hkey : key = objId
    · rw [hkey, hfree, hcalling.unlocked]
    · exact hinv.otherLocks key hkey

end Result

/-! ## Two callers on a ring of two aliases -/

/-- Object 7, 32 bytes long, swapped out behind shared pointers. -/
def absentWord : ℕ :=
  (FarMemPtrMeta.pointerHpp 16).gcWb (2 ^ 9) 0 32 7

def pairRing (slot : Slot) : List Slot :=
  if slot = 64 then [64, 80] else [80, 64]

def pairHeap : Heap ℕ where
  metas _ := absentWord
  objects _ := none
  device _ _ := []
  refCnt _ := 0

/-- Two threads that are about to call through the alias at 64. -/
def pairStart : State ℕ 2 where
  shared := { heap := pairHeap, lockOwner := fun _ => none }
  pc _ := .readId

/-- Thread 0 runs until it has published the alias at 64. -/
def publishRun : List (Action 2) :=
  List.replicate 9 ⟨0, 4096⟩

/-- Thread 1 then calls and returns. -/
def earlyReturnRun : List (Action 2) :=
  publishRun ++ [⟨1, 0⟩, ⟨1, 0⟩]

/-- Thread 0 finishes its call as well. -/
def pairRun : List (Action 2) :=
  earlyReturnRun ++ List.replicate 4 ⟨0, 0⟩

theorem calling_pairStart :
    Calling (FarMemPtrMeta.pointerHpp 16) pairRing (fun _ => 64) [64, 80] 7
      pairStart where
  pc _ := rfl
  called _ := by decide
  nodup := by decide
  absent := by decide
  names := by decide
  reach := by decide
  unlocked := rfl
  allocations := rfl
  reads := rfl

theorem run_pairRun :
    ∃ final, (machine (FarMemPtrMeta.pointerHpp 16) pairRing (fun _ => 64)
        [64, 80] 7).run pairStart pairRun = some final ∧
      ∀ thread, final.pc thread = .returned := by
  refine ⟨_, rfl, fun thread => ?_⟩
  fin_cases thread <;> rfl

theorem loads_once_pairRun :
    ∃ final, (machine (FarMemPtrMeta.pointerHpp 16) pairRing (fun _ => 64)
        [64, 80] 7).run pairStart pairRun = some final ∧
      LoadedOnce (FarMemPtrMeta.pointerHpp 16) [64, 80] 7 pairStart.shared
        final.shared := by
  obtain ⟨final, hrun, hreturned⟩ := run_pairRun
  exact ⟨final, hrun,
    (loads_once calling_pairStart hrun).2.2.1 (by decide) hreturned⟩

/-- A call that finds its own alias published returns before the others are. -/
theorem not_forall_aliases_present :
    ¬ ∀ (pointer : FarMemPtrMeta ℕ) (ring : Slot → List Slot)
        (ptr : Fin 2 → Slot) (aliases : List Slot) (objId : ℕ)
        (start final : State ℕ 2) (actions : List (Action 2)) (thread : Fin 2),
      Calling pointer ring ptr aliases objId start →
      (machine pointer ring ptr aliases objId).run start actions = some final →
      final.pc thread = .returned →
      ∃ objAddr, ∀ slot ∈ aliases, PresentAt pointer final.shared objAddr slot := by
  intro hclaim
  obtain ⟨objAddr, hpresent⟩ := hclaim _ _ _ _ _ pairStart _ earlyReturnRun 1
    calling_pairStart rfl rfl
  exact absurd (hpresent 80 (by decide)).1 (by decide)

end DynamicSwap.ConcurrentSwapIn
