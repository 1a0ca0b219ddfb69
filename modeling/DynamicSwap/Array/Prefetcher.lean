import DynamicSwap.Library.Lifetimes

/-!
# The lifetimes of an array's prefetcher and of its slots

`GenericArray` declares `prefetcher_` in its protected section and `ptrs_` in the
public one after it.  The threads of the prefetcher read `ptrs_` through its
address from the construction of `prefetcher_` to its destruction, which encloses
the lifetime of `ptrs_`.  With the two declared the other way round no read could
fall outside.
-/

namespace DynamicSwap.Prefetcher

open Library.Lifetimes (Event start)

/-- The members of `GenericArray`. -/
inductive Member
  | kItemSize
  | dynamicPrefetchEnabled
  | prefetcher
  | kNumItems
  | ptrs
  deriving DecidableEq

/-- The order of declaration in `array.hpp`, which the constructor's initializer
list does not change. -/
def declared : List Member :=
  [.kItemSize, .dynamicPrefetchEnabled, .prefetcher, .kNumItems, .ptrs]

theorem nodup_declared : declared.Nodup := by decide

/-- A thread of the prefetcher maps an index to a slot through `&ptrs_`. -/
structure Mapping where
  thread : ℕ
  idx : BitVec 64
  deriving DecidableEq

/-- The threads run from the construction of `prefetcher_` until its destructor
stops them. -/
def machine (members : List Member) :
    Library.Machine (Library.Lifetimes Member) (Event Member Mapping) :=
  Library.Lifetimes.machine members fun lifetimes _ => .prefetcher ∈ lifetimes.alive

/-- Every mapping step finds `ptrs_` constructed and not destroyed. -/
def ReadsInside (members : List Member) (events : List (Event Member Mapping)) : Prop :=
  ∀ before mapping after lifetimes, events = before ++ Event.use mapping :: after →
    (machine members).run (start members) before = some lifetimes →
      .ptrs ∈ lifetimes.alive

/-- Every mapping step is taken after the construction of the last member and
before any member is destroyed. -/
def OnWholeArray (events : List (Event Member Mapping)) : Prop :=
  ∀ before mapping after, events = before ++ Event.use mapping :: after →
    ∀ member, Event.construct member ∈ before ∧ Event.destroy member ∉ before

variable {members : List Member} {lifetimes final : Library.Lifetimes Member}
  {events : List (Event Member Mapping)} {member : Member}

/-! ## The order of declaration -/

/-- A mapping step is taken by a thread of a prefetcher that is alive. -/
theorem prefetcher_mem_of_use {before after : List (Event Member Mapping)} {mapping : Mapping}
    (hrun : (machine members).run (start members) events = some final)
    (hsplit : events = before ++ Event.use mapping :: after)
    (hreaches : (machine members).run (start members) before = some lifetimes) :
    .prefetcher ∈ lifetimes.alive := by
  rw [hsplit, Library.Machine.run_append] at hrun
  obtain ⟨middle, hmiddle, hrest⟩ := hrun
  cases hreaches.symm.trans hmiddle
  obtain ⟨next, hstep, -⟩ := Library.Machine.run_cons.mp hrest
  exact of_decide_eq_true (Library.Lifetimes.use_eq_some hstep).1

/-- No run reads outside the lifetime of the slots exactly when they are declared
before the prefetcher. -/
theorem always_readsInside_iff (hprefetcher : .prefetcher ∈ members) :
    (∀ events final, (machine members).run (start members) events = some final →
        ReadsInside members events) ↔
      members.idxOf .ptrs < members.idxOf .prefetcher := by
  have hne : members.idxOf Member.ptrs ≠ members.idxOf .prefetcher := by
    intro heq
    cases (List.idxOf_inj hprefetcher).mp heq.symm
  rw [← hne.le_iff_lt, ← Library.Lifetimes.always_mem_alive_iff hprefetcher]
  constructor
  · intro hinside events final hrun halive
    -- The prefetcher may take a step at the end of this run.
    have hstep : (machine members).step final (.use ⟨0, 0⟩) = some final :=
      if_pos (decide_eq_true halive)
    have hmore : (machine members).run (start members) (events ++ [.use ⟨0, 0⟩]) =
        some final :=
      Library.Machine.run_append.mpr ⟨final, hrun, Library.Machine.run_cons.mpr
        ⟨final, hstep, rfl⟩⟩
    exact hinside _ _ hmore events ⟨0, 0⟩ [] final rfl hrun
  · intro halways events final hrun before mapping after lifetimes hsplit hreaches
    exact halways before lifetimes hreaches (prefetcher_mem_of_use hrun hsplit hreaches)

/-- `ptrs_` is declared last, so while it is alive the whole array is. -/
theorem mem_alive_of_ptrs (hreachable : (machine declared).Reachable lifetimes)
    (hptrs : .ptrs ∈ lifetimes.alive) (member : Member) : member ∈ lifetimes.alive := by
  have hle : declared.idxOf member ≤ declared.idxOf .ptrs := by
    cases member <;> decide
  exact (Library.Lifetimes.ordered_of_reachable hreachable).mem_alive hle hptrs

theorem mem_alive_iff (hrun : (machine declared).run (start declared) events = some final) :
    member ∈ final.alive ↔ .construct member ∈ events ∧ .destroy member ∉ events := by
  have hnodup : ((start declared).alive ++ (start declared).pending).Nodup := nodup_declared
  rw [Library.Lifetimes.mem_alive_run_iff hnodup hrun]
  simp [start]

/-- As declared, a run reads inside exactly when the whole array is alive at each
of its mapping steps. -/
theorem readsInside_iff_onWholeArray
    (hrun : (machine declared).run (start declared) events = some final) :
    ReadsInside declared events ↔ OnWholeArray events := by
  constructor
  · intro hinside before mapping after hsplit member
    obtain ⟨lifetimes, hreaches, -⟩ := Library.Machine.run_append.mp (hsplit ▸ hrun)
    have hptrs := hinside before mapping after lifetimes hsplit hreaches
    exact (mem_alive_iff hreaches).mp
      (mem_alive_of_ptrs (.of_run rfl hreaches) hptrs member)
  · intro hwhole before mapping after lifetimes hsplit hreaches
    exact (mem_alive_iff hreaches).mpr (hwhole before mapping after hsplit .ptrs)

/-- Of the orders in which the five members can be declared, those are safe that
have `ptrs_` before `prefetcher_`.  The one of `array.hpp` is not: its runs read
inside exactly when they map indices on the whole array only. -/
theorem readsInside_iff
    (hrun : (machine declared).run (start declared) events = some final) :
    (∀ members : List Member, members.Perm declared →
      ((∀ events final, (machine members).run (start members) events = some final →
          ReadsInside members events) ↔
        members.idxOf .ptrs < members.idxOf .prefetcher)) ∧
      (ReadsInside declared events ↔ OnWholeArray events) := by
  constructor
  · intro members hperm
    exact always_readsInside_iff (hperm.mem_iff.mpr (by decide))
  · exact readsInside_iff_onWholeArray hrun

/-- A life of an array with one mapping step after its construction. -/
def prefetchesAlive : List (Event Member Mapping) :=
  declared.map Event.construct ++ Event.use ⟨0, 7⟩ :: declared.reverse.map Event.destroy

theorem readsInside_prefetchesAlive :
    (∀ members : List Member, members.Perm declared →
      ((∀ events final, (machine members).run (start members) events = some final →
          ReadsInside members events) ↔
        members.idxOf .ptrs < members.idxOf .prefetcher)) ∧
      (ReadsInside declared prefetchesAlive ↔ OnWholeArray prefetchesAlive) := by
  have hrun : (machine declared).run (start declared) prefetchesAlive = some ⟨[], []⟩ := by
    decide +kernel
  exact readsInside_iff hrun

/-- A life of an array with one mapping step between two destructions. -/
def prefetchesLate : List (Event Member Mapping) :=
  declared.map Event.construct ++ [Event.destroy Member.ptrs] ++ Event.use ⟨0, 7⟩ ::
    [Event.destroy .kNumItems, .destroy .prefetcher, .destroy .dynamicPrefetchEnabled,
      .destroy .kItemSize]

theorem not_readsInside_prefetchesLate :
    (machine declared).run (start declared) prefetchesLate = some ⟨[], []⟩ ∧
      ¬ ReadsInside declared prefetchesLate := by
  refine ⟨by decide +kernel, fun hinside => ?_⟩
  have hptrs := hinside (declared.map Event.construct ++ [.destroy .ptrs]) ⟨0, 7⟩ _
    ⟨[], [.kNumItems, .prefetcher, .dynamicPrefetchEnabled, .kItemSize]⟩ rfl (by decide +kernel)
  revert hptrs
  decide

end DynamicSwap.Prefetcher
