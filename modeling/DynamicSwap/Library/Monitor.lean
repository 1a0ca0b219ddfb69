import DynamicSwap.Library.Machine

/-!
# Locks and condition variables

A lock guards the threads whose position is critical: its owner is at such a
position and no other thread is.  The rules below say what entering, leaving,
moving inside and waking all sleepers do to that.  A table of locks accounts for
what parties hold when its entries are exactly that.  The last section restricts
a machine to some of its steps and counts steps along a run.
-/

namespace DynamicSwap.Library

section Guards

variable {Thread Position : Type*}

/-- Exactly the owner of the lock is at a critical position. -/
def Guards (critical : Position → Prop) (owner : Option Thread)
    (positions : Thread → Position) : Prop :=
  ∀ thread, critical (positions thread) ↔ owner = some thread

variable {critical : Position → Prop} {owner : Option Thread}
variable {positions : Thread → Position} {thread other : Thread} {position : Position}

theorem guards_of_free (hfree : ∀ thread, ¬critical (positions thread)) :
    Guards critical none positions := by
  intro thread
  simp [hfree thread]

/-- Mutual exclusion. -/
theorem Guards.eq (hguards : Guards critical owner positions)
    (hthread : critical (positions thread)) (hother : critical (positions other)) :
    thread = other := by
  have howner := (hguards thread).mp hthread
  rw [(hguards other).mp hother, Option.some.injEq] at howner
  exact howner.symm

theorem Guards.owner_eq (hguards : Guards critical owner positions)
    (hthread : critical (positions thread)) : owner = some thread :=
  (hguards thread).mp hthread

/-- Waking threads moves none of them into or out of the critical section. -/
theorem Guards.map (hguards : Guards critical owner positions)
    {wake : Position → Position}
    (hwake : ∀ position, critical (wake position) ↔ critical position) :
    Guards critical owner fun thread => wake (positions thread) := by
  intro thread
  rw [hwake, hguards thread]

variable [DecidableEq Thread]

theorem Guards.acquire (hguards : Guards critical none positions)
    (hposition : critical position) :
    Guards critical (some thread) (Function.update positions thread position) := by
  intro other
  by_cases hother : other = thread
  · subst hother
    simp [hposition]
  · rw [Function.update_of_ne hother, hguards other]
    simp [Ne.symm hother]

theorem Guards.release (hguards : Guards critical owner positions)
    (hthread : critical (positions thread)) (hposition : ¬critical position) :
    Guards critical none (Function.update positions thread position) := by
  apply guards_of_free
  intro other
  by_cases hother : other = thread
  · subst hother
    simpa using hposition
  · rw [Function.update_of_ne hother]
    exact fun hcritical => hother (hguards.eq hcritical hthread)

/-- A thread moves inside the critical section, or outside it. -/
theorem Guards.move (hguards : Guards critical owner positions)
    (hsame : critical position ↔ critical (positions thread)) :
    Guards critical owner (Function.update positions thread position) := by
  intro other
  by_cases hother : other = thread
  · subst hother
    rw [Function.update_self, hsame, hguards other]
  · rw [Function.update_of_ne hother, hguards other]

end Guards

section LockTable

variable {Key Party : Type*}

/-- The locks of the table are exactly those that the parties hold, each party
at most one. -/
def Accounted (owner : Key → Option Party) (held : Party → Option Key) : Prop :=
  ∀ key party, owner key = some party ↔ held party = some key

variable {owner : Key → Option Party} {held : Party → Option Key}
variable {key : Key} {party other : Party}

/-- One lock has one holder. -/
theorem Accounted.eq (haccounted : Accounted owner held) (hparty : held party = some key)
    (hother : held other = some key) : party = other := by
  have howner := (haccounted key party).mpr hparty
  rw [(haccounted key other).mpr hother, Option.some.injEq] at howner
  exact howner.symm

variable [DecidableEq Key] [DecidableEq Party]

theorem Accounted.acquire (haccounted : Accounted owner held) (hfree : owner key = none)
    (hparty : held party = none) :
    Accounted (Function.update owner key (some party))
      (Function.update held party (some key)) := by
  intro lock holder
  by_cases hlock : lock = key <;> by_cases hholder : holder = party
  · simp [hlock, hholder]
  · have hnot : held holder ≠ some key := by
      rw [ne_eq, ← haccounted, hfree]
      simp
    simp [hlock, hholder, hnot, Ne.symm hholder]
  · have hnot : owner lock ≠ some party := by
      rw [ne_eq, haccounted, hparty]
      simp
    simp [hlock, hholder, hnot, Ne.symm hlock]
  · rw [Function.update_of_ne hlock, Function.update_of_ne hholder]
    exact haccounted lock holder

theorem Accounted.release (haccounted : Accounted owner held)
    (hparty : held party = some key) :
    Accounted (Function.update owner key none) (Function.update held party none) := by
  intro lock holder
  by_cases hlock : lock = key <;> by_cases hholder : holder = party
  · simp [hlock, hholder]
  · have hnot : held holder ≠ some key := fun hheld =>
      hholder (haccounted.eq hheld hparty)
    simp [hlock, hholder, hnot]
  · have hnot : owner lock ≠ some party := by
      rw [ne_eq, haccounted, hparty, Option.some.injEq]
      exact fun heq => hlock heq.symm
    simp [hlock, hholder, hnot]
  · rw [Function.update_of_ne hlock, Function.update_of_ne hholder]
    exact haccounted lock holder

end LockTable

namespace Machine

variable {State Action : Type*}

/-- The machine that takes only the allowed steps. -/
def restrict (machine : Machine State Action) (allowed : State → Action → Bool) :
    Machine State Action where
  initial := machine.initial
  step state action := if allowed state action then machine.step state action else none

variable {machine : Machine State Action} {allowed : State → Action → Bool}

theorem restrict_step_eq_some {state next : State} {action : Action} :
    (machine.restrict allowed).step state action = some next ↔
      allowed state action = true ∧ machine.step state action = some next := by
  rw [restrict, Option.ite_none_right_eq_some]

/-- The total over all threads after one of them has moved. -/
theorem sum_update {Thread Position : Type*} [Fintype Thread] [DecidableEq Thread]
    (amount : Position → ℕ) (positions : Thread → Position) (thread : Thread)
    (position : Position) :
    ∑ other, amount (Function.update positions thread position other) +
        amount (positions thread) =
      ∑ other, amount (positions other) + amount position := by
  have hothers : ∑ other ∈ Finset.univ.erase thread,
      amount (Function.update positions thread position other) =
        ∑ other ∈ Finset.univ.erase thread, amount (positions other) := by
    refine Finset.sum_congr rfl fun other hother => ?_
    rw [Function.update_of_ne (Finset.ne_of_mem_erase hother)]
  rw [← Finset.add_sum_erase _ _ (Finset.mem_univ thread),
    ← Finset.add_sum_erase Finset.univ (fun other => amount (positions other))
      (Finset.mem_univ thread), hothers, Function.update_self]
  omega

/-- What the steps of a run amount to. -/
def runTotal (machine : Machine State Action) (amount : State → Action → ℕ) :
    State → List Action → ℕ
  | _, [] => 0
  | state, action :: actions =>
      amount state action +
        match machine.step state action with
        | none => 0
        | some next => runTotal machine amount next actions

/-- A step pays its cost out of the measure and what it gains, and so does a
run. -/
theorem runTotal_le (Inv : State → Prop) (measure : State → ℕ)
    (cost gain : State → Action → ℕ)
    (hkeep : ∀ {state next : State} {action : Action}, Inv state →
      machine.step state action = some next → Inv next)
    (hpay : ∀ {state next : State} {action : Action}, Inv state →
      machine.step state action = some next →
        measure next + cost state action ≤ measure state + gain state action)
    {state final : State} {actions : List Action} (hinv : Inv state)
    (hrun : machine.run state actions = some final) :
    measure final + machine.runTotal cost state actions ≤
      measure state + machine.runTotal gain state actions := by
  induction actions generalizing state with
  | nil =>
      rw [run_nil, Option.some.injEq] at hrun
      simp [runTotal, hrun]
  | cons action actions ih =>
      obtain ⟨next, hstep, hrest⟩ := run_cons.mp hrun
      have hnext := ih (hkeep hinv hstep) hrest
      have hstepPay := hpay hinv hstep
      simp only [runTotal, hstep]
      omega

end Machine

end DynamicSwap.Library
