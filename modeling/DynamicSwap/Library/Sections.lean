import DynamicSwap.Library.Monitor

/-!
# Critical sections are atomic

Threads call operations on a shared state.  An operation takes one lock, runs
step by step while it holds it, and returns; steps that need no lock run in
between.  If those move to before the steps of another thread's section, the
shared state is at every moment where the lock is free the result of running the
operations one after the other, in the order in which they returned.
-/

namespace DynamicSwap.Library

/-- Operations under one lock.  `step` is one step inside a section: `none` when
it cannot be taken, a new local state, or the result of the operation.  `free`
is a step that takes no lock. -/
structure Sections (Thread Call Local Answer Result Request Shared : Type*) where
  enter : Call → Local
  step : Thread → Local → Answer → Shared → Option (Shared × (Local ⊕ Result))
  free : Thread → Request → Shared → Option Shared

namespace Sections

variable {Thread Call Local Answer Result Request Shared : Type*}

/-- Where a thread is with its operation: before the lock, or inside the section
with a local state or with the result it will return. -/
inductive Position (Call Local Result : Type*)
  | outside
  | waiting (call : Call)
  | inside (call : Call) (outcome : Local ⊕ Result)

def Position.Critical : Position Call Local Result → Prop
  | .outside | .waiting _ => False
  | .inside .. => True

/-- `returned` lists the finished operations with their results. -/
structure State (Thread Call Local Result Shared : Type*) where
  shared : Shared
  owner : Option Thread
  positions : Thread → Position Call Local Result
  returned : List (Thread × Call × Result)

inductive Action (Thread Call Answer Request : Type*)
  | call (thread : Thread) (call : Call)
  | lock (thread : Thread)
  | run (thread : Thread) (answer : Answer)
  | unlock (thread : Thread)
  | free (thread : Thread) (request : Request)

variable (sections : Sections Thread Call Local Answer Result Request Shared)

/-- The steps of one section, without those of other threads. -/
inductive Ran (thread : Thread) (start : Local) (base : Shared) :
    Local ⊕ Result → Shared → Prop
  | start : Ran thread start base (.inl start) base
  | step {here : Local} {answer : Answer} {shared next : Shared}
      {outcome : Local ⊕ Result} (hran : Ran thread start base (.inl here) shared)
      (hstep : sections.step thread here answer shared = some (next, outcome)) :
      Ran thread start base outcome next

variable (atomic : Thread → Call → Result → Shared → Shared → Prop)

/-- Running whole operations one after the other, with lock-free steps between
them. -/
inductive Sequential (start : Shared) : List (Thread × Call × Result) → Shared → Prop
  | start : Sequential start [] start
  | call {log : List (Thread × Call × Result)} {shared next : Shared} {thread : Thread}
      {call : Call} {result : Result} (hbefore : Sequential start log shared)
      (hatomic : atomic thread call result shared next) :
      Sequential start (log ++ [(thread, call, result)]) next
  | free {log : List (Thread × Call × Result)} {shared next : Shared} {thread : Thread}
      {request : Request} (hbefore : Sequential start log shared)
      (hfree : sections.free thread request shared = some next) :
      Sequential start log next

/-- A section has the effect of its operation, from shared states that satisfy
`Keep`, and a lock-free step of another thread moves to before any of its
steps. -/
structure Linearizes (Keep : Shared → Prop) : Prop where
  mover : ∀ {thread other : Thread} {request : Request} {here : Local} {answer : Answer}
    {shared middle next : Shared} {outcome : Local ⊕ Result}, other ≠ thread →
    sections.step thread here answer shared = some (middle, outcome) →
    sections.free other request middle = some next →
      ∃ before, sections.free other request shared = some before ∧
        sections.step thread here answer before = some (next, outcome)
  effect : ∀ {thread : Thread} {call : Call} {result : Result} {base shared : Shared},
    Keep base → sections.Ran thread (sections.enter call) base (.inr result) shared →
      atomic thread call result base shared
  keep : ∀ {thread : Thread} {call : Call} {result : Result} {base shared : Shared},
    Keep base → atomic thread call result base shared → Keep shared
  keep_free : ∀ {thread : Thread} {request : Request} {base shared : Shared},
    Keep base → sections.free thread request base = some shared → Keep shared

variable {sections atomic} {Keep : Shared → Prop} {start base : Shared}
variable {thread other : Thread}

/-- A lock-free step of another thread moves to before a whole section. -/
theorem Ran.mover (hlinearizes : sections.Linearizes atomic Keep) {here : Local}
    {outcome : Local ⊕ Result} {shared next : Shared} {request : Request}
    (hother : other ≠ thread) (hran : sections.Ran thread here base outcome shared)
    (hfree : sections.free other request shared = some next) :
    ∃ before, sections.free other request base = some before ∧
      sections.Ran thread here before outcome next := by
  induction hran generalizing next with
  | start => exact ⟨next, hfree, .start⟩
  | step hran hstep ih =>
      obtain ⟨middle, hmiddle, hmoved⟩ := hlinearizes.mover hother hstep hfree
      obtain ⟨before, hbefore, hrun⟩ := ih hmiddle
      exact ⟨before, hbefore, hrun.step hmoved⟩

/-- A section that cannot take its first step does not end. -/
theorem Ran.eq_start {here : Local} {outcome : Local ⊕ Result} {shared : Shared}
    (hstuck : ∀ answer shared, sections.step thread here answer shared = none)
    (hran : sections.Ran thread here base outcome shared) : outcome = .inl here := by
  induction hran with
  | start => rfl
  | step _ hstep ih =>
      cases ih
      rw [hstuck] at hstep
      cases hstep

/-- What every interleaving keeps: `base` is the shared state without the
unfinished section of the owner. -/
structure Inv (sections : Sections Thread Call Local Answer Result Request Shared)
    (atomic : Thread → Call → Result → Shared → Shared → Prop) (Keep : Shared → Prop)
    (start : Shared) (state : State Thread Call Local Result Shared) (base : Shared) :
    Prop where
  guards : Guards Position.Critical state.owner state.positions
  keep : Keep base
  sequential : sections.Sequential atomic start state.returned base
  idle : state.owner = none → state.shared = base
  inside : ∀ thread call outcome, state.positions thread = .inside call outcome →
    sections.Ran thread (sections.enter call) base outcome state.shared

variable {state after : State Thread Call Local Result Shared}

theorem critical_of_inside {call : Call} {outcome : Local ⊕ Result}
    (hthread : state.positions thread = .inside call outcome) :
    (state.positions thread).Critical := by
  rw [hthread]
  trivial

/-- With the lock free, the shared state may take the place of the base. -/
theorem Inv.of_free (hguards : Guards Position.Critical none state.positions)
    (howner : state.owner = none) (hkeep : Keep state.shared)
    (hsequential : sections.Sequential atomic start state.returned state.shared) :
    Inv sections atomic Keep start state state.shared := by
  constructor
  case guards => exact howner ▸ hguards
  case keep => exact hkeep
  case sequential => exact hsequential
  case idle => exact fun _ => rfl
  case inside =>
    intro thread call outcome hthread
    cases (hguards thread).mp (critical_of_inside hthread)

/-- A lock-free step of a thread that is in no section. -/
theorem Inv.free {request : Request} {shared : Shared}
    (hlinearizes : sections.Linearizes atomic Keep)
    (hinv : Inv sections atomic Keep start state base)
    (hthread : ¬(state.positions thread).Critical)
    (hfree : sections.free thread request state.shared = some shared) :
    ∃ base, Inv sections atomic Keep start { state with shared := shared } base := by
  have hguards := hinv.guards
  by_cases howner : state.owner = none
  · rw [hinv.idle howner] at hfree
    rw [howner] at hguards
    exact ⟨shared, Inv.of_free hguards howner (hlinearizes.keep_free hinv.keep hfree)
      (hinv.sequential.free hfree)⟩
  · obtain ⟨owner, howns⟩ := Option.ne_none_iff_exists'.mp howner
    have hcritical := (hguards owner).mpr howns
    have hne : thread ≠ owner := by
      rintro rfl
      exact hthread hcritical
    obtain ⟨call, outcome, howned⟩ : ∃ call outcome,
        state.positions owner = .inside call outcome := by
      cases hposition : state.positions owner with
      | inside call outcome => exact ⟨call, outcome, rfl⟩
      | _ => simp [hposition, Position.Critical] at hcritical
    obtain ⟨before, hbefore, hran⟩ :=
      (hinv.inside owner call outcome howned).mover hlinearizes hne hfree
    refine ⟨before, hguards, hlinearizes.keep_free hinv.keep hbefore,
      hinv.sequential.free hbefore, fun hnone => absurd hnone howner, ?_⟩
    intro other called there hother
    have hsame : other = owner := hguards.eq (critical_of_inside hother) hcritical
    subst hsame
    cases howned.symm.trans hother
    exact hran

variable [DecidableEq Thread]

/-- A thread takes a lock-free step only outside an operation. -/
def next (sections : Sections Thread Call Local Answer Result Request Shared)
    (state : State Thread Call Local Result Shared) :
    Action Thread Call Answer Request → Option (State Thread Call Local Result Shared)
  | .call thread call =>
      match state.positions thread with
      | .outside =>
          some { state with
            positions := Function.update state.positions thread (.waiting call) }
      | _ => none
  | .lock thread =>
      match state.positions thread, state.owner with
      | .waiting call, none =>
          some { state with
            owner := some thread
            positions := Function.update state.positions thread
              (.inside call (.inl (sections.enter call))) }
      | _, _ => none
  | .run thread answer =>
      match state.positions thread with
      | .inside call (.inl here) =>
          match sections.step thread here answer state.shared with
          | none => none
          | some (shared, outcome) =>
              some { state with
                shared := shared
                positions := Function.update state.positions thread
                  (.inside call outcome) }
      | _ => none
  | .unlock thread =>
      match state.positions thread with
      | .inside call (.inr result) =>
          some { state with
            owner := none
            positions := Function.update state.positions thread .outside
            returned := state.returned ++ [(thread, call, result)] }
      | _ => none
  | .free thread request =>
      match state.positions thread with
      | .outside =>
          match sections.free thread request state.shared with
          | none => none
          | some shared => some { state with shared := shared }
      | _ => none

/-- From a shared state that satisfies `initial`, with every thread outside. -/
def machine (sections : Sections Thread Call Local Answer Result Request Shared)
    (initial : Shared → Prop) :
    Machine (State Thread Call Local Result Shared) (Action Thread Call Answer Request) where
  initial state :=
    initial state.shared ∧ state.owner = none ∧
      (∀ thread, state.positions thread = .outside) ∧ state.returned = []
  step := sections.next

variable {position : Position Call Local Result}

/-- A thread that is in no section changes its position. -/
theorem Inv.setPosition (hinv : Inv sections atomic Keep start state base)
    (hthread : ¬(state.positions thread).Critical) (hposition : ¬position.Critical) :
    Inv sections atomic Keep start
      { state with positions := Function.update state.positions thread position } base := by
  constructor
  case guards => exact hinv.guards.move (iff_of_false hposition hthread)
  case keep => exact hinv.keep
  case sequential => exact hinv.sequential
  case idle => exact hinv.idle
  case inside =>
    intro other call outcome hother
    dsimp only at hother
    rw [Function.update_apply] at hother
    split at hother
    · exact absurd (by simp [hother, Position.Critical]) hposition
    · exact hinv.inside other call outcome hother

theorem Inv.lock {call : Call} (hinv : Inv sections atomic Keep start state base)
    (howner : state.owner = none) :
    Inv sections atomic Keep start
      { state with
        owner := some thread
        positions := Function.update state.positions thread
          (.inside call (.inl (sections.enter call))) } base := by
  have hguards := hinv.guards
  rw [howner] at hguards
  constructor
  case guards => exact hguards.acquire trivial
  case keep => exact hinv.keep
  case sequential => exact hinv.sequential
  case idle => simp
  case inside =>
    intro other called outcome hother
    dsimp only at hother
    rw [Function.update_apply] at hother
    split at hother
    · cases hother
      rw [hinv.idle howner]
      exact .start
    · cases (hguards other).mp (critical_of_inside hother)

/-- The owner takes a step of its section. -/
theorem Inv.advance {call : Call} {here : Local} {answer : Answer} {shared : Shared}
    {outcome : Local ⊕ Result} (hinv : Inv sections atomic Keep start state base)
    (hthread : state.positions thread = .inside call (.inl here))
    (hstep : sections.step thread here answer state.shared = some (shared, outcome)) :
    Inv sections atomic Keep start
      { state with
        shared := shared
        positions := Function.update state.positions thread (.inside call outcome) }
      base := by
  have hcritical := critical_of_inside hthread
  constructor
  case guards => exact hinv.guards.move (iff_of_true trivial hcritical)
  case keep => exact hinv.keep
  case sequential => exact hinv.sequential
  case idle =>
    intro hfree
    cases (hinv.guards.owner_eq hcritical).symm.trans hfree
  case inside =>
    intro other called there hother
    dsimp only at hother
    rw [Function.update_apply] at hother
    split at hother
    · rename_i hsame
      cases hother
      exact hsame ▸ (hinv.inside thread call _ hthread).step hstep
    · rename_i hne
      exact absurd (hinv.guards.eq (critical_of_inside hother) hcritical) hne

/-- The operation takes its effect when its section ends. -/
theorem Inv.unlock {call : Call} {result : Result}
    (hlinearizes : sections.Linearizes atomic Keep)
    (hinv : Inv sections atomic Keep start state base)
    (hthread : state.positions thread = .inside call (.inr result)) :
    Inv sections atomic Keep start
      { state with
        owner := none
        positions := Function.update state.positions thread .outside
        returned := state.returned ++ [(thread, call, result)] } state.shared := by
  have heffect := hlinearizes.effect hinv.keep (hinv.inside thread call _ hthread)
  refine Inv.of_free ?_ rfl (hlinearizes.keep hinv.keep heffect)
    (hinv.sequential.call heffect)
  exact hinv.guards.release (critical_of_inside hthread) (by simp [Position.Critical])

theorem Inv.next {action : Action Thread Call Answer Request}
    (hlinearizes : sections.Linearizes atomic Keep)
    (hinv : Inv sections atomic Keep start state base)
    (hstep : sections.next state action = some after) :
    ∃ base, Inv sections atomic Keep start after base := by
  cases action with
  | call thread call =>
      simp only [Sections.next] at hstep
      cases hposition : state.positions thread with
      | outside =>
          simp only [hposition, Option.some.injEq] at hstep
          exact hstep ▸ ⟨base, hinv.setPosition (by simp [hposition, Position.Critical])
            (by simp [Position.Critical])⟩
      | _ => simp [hposition] at hstep
  | lock thread =>
      simp only [Sections.next] at hstep
      cases hposition : state.positions thread with
      | waiting call =>
          cases howner : state.owner with
          | none =>
              simp only [hposition, howner, Option.some.injEq] at hstep
              exact hstep ▸ ⟨base, hinv.lock howner⟩
          | some owner => simp [hposition, howner] at hstep
      | _ => simp [hposition] at hstep
  | run thread answer =>
      simp only [Sections.next] at hstep
      cases hposition : state.positions thread with
      | inside call outcome =>
          cases outcome with
          | inl here =>
              simp only [hposition] at hstep
              split at hstep
              · cases hstep
              · rename_i shared outcome hran
                cases hstep
                exact ⟨base, hinv.advance hposition hran⟩
          | inr result => simp [hposition] at hstep
      | _ => simp [hposition] at hstep
  | unlock thread =>
      simp only [Sections.next] at hstep
      cases hposition : state.positions thread with
      | inside call outcome =>
          cases outcome with
          | inl here => simp [hposition] at hstep
          | inr result =>
              simp only [hposition, Option.some.injEq] at hstep
              exact hstep ▸ ⟨state.shared, hinv.unlock hlinearizes hposition⟩
      | _ => simp [hposition] at hstep
  | free thread request =>
      simp only [Sections.next] at hstep
      cases hposition : state.positions thread with
      | outside =>
          simp only [hposition] at hstep
          split at hstep
          · cases hstep
          · rename_i shared hfree
            cases hstep
            exact hinv.free hlinearizes (by simp [hposition, Position.Critical]) hfree
      | _ => simp [hposition] at hstep

/-- Whenever the lock is free, the shared state is what the finished operations
give one after the other; inside a section it is that and the section's steps. -/
theorem Linearizes.exists_inv {initial : Shared → Prop}
    (hlinearizes : sections.Linearizes atomic Keep)
    (hkeep : ∀ {shared : Shared}, initial shared → Keep shared)
    (hreachable : (sections.machine initial).Reachable state) :
    ∃ start base, initial start ∧ Inv sections atomic Keep start state base := by
  refine hreachable.invariant
    (fun state => ∃ start base, initial start ∧ Inv sections atomic Keep start state base)
    ?_ ?_
  · rintro first ⟨hinitial, howner, houtside, hreturned⟩
    refine ⟨first.shared, first.shared, hinitial, Inv.of_free ?_ howner (hkeep hinitial) ?_⟩
    · exact guards_of_free fun thread => by simp [houtside thread, Position.Critical]
    · rw [hreturned]
      exact .start
  · rintro before after action ⟨first, base, hinitial, hinv⟩ - hstep
    obtain ⟨moved, hmoved⟩ := hinv.next hlinearizes hstep
    exact ⟨first, moved, hinitial, hmoved⟩

end Sections

end DynamicSwap.Library
