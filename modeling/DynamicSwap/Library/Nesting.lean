import Mathlib

/-!
# Nested disabling

A trace that disables and enables something, nested, and makes calls that need
it enabled.  `follow` computes the depth along a trace and stops where it would
become negative or a call comes too deep; it succeeds on exactly the traces with
neither.
-/

namespace DynamicSwap.Library.Nesting

inductive Event (Call : Type*)
  | disable
  | enable
  | call (call : Call)
  deriving DecidableEq

variable {Call : Type*}

/-- What an event adds to the depth. -/
def Event.delta : Event Call → ℤ
  | .disable => 1
  | .enable => -1
  | .call _ => 0

def depth (events : List (Event Call)) : ℤ :=
  (events.map Event.delta).sum

@[simp]
theorem depth_nil : depth ([] : List (Event Call)) = 0 := rfl

@[simp]
theorem depth_cons (event : Event Call) (events : List (Event Call)) :
    depth (event :: events) = event.delta + depth events := by
  rw [depth, List.map_cons, List.sum_cons, depth]

/-- From depth `start` the depth is never negative and every call is made at
depth zero. -/
structure SaneFrom (start : ℤ) (events : List (Event Call)) : Prop where
  nonneg : ∀ before, before <+: events → 0 ≤ start + depth before
  outermost : ∀ before call after, events = before ++ .call call :: after →
    start + depth before = 0

/-- The depth after a trace, if all goes well. -/
def follow : ℕ → List (Event Call) → Option ℕ
  | depth, [] => some depth
  | depth, .disable :: events => follow (depth + 1) events
  | 0, .enable :: _ => none
  | depth + 1, .enable :: events => follow depth events
  | 0, .call _ :: events => follow 0 events
  | _ + 1, .call _ :: _ => none

@[simp]
theorem follow_nil (depth : ℕ) : follow depth ([] : List (Event Call)) = some depth := rfl

@[simp]
theorem follow_disable (depth : ℕ) (events : List (Event Call)) :
    follow depth (.disable :: events) = follow (depth + 1) events := by
  rw [follow]

@[simp]
theorem follow_enable (depth : ℕ) (events : List (Event Call)) :
    follow (depth + 1) (.enable :: events) = follow depth events := rfl

@[simp]
theorem follow_call (call : Call) (events : List (Event Call)) :
    follow 0 (.call call :: events) = follow 0 events := rfl

@[simp]
theorem follow_call_succ (depth : ℕ) (call : Call) (events : List (Event Call)) :
    follow (depth + 1) (.call call :: events) = none := rfl

theorem follow_append (depth : ℕ) (first second : List (Event Call)) :
    follow depth (first ++ second) =
      (follow depth first).bind fun depth => follow depth second := by
  induction first generalizing depth with
  | nil => rfl
  | cons event first ih =>
      cases event <;> cases depth <;> simp [follow, ih]

/-- A trace that succeeds leads on from the depth it ends at. -/
theorem follow_append_of {start middle : ℕ} {first : List (Event Call)}
    (hfirst : follow start first = some middle) (second : List (Event Call)) :
    follow start (first ++ second) = follow middle second := by
  rw [follow_append, hfirst, Option.bind_some]

theorem depth_of_follow {start final : ℕ} {events : List (Event Call)}
    (hfollow : follow start events = some final) : start + depth events = final := by
  induction events generalizing start with
  | nil =>
      cases hfollow
      simp
  | cons event events ih =>
      cases event with
      | disable =>
          have hrest := ih hfollow
          rw [depth_cons, Event.delta]
          omega
      | enable =>
          cases start with
          | zero => cases hfollow
          | succ start =>
              have hrest := ih hfollow
              rw [depth_cons, Event.delta]
              omega
      | call call =>
          cases start with
          | zero =>
              have hrest := ih hfollow
              rw [depth_cons, Event.delta]
              omega
          | succ start => cases hfollow

theorem saneFrom_nil {start : ℤ} :
    SaneFrom start ([] : List (Event Call)) ↔ 0 ≤ start := by
  constructor
  · intro hsane
    simpa using hsane.nonneg [] (List.prefix_refl _)
  · intro hstart
    constructor
    · intro before hbefore
      rw [List.prefix_nil.mp hbefore]
      simpa using hstart
    · intro before call after hsplit
      exact absurd hsplit.symm (List.append_ne_nil_of_right_ne_nil _ (List.cons_ne_nil _ _))

/-- One event further. -/
theorem saneFrom_cons {start : ℤ} {event : Event Call} {events : List (Event Call)} :
    SaneFrom start (event :: events) ↔
      0 ≤ start ∧ (∀ call, event = .call call → start = 0) ∧
        SaneFrom (start + event.delta) events := by
  constructor
  · intro hsane
    refine ⟨by simpa using hsane.nonneg [] (List.nil_prefix), ?_, ?_, ?_⟩
    · rintro call rfl
      simpa using hsane.outermost [] call events rfl
    · intro before hbefore
      have hlonger := hsane.nonneg (event :: before) (List.cons_prefix_cons.mpr ⟨rfl, hbefore⟩)
      rw [depth_cons] at hlonger
      omega
    · intro before call after hsplit
      have hlonger := hsane.outermost (event :: before) call after (by rw [hsplit]; rfl)
      rw [depth_cons] at hlonger
      omega
  · rintro ⟨hstart, hcall, hsane⟩
    constructor
    · intro before hbefore
      rcases List.prefix_cons_iff.mp hbefore with rfl | ⟨rest, rfl, hrest⟩
      · simpa using hstart
      · have hshorter := hsane.nonneg rest hrest
        rw [depth_cons]
        omega
    · intro before call after hsplit
      cases before with
      | nil =>
          rw [List.nil_append, List.cons.injEq] at hsplit
          simpa using hcall call hsplit.1
      | cons first before =>
          rw [List.cons_append, List.cons.injEq] at hsplit
          have hshorter := hsane.outermost before call after hsplit.2
          rw [depth_cons, ← hsplit.1]
          omega

/-- `follow` succeeds on the sane traces. -/
theorem isSome_follow_iff {start : ℕ} {events : List (Event Call)} :
    (follow start events).isSome = true ↔ SaneFrom start events := by
  induction events generalizing start with
  | nil => simp [saneFrom_nil]
  | cons event events ih =>
      rw [saneFrom_cons]
      cases event with
      | disable => simp [ih, Event.delta]
      | enable =>
          cases start with
          | zero =>
              have hnegative : ¬ SaneFrom (-1) events := fun hsane =>
                absurd (hsane.nonneg [] List.nil_prefix) (by simp)
              simpa [follow, Event.delta] using hnegative
          | succ start =>
              have hsame : ((start + 1 : ℕ) : ℤ) + -1 = start := by omega
              rw [Event.delta, hsame, follow_enable, ih]
              simp
              omega
      | call call =>
          cases start with
          | zero => simp [ih, Event.delta]
          | succ start =>
              have hdeep : ((start + 1 : ℕ) : ℤ) ≠ 0 := by omega
              exact iff_of_false (by simp) fun hsane => hdeep (hsane.2.1 call rfl)

/-! ## Traces that leave the depth as it is -/

/-- From any depth the trace succeeds and ends there: it makes no call. -/
def Balanced (events : List (Event Call)) : Prop :=
  ∀ depth, follow depth events = some depth

theorem balanced_nil : Balanced ([] : List (Event Call)) :=
  follow_nil

theorem Balanced.append {first second : List (Event Call)} (hfirst : Balanced first)
    (hsecond : Balanced second) : Balanced (first ++ second) := by
  intro depth
  rw [follow_append_of (hfirst depth), hsecond]

theorem Balanced.follow_append {first : List (Event Call)} (hfirst : Balanced first)
    (depth : ℕ) (second : List (Event Call)) :
    follow depth (first ++ second) = follow depth second :=
  follow_append_of (hfirst depth) second

theorem balanced_flatten_replicate {events : List (Event Call)} (hevents : Balanced events)
    (count : ℕ) : Balanced (List.replicate count events).flatten := by
  induction count with
  | zero => exact balanced_nil
  | succ count ih =>
      rw [List.replicate_succ, List.flatten_cons]
      exact hevents.append ih

theorem balanced_ite (condition : Prop) [Decidable condition] {events : List (Event Call)}
    (hevents : Balanced events) : Balanced (if condition then events else []) := by
  split
  · exact hevents
  · exact balanced_nil

/-- Calls at depth zero leave it at zero. -/
theorem follow_replicate_call (call : Call) (count : ℕ) :
    follow 0 (List.replicate count (.call call)) = some 0 := by
  induction count with
  | zero => rfl
  | succ count ih => rw [List.replicate_succ, follow_call, ih]

end DynamicSwap.Library.Nesting
