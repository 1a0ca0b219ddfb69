import DynamicSwap.Library.Machine

/-!
# Lifetimes of members

The members of an object are constructed in the order of their declaration and
destroyed in the reverse order, and other code runs in between.  What is alive is
always a first part of the declaration, so the lifetime of a member encloses
those of the members declared after it.
-/

namespace DynamicSwap.Library

/-- Members that are still to be constructed, in order, and those that are
alive, the latest first. -/
structure Lifetimes (Member : Type*) where
  pending : List Member
  alive : List Member
  deriving DecidableEq

namespace Lifetimes

/-- A step of the object's life or of code that runs meanwhile. -/
inductive Event (Member Use : Type*)
  | construct (member : Member)
  | destroy (member : Member)
  | use (use : Use)
  deriving DecidableEq

variable {Member Use : Type*}

def start (members : List Member) : Lifetimes Member :=
  ⟨members, []⟩

/-- What is alive and what is pending make up a first part of the declaration. -/
def Ordered (members : List Member) (lifetimes : Lifetimes Member) : Prop :=
  lifetimes.alive.reverse ++ lifetimes.pending <+: members

theorem ordered_start (members : List Member) : Ordered members (start members) :=
  List.prefix_refl _

variable [DecidableEq Member]

/-- A member that is declared no later is alive whenever the later one is. -/
theorem Ordered.mem_alive {earlier later : Member} {members : List Member}
    {lifetimes : Lifetimes Member} (hordered : Ordered members lifetimes)
    (hle : members.idxOf earlier ≤ members.idxOf later)
    (halive : later ∈ lifetimes.alive) : earlier ∈ lifetimes.alive := by
  have hprefix : lifetimes.alive.reverse <+: members :=
    (List.prefix_append _ _).trans hordered
  rw [← List.mem_reverse, hprefix.mem_iff_idxOf_lt_length] at halive ⊢
  exact hle.trans_lt halive

/-! ## Steps -/

/-- The next member in the order of declaration. -/
def construct (member : Member) (lifetimes : Lifetimes Member) :
    Option (Lifetimes Member) :=
  match lifetimes.pending with
  | [] => none
  | next :: pending =>
      if next = member then some ⟨pending, member :: lifetimes.alive⟩ else none

/-- The latest member, once all have been constructed. -/
def destroy (member : Member) (lifetimes : Lifetimes Member) :
    Option (Lifetimes Member) :=
  match lifetimes.pending, lifetimes.alive with
  | [], last :: alive => if last = member then some ⟨[], alive⟩ else none
  | _, _ => none

/-- Other code runs where `enabled` says so and changes no lifetime. -/
def step (enabled : Lifetimes Member → Use → Bool) (lifetimes : Lifetimes Member) :
    Event Member Use → Option (Lifetimes Member)
  | .construct member => lifetimes.construct member
  | .destroy member => lifetimes.destroy member
  | .use use => if enabled lifetimes use then some lifetimes else none

def machine (members : List Member) (enabled : Lifetimes Member → Use → Bool) :
    Machine (Lifetimes Member) (Event Member Use) where
  initial lifetimes := lifetimes = start members
  step := step enabled

variable {members : List Member} {enabled : Lifetimes Member → Use → Bool}
  {lifetimes next final : Lifetimes Member} {member : Member}
  {events : List (Event Member Use)}

theorem construct_eq_some (hconstruct : lifetimes.construct member = some next) :
    lifetimes.pending = member :: next.pending ∧ next.alive = member :: lifetimes.alive := by
  rw [construct] at hconstruct
  split at hconstruct
  · cases hconstruct
  · rename_i hpending
    rw [Option.ite_none_right_eq_some] at hconstruct
    obtain ⟨rfl, ⟨⟩⟩ := hconstruct
    exact ⟨hpending, rfl⟩

theorem destroy_eq_some (hdestroy : lifetimes.destroy member = some next) :
    lifetimes.pending = [] ∧ next.pending = [] ∧
      lifetimes.alive = member :: next.alive := by
  rw [destroy] at hdestroy
  split at hdestroy
  · rename_i hpending halive
    rw [Option.ite_none_right_eq_some] at hdestroy
    obtain ⟨rfl, ⟨⟩⟩ := hdestroy
    exact ⟨hpending, rfl, halive⟩
  · cases hdestroy

theorem use_eq_some {use : Use}
    (huse : (machine members enabled).step lifetimes (.use use) = some next) :
    enabled lifetimes use = true ∧ next = lifetimes := by
  simp only [machine, step, Option.ite_none_right_eq_some, Option.some.injEq] at huse
  exact ⟨huse.1, huse.2.symm⟩

theorem Ordered.step (hordered : Ordered members lifetimes) {event : Event Member Use}
    (hstep : (machine members enabled).step lifetimes event = some next) :
    Ordered members next := by
  cases event with
  | construct member =>
      obtain ⟨hpending, halive⟩ := construct_eq_some hstep
      rw [Ordered, hpending] at hordered
      rw [Ordered, halive, List.reverse_cons, List.append_assoc]
      exact hordered
  | destroy member =>
      obtain ⟨hpending, hnext, halive⟩ := destroy_eq_some hstep
      rw [Ordered, hpending, halive, List.reverse_cons, List.append_nil] at hordered
      rw [Ordered, hnext, List.append_nil]
      exact (List.prefix_append _ _).trans hordered
  | use use => exact (use_eq_some hstep).2 ▸ hordered

theorem ordered_of_reachable (hreachable : (machine members enabled).Reachable lifetimes) :
    Ordered members lifetimes :=
  hreachable.invariant (Ordered members) (fun hinitial => by
    rw [hinitial]
    exact ordered_start members)
    fun hordered _ hstep => hordered.step hstep

theorem run_construct (front back alive : List Member) :
    (machine members enabled).run ⟨front ++ back, alive⟩ (front.map Event.construct) =
      some ⟨back, front.reverse ++ alive⟩ := by
  induction front generalizing alive with
  | nil => rfl
  | cons member front ih =>
      rw [List.map_cons, Machine.run_cons]
      refine ⟨⟨front ++ back, member :: alive⟩, if_pos rfl, ?_⟩
      rw [ih, List.reverse_cons, List.append_assoc, List.singleton_append]

/-- Whatever happens, one member is alive as long as another one is, exactly when
it is declared no later. -/
theorem always_mem_alive_iff {owner used : Member} (howner : owner ∈ members) :
    (∀ events final, (machine members enabled).run (start members) events = some final →
        owner ∈ final.alive → used ∈ final.alive) ↔
      members.idxOf used ≤ members.idxOf owner := by
  constructor
  · intro halways
    -- Construction stopped right after the owner.
    have hrun : (machine members enabled).run (start members)
        ((members.take (members.idxOf owner + 1)).map Event.construct) = some
          ⟨members.drop (members.idxOf owner + 1),
            (members.take (members.idxOf owner + 1)).reverse ++ []⟩ := by
      rw [← run_construct, List.take_append_drop]
      rfl
    have hprefix := List.take_prefix (members.idxOf owner + 1) members
    have hlength : (members.take (members.idxOf owner + 1)).length =
        members.idxOf owner + 1 := by
      have hlt := List.idxOf_lt_length_of_mem howner
      rw [List.length_take]
      omega
    have hused := halways _ _ hrun
    simp only [List.append_nil, List.mem_reverse, hprefix.mem_iff_idxOf_lt_length, hlength]
      at hused
    exact Nat.le_of_lt_succ (hused (Nat.lt_succ_self _))
  · intro hle events final hrun halive
    have hreachable : (machine members enabled).Reachable final := .of_run rfl hrun
    exact (ordered_of_reachable hreachable).mem_alive hle halive

/-! ## Lifetimes of a trace -/

theorem mem_pending_of_construct_mem
    (hrun : (machine members enabled).run lifetimes events = some final)
    (hconstruct : .construct member ∈ events) : member ∈ lifetimes.pending := by
  induction events generalizing lifetimes with
  | nil => cases hconstruct
  | cons event events ih =>
      obtain ⟨next, hstep, hrest⟩ := Machine.run_cons.mp hrun
      cases event with
      | construct first =>
          obtain ⟨hpending, _⟩ := construct_eq_some hstep
          rw [hpending, List.mem_cons]
          rcases List.mem_cons.mp hconstruct with hsame | hlater
          · exact .inl (Event.construct.inj hsame)
          · exact .inr (ih hrest hlater)
      | destroy last =>
          have hlater := (List.mem_cons.mp hconstruct).resolve_left nofun
          have hnext := ih hrest hlater
          rw [(destroy_eq_some hstep).2.1] at hnext
          cases hnext
      | use use =>
          have hlater := (List.mem_cons.mp hconstruct).resolve_left nofun
          exact (use_eq_some hstep).2 ▸ ih hrest hlater

/-- After a trace those members are alive that it constructs, or that were
alive, and that it does not destroy; by induction on the trace. -/
theorem mem_alive_run_iff (hnodup : (lifetimes.alive ++ lifetimes.pending).Nodup)
    (hrun : (machine members enabled).run lifetimes events = some final) :
    member ∈ final.alive ↔
      (member ∈ lifetimes.alive ∨ .construct member ∈ events) ∧
        .destroy member ∉ events := by
  induction events generalizing lifetimes with
  | nil =>
      rw [Machine.run_nil, Option.some.injEq] at hrun
      simp [hrun]
  | cons event events ih =>
      obtain ⟨next, hstep, hrest⟩ := Machine.run_cons.mp hrun
      cases event with
      | construct first =>
          obtain ⟨hpending, halive⟩ := construct_eq_some hstep
          rw [hpending] at hnodup
          have hnext : (next.alive ++ next.pending).Nodup := by
            rw [halive]
            exact List.perm_middle.nodup_iff.mp hnodup
          rw [ih hnext hrest, halive]
          simp only [List.mem_cons, Event.construct.injEq, reduceCtorEq, false_or]
          exact and_congr_left' (by rw [or_comm (a := member = first), or_assoc])
      | destroy last =>
          obtain ⟨hpending, hnone, halive⟩ := destroy_eq_some hstep
          rw [halive, hpending, List.append_nil, List.nodup_cons] at hnodup
          have hnext : (next.alive ++ next.pending).Nodup := by
            rw [hnone, List.append_nil]
            exact hnodup.2
          have hconstruct : .construct member ∉ events := by
            intro hmem
            have hpendingNext := mem_pending_of_construct_mem hrest hmem
            rw [hnone] at hpendingNext
            cases hpendingNext
          rw [ih hnext hrest, halive]
          simp only [List.mem_cons, Event.destroy.injEq, reduceCtorEq, hconstruct, or_false,
            not_or]
          by_cases hsame : member = last
          · simp [hsame, hnodup.1]
          · simp [hsame]
      | use use =>
          rw [(use_eq_some hstep).2] at hrest
          rw [ih hnodup hrest]
          simp

end Lifetimes

end DynamicSwap.Library
