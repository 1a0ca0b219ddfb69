import DynamicSwap.Library.Machine

/-!
# Data-structure ids

The constructor queues the ids below 255 without the vanilla one;
`allocate_ds_id` takes the front and `free_ds_id` appends.  Held and queued ids
divide up what the constructor queued until an allocation finds the queue empty:
`front` and `pop` are called without a test.
-/

namespace DynamicSwap.DsIds

/-- The constructor's loop over a `uint8_t`, for a bounded number of tests. -/
def queueDsIds (kVanillaPtrDSID : BitVec 8) :
    ℕ → BitVec 8 → List (BitVec 8) → Option (List (BitVec 8))
  | 0, _, _ => none
  | tests + 1, dsId, availableDsIds =>
      if dsId < BitVec.allOnes 8 then
        queueDsIds kVanillaPtrDSID tests (dsId + 1)
          (if dsId ≠ kVanillaPtrDSID then availableDsIds ++ [dsId] else availableDsIds)
      else some availableDsIds

/-- `available_ds_ids_`, the ids that callers hold, and whether `front` or `pop`
was called on the empty queue. -/
structure State where
  availableDsIds : List (BitVec 8)
  held : List (BitVec 8)
  tookFromEmpty : Bool
  deriving DecidableEq

/-- The constructor; the loop ends within 256 tests. -/
def construct (kVanillaPtrDSID : BitVec 8) : State where
  availableDsIds := (queueDsIds kVanillaPtrDSID 256 0 []).getD []
  held := []
  tookFromEmpty := false

/-- A call.  `garbage` is what `front` returns from an empty queue. -/
inductive Call
  | allocateDsId (garbage : BitVec 8)
  | freeDsId (dsId : BitVec 8)

/-- `allocate_ds_id`; after a `pop` from the empty queue it is taken to stay
empty. -/
def allocateDsId (garbage : BitVec 8) (state : State) : State :=
  match state.availableDsIds with
  | [] => { state with held := garbage :: state.held, tookFromEmpty := true }
  | dsId :: availableDsIds =>
      { state with availableDsIds := availableDsIds, held := dsId :: state.held }

/-- `free_ds_id` of an id that the caller holds. -/
def freeDsId (dsId : BitVec 8) (state : State) : State :=
  { state with
    availableDsIds := state.availableDsIds ++ [dsId]
    held := state.held.erase dsId }

def step (state : State) : Call → Option State
  | .allocateDsId garbage => some (allocateDsId garbage state)
  | .freeDsId dsId => if dsId ∈ state.held then some (freeDsId dsId state) else none

def machine (kVanillaPtrDSID : BitVec 8) : Library.Machine State Call where
  initial state := state = construct kVanillaPtrDSID
  step := step

/-- What the pool promises to the holders. -/
structure Sound (kVanillaPtrDSID : BitVec 8) (state : State) : Prop where
  exactly : (state.held ++ state.availableDsIds).Perm
    (construct kVanillaPtrDSID).availableDsIds
  disjoint : state.held.Disjoint state.availableDsIds
  nodup : state.held.Nodup
  vanilla : kVanillaPtrDSID ∉ state.held
  tookFromEmpty : state.tookFromEmpty = false

/-- An allocation comes when fewer ids are held than the constructor queued. -/
def idsLeft (kVanillaPtrDSID : BitVec 8) (state : State) : Call → Bool
  | .allocateDsId _ =>
      state.held.length < (construct kVanillaPtrDSID).availableDsIds.length
  | .freeDsId _ => true

variable {kVanillaPtrDSID : BitVec 8} {state next final : State} {calls : List Call}

/-! ## The constructor -/

/-- The loop appends every id from `dsId` to 254 but the vanilla one. -/
theorem queueDsIds_eq {tests : ℕ} {dsId : BitVec 8} (availableDsIds : List (BitVec 8))
    (htests : 255 < dsId.toNat + tests) :
    queueDsIds kVanillaPtrDSID tests dsId availableDsIds =
      some (availableDsIds ++
        ((List.range' dsId.toNat (255 - dsId.toNat)).map (BitVec.ofNat 8)).filter
          fun dsId => dsId ≠ kVanillaPtrDSID) := by
  induction tests generalizing dsId availableDsIds with
  | zero =>
      have hlt := dsId.isLt
      omega
  | succ tests ih =>
      rw [queueDsIds]
      by_cases hmore : dsId < BitVec.allOnes 8
      · have hlt : dsId.toNat < 255 := hmore
        have hnext : (dsId + 1).toNat = dsId.toNat + 1 := by
          rw [BitVec.toNat_add]
          exact Nat.mod_eq_of_lt (Nat.succ_lt_succ hlt)
        have hrange : 255 - dsId.toNat = (255 - (dsId.toNat + 1)) + 1 := by omega
        rw [if_pos hmore, ih _ (by omega), hnext, hrange, List.range'_succ, List.map_cons,
          BitVec.ofNat_toNat, BitVec.setWidth_eq, List.filter_cons]
        split <;> simp_all
      · have hle : 255 ≤ dsId.toNat := Nat.le_of_not_lt hmore
        rw [if_neg hmore, Nat.sub_eq_zero_of_le hle]
        simp

theorem availableDsIds_construct (kVanillaPtrDSID : BitVec 8) :
    (construct kVanillaPtrDSID).availableDsIds =
      ((List.range' 0 255).map (BitVec.ofNat 8)).filter fun dsId => dsId ≠ kVanillaPtrDSID := by
  rw [construct, queueDsIds_eq [] (by decide)]
  rfl

/-- The constructor queues each id but 255 and the vanilla one. -/
theorem mem_construct {dsId : BitVec 8} :
    dsId ∈ (construct kVanillaPtrDSID).availableDsIds ↔
      dsId.toNat < 255 ∧ dsId ≠ kVanillaPtrDSID := by
  rw [availableDsIds_construct, List.mem_filter, decide_eq_true_eq, List.mem_map]
  apply and_congr_left'
  constructor
  · rintro ⟨index, hindex, rfl⟩
    rw [List.mem_range'_1] at hindex
    rw [BitVec.toNat_ofNat]
    omega
  · intro hlt
    refine ⟨dsId.toNat, List.mem_range'_1.mpr ⟨Nat.zero_le _, by omega⟩, ?_⟩
    rw [BitVec.ofNat_toNat, BitVec.setWidth_eq]

theorem nodup_construct (kVanillaPtrDSID : BitVec 8) :
    (construct kVanillaPtrDSID).availableDsIds.Nodup := by
  rw [availableDsIds_construct]
  apply List.Nodup.filter
  apply List.Nodup.map_on _ List.nodup_range'
  intro first hfirst second hsecond hsame
  rw [List.mem_range'_1] at hfirst hsecond
  have htoNat := congrArg BitVec.toNat hsame
  rw [BitVec.toNat_ofNat, BitVec.toNat_ofNat] at htoNat
  omega

/-! ## Calls -/

/-- What every call keeps while the pool lasts. -/
structure Divided (kVanillaPtrDSID : BitVec 8) (state : State) : Prop where
  perm : (state.held ++ state.availableDsIds).Perm
    (construct kVanillaPtrDSID).availableDsIds
  tookFromEmpty : state.tookFromEmpty = false

theorem held_construct (kVanillaPtrDSID : BitVec 8) :
    (construct kVanillaPtrDSID).held = [] := rfl

theorem divided_construct (kVanillaPtrDSID : BitVec 8) :
    Divided kVanillaPtrDSID (construct kVanillaPtrDSID) := by
  constructor
  case perm => rw [held_construct, List.nil_append]
  case tookFromEmpty => rfl

theorem Divided.sound (hdivided : Divided kVanillaPtrDSID state) :
    Sound kVanillaPtrDSID state := by
  have hnodup : (state.held ++ state.availableDsIds).Nodup :=
    hdivided.perm.nodup_iff.mpr (nodup_construct kVanillaPtrDSID)
  rw [List.nodup_append'] at hnodup
  constructor
  case exactly => exact hdivided.perm
  case disjoint => exact hnodup.2.2
  case nodup => exact hnodup.1
  case vanilla =>
    intro hheld
    have hqueued := hdivided.perm.mem_iff.mp (List.mem_append_left _ hheld)
    exact (mem_construct.mp hqueued).2 rfl
  case tookFromEmpty => exact hdivided.tookFromEmpty

/-- Fewer holders than ids are some ids in the queue. -/
theorem Divided.idsLeft_iff (hdivided : Divided kVanillaPtrDSID state)
    (garbage : BitVec 8) :
    idsLeft kVanillaPtrDSID state (.allocateDsId garbage) = true ↔
      state.availableDsIds ≠ [] := by
  rw [idsLeft, decide_eq_true_eq, ← hdivided.perm.length_eq, List.length_append,
    Nat.lt_add_right_iff_pos, List.length_pos_iff]

theorem Divided.allocateDsId (hdivided : Divided kVanillaPtrDSID state) {garbage : BitVec 8}
    (hleft : state.availableDsIds ≠ []) :
    Divided kVanillaPtrDSID (allocateDsId garbage state) := by
  obtain ⟨dsId, availableDsIds, hcons⟩ := List.exists_cons_of_ne_nil hleft
  have hperm := hdivided.perm
  rw [DsIds.allocateDsId, hcons]
  rw [hcons] at hperm
  exact ⟨List.perm_middle.symm.trans hperm, hdivided.tookFromEmpty⟩

theorem Divided.freeDsId (hdivided : Divided kVanillaPtrDSID state) {dsId : BitVec 8}
    (hheld : dsId ∈ state.held) : Divided kVanillaPtrDSID (freeDsId dsId state) := by
  have hreturned : (state.held.erase dsId ++ (state.availableDsIds ++ [dsId])).Perm
      (state.held ++ state.availableDsIds) := calc
    (state.held.erase dsId ++ (state.availableDsIds ++ [dsId])).Perm
        (dsId :: (state.held.erase dsId ++ state.availableDsIds)) := by
      rw [← List.append_assoc]
      exact List.perm_append_singleton _ _
    List.Perm _ (state.held ++ state.availableDsIds) :=
      (List.perm_cons_erase hheld).symm.append_right _
  exact ⟨hreturned.trans hdivided.perm, hdivided.tookFromEmpty⟩

/-- Once an element was taken from the empty queue, that is so. -/
theorem tookFromEmpty_step {call : Call} (htook : state.tookFromEmpty = true)
    (hstep : step state call = some next) : next.tookFromEmpty = true := by
  cases call with
  | allocateDsId garbage =>
      cases hstep
      rw [allocateDsId]
      split
      · rfl
      · exact htook
  | freeDsId dsId =>
      rw [step, Option.ite_none_right_eq_some] at hstep
      cases hstep.2
      exact htook

/-- A call divides the ids up again exactly when one is left. -/
theorem Divided.step (hdivided : Divided kVanillaPtrDSID state) {call : Call}
    (hstep : step state call = some next) :
    (idsLeft kVanillaPtrDSID state call = true → Divided kVanillaPtrDSID next) ∧
      (¬ idsLeft kVanillaPtrDSID state call = true → next.tookFromEmpty = true) := by
  cases call with
  | allocateDsId garbage =>
      cases hstep
      rw [hdivided.idsLeft_iff]
      refine ⟨hdivided.allocateDsId, fun hempty => ?_⟩
      rw [DsIds.allocateDsId, not_ne_iff.mp hempty]
  | freeDsId dsId =>
      rw [DsIds.step, Option.ite_none_right_eq_some] at hstep
      cases hstep.2
      exact ⟨fun _ => hdivided.freeDsId hstep.1, fun hempty => absurd rfl hempty⟩

/-- A run from a divided pool, by induction on the calls. -/
theorem Divided.sound_run_iff (hdivided : Divided kVanillaPtrDSID state)
    (hrun : (machine kVanillaPtrDSID).run state calls = some final) :
    Sound kVanillaPtrDSID final ↔
      (machine kVanillaPtrDSID).runAllowed (idsLeft kVanillaPtrDSID) state calls = true := by
  induction calls generalizing state with
  | nil =>
      rw [Library.Machine.run_nil, Option.some.injEq] at hrun
      exact iff_of_true (hrun ▸ hdivided.sound) rfl
  | cons call calls ih =>
      obtain ⟨next, hstep, hrest⟩ := Library.Machine.run_cons.mp hrun
      have hnext := hdivided.step hstep
      rw [Library.Machine.runAllowed, hstep, Bool.and_eq_true]
      by_cases hleft : idsLeft kVanillaPtrDSID state call = true
      · rw [ih (hnext.1 hleft) hrest, hleft, eq_self_iff_true, true_and]
      · have htook : final.tookFromEmpty = true :=
          Library.Machine.run_induction (fun state => state.tookFromEmpty = true)
            tookFromEmpty_step (hnext.2 hleft) hrest
        refine iff_of_false (fun hsound => ?_) fun hboth => hleft hboth.1
        rw [hsound.tookFromEmpty] at htook
        exact Bool.false_ne_true htook

/-- After any calls the pool is sound exactly when every allocation came with
fewer holders than ids. -/
theorem sound_iff (hrun : (machine kVanillaPtrDSID).run (construct kVanillaPtrDSID) calls =
      some final) :
    Sound kVanillaPtrDSID final ↔
      (machine kVanillaPtrDSID).runAllowed (idsLeft kVanillaPtrDSID)
        (construct kVanillaPtrDSID) calls = true :=
  (divided_construct kVanillaPtrDSID).sound_run_iff hrun

/-- Two holders, and one id is returned. -/
theorem sound_returned :
    Sound 0 ⟨(List.range' 3 252).map (BitVec.ofNat 8) ++ [1], [2], false⟩ ↔
      (machine 0).runAllowed (idsLeft 0) (construct 0)
        [.allocateDsId 0, .allocateDsId 0, .freeDsId 1] = true :=
  sound_iff (by decide +kernel)

/-- Two hundred and fifty-four holders have the ids from 1 on; the next one gets
what `front` returns, here an id that is held. -/
def exhausted : State where
  availableDsIds := []
  held := 1 :: ((List.range' 1 254).map (BitVec.ofNat 8)).reverse
  tookFromEmpty := true

theorem not_sound_exhausted :
    (machine 0).run (construct 0) (List.replicate 255 (.allocateDsId 1)) = some exhausted ∧
      ¬ exhausted.held.Nodup ∧ ¬ Sound 0 exhausted := by
  have hshared : ¬ exhausted.held.Nodup := by
    rw [exhausted, List.nodup_cons]
    exact fun hnodup => hnodup.1 (by decide +kernel)
  exact ⟨by decide +kernel, hshared, fun hsound => hshared hsound.nodup⟩

end DynamicSwap.DsIds
