import Mathlib

/-!
# Constants of the runtime

The compile-time constants of `helpers.hpp` and `region.hpp` that the modelled
functions read, under the names of the source.
-/

namespace DynamicSwap

/-- `helpers::kNumCPUs`. -/
def kNumCPUs : ℕ := 20

theorem kNumCPUs_pos : 0 < kNumCPUs := by decide

instance manyCores : NeZero kNumCPUs := ⟨kNumCPUs_pos.ne'⟩

/-- The runs on fixed inputs have two threads and one worker. -/
instance twoThreads : NeZero 2 := ⟨two_ne_zero⟩

instance oneWorker : NeZero 1 := ⟨one_ne_zero⟩

/-- `helpers::kNumSocket1CPUs`. -/
def kNumSocket1CPUs : ℕ := 2

/-- Core identifiers visited by `FOR_ALL_SOCKET0_CORES`: the macro steps
through all of `kNumCPUs`, not through the cores of one socket. -/
def forAllSocket0Cores : List ℕ := List.range kNumCPUs

@[simp]
theorem length_forAllSocket0Cores : forAllSocket0Cores.length = kNumCPUs := rfl

/-- `helpers::align_to`: round up to a multiple of the factor. -/
def alignTo (n factor : ℕ) : ℕ :=
  (n + factor - 1) / factor * factor

theorem le_alignTo (n : ℕ) {factor : ℕ} (hfactor : 0 < factor) :
    n ≤ alignTo n factor := by
  have hdivMod := Nat.div_add_mod (n + factor - 1) factor
  have hmod := Nat.mod_lt (n + factor - 1) hfactor
  rw [alignTo, Nat.mul_comm]
  omega

namespace Region

/-- `Region::kShift`. -/
def kShift : ℕ := 10

/-- `Region::kSize`, in bytes. -/
def kSize : ℕ := 2 ^ kShift

/-- `Region::kHeaderSize`: reference count, nt flag and a reserved byte. -/
def kHeaderSize : ℕ := 6

/-- `Region::kInvalidIdx`, the `int32_t` value `-1`. -/
def kInvalidIdx : BitVec 32 := -1

theorem kSize_eq : kSize = 1024 := rfl

end Region

end DynamicSwap
