import Mathlib

/-!
# Windows of a memory

A memory maps addresses to bytes.  `window` reads as many bytes as are asked for
from an address on and `place` writes such a window; what lies outside an
address range that a write covers is as it was.  `load` and `store` do the same
with lists, and a number is the bytes of its digits in base 256.
-/

namespace DynamicSwap.Library.ByteMemory

variable {Byte : Type*}

/-- The bytes from `address` on. -/
def window (memory : ℕ → Byte) (address length : ℕ) : Fin length → Byte :=
  fun offset => memory (address + offset)

/-- The first bytes of a source. -/
def upTo (source : ℕ → Byte) (length : ℕ) : Fin length → Byte :=
  fun offset => source offset

/-- The memory with these bytes from `address` on. -/
def place (memory : ℕ → Byte) (address : ℕ) {length : ℕ} (bytes : Fin length → Byte) :
    ℕ → Byte :=
  fun other =>
    if address ≤ other then
      if hlt : other - address < length then bytes ⟨other - address, hlt⟩ else memory other
    else memory other

variable {memory after : ℕ → Byte} {address other length count : ℕ}
  {bytes : Fin length → Byte}

@[simp]
theorem window_place : window (place memory address bytes) address length = bytes := by
  funext offset
  have hoffset : address + offset - address = offset := Nat.add_sub_cancel_left _ _
  simp [window, place, hoffset]

/-- A write changes no byte outside its range. -/
theorem eqOn_place :
    Set.EqOn (place memory address bytes) memory (Set.Ico address (address + length))ᶜ := by
  intro other hother
  rw [Set.mem_compl_iff, Set.mem_Ico] at hother
  simp only [place]
  split
  · split
    · omega
    · rfl
  · rfl

theorem place_of_lt {offset : ℕ} (hoffset : offset < length) :
    place memory address bytes (address + offset) = bytes ⟨offset, hoffset⟩ :=
  congrFun window_place ⟨offset, hoffset⟩

theorem place_of_apart (hapart : other < address ∨ address + length ≤ other) :
    place memory address bytes other = memory other := by
  apply eqOn_place
  rw [Set.mem_compl_iff, Set.mem_Ico]
  omega

/-- A window depends on the bytes in its range. -/
theorem window_congr (hsame : Set.EqOn after memory (Set.Ico address (address + length))) :
    window after address length = window memory address length := by
  funext offset
  have hoffset := offset.isLt
  exact hsame ⟨Nat.le_add_right _ _, Nat.add_lt_add_left hoffset _⟩

theorem window_place_of_disjoint
    (hdisjoint : Disjoint (Set.Ico other (other + count)) (Set.Ico address (address + length))) :
    window (place memory address bytes) other count = window memory other count :=
  window_congr (eqOn_place.mono hdisjoint.subset_compl_right)

/-- Changes inside two ranges are changes inside their union. -/
theorem eqOn_compl_trans {final : ℕ → Byte} {first second : Set ℕ}
    (hfirst : Set.EqOn after memory firstᶜ) (hsecond : Set.EqOn final after secondᶜ) :
    Set.EqOn final memory (first ∪ second)ᶜ := by
  intro other hother
  rw [Set.compl_union] at hother
  exact (hsecond hother.2).trans (hfirst hother.1)

/-! ## Copying piece by piece -/

/-- The bytes at these offsets have been copied from `source` to `target`, and
nothing else has changed. -/
structure Copied (memory after : ℕ → Byte) (source target : ℕ) (done : Set ℕ) : Prop where
  bytes : ∀ offset ∈ done, after (target + offset) = memory (source + offset)
  frame : ∀ address, (∀ offset ∈ done, address ≠ target + offset) →
    after address = memory address

section Copy

variable {source target start total : ℕ} {done : Set ℕ}

theorem copied_place :
    Copied memory (place memory target (window memory source length)) source target
      (Set.Ico 0 length) where
  bytes offset hoffset := place_of_lt hoffset.2
  frame address houtside := by
    apply place_of_apart
    by_contra hinside
    exact houtside (address - target) ⟨Nat.zero_le _, by omega⟩ (by omega)

/-- A source that does not meet the target reads as before. -/
theorem Copied.window_source (hcopied : Copied memory after source target done)
    (hdone : done ⊆ Set.Iio total) (hfits : start + length ≤ total)
    (hapart : target + total ≤ source ∨ source + total ≤ target) :
    window after (source + start) length = window memory (source + start) length := by
  funext offset
  apply hcopied.frame
  intro first hfirst
  have hlt := Set.mem_Iio.mp (hdone hfirst)
  omega

theorem Copied.piece (hcopied : Copied memory after source target done)
    (hdone : done ⊆ Set.Iio total) (hfits : start + length ≤ total)
    (hapart : target + total ≤ source ∨ source + total ≤ target) :
    Copied memory (place after (target + start) (window after (source + start) length)) source
      target (done ∪ Set.Ico start (start + length)) := by
  rw [hcopied.window_source hdone hfits hapart]
  constructor
  case bytes =>
    intro offset hoffset
    by_cases hpiece : offset ∈ Set.Ico start (start + length)
    · obtain ⟨index, rfl⟩ := Nat.exists_eq_add_of_le hpiece.1
      rw [← Nat.add_assoc, place_of_lt (Nat.lt_of_add_lt_add_left hpiece.2), window,
        Nat.add_assoc]
    · rw [place_of_apart]
      · exact hcopied.bytes offset (hoffset.resolve_right hpiece)
      · rw [Set.mem_Ico] at hpiece
        omega
  case frame =>
    intro address houtside
    rw [place_of_apart]
    · exact hcopied.frame address fun offset hoffset => houtside offset (.inl hoffset)
    · by_contra hinside
      obtain ⟨index, rfl⟩ := Nat.exists_eq_add_of_le
        (show target + start ≤ address by omega)
      have hindex : start + index ∈ Set.Ico start (start + length) :=
        ⟨Nat.le_add_right _ _, by omega⟩
      exact houtside _ (.inr hindex) (Nat.add_assoc _ _ _)

theorem Copied.eqOn (hcopied : Copied memory after source target (Set.Ico 0 length)) :
    Set.EqOn after memory (Set.Ico target (target + length))ᶜ := by
  intro address houtside
  apply hcopied.frame
  rintro offset hoffset rfl
  exact houtside ⟨Nat.le_add_right _ _, Nat.add_lt_add_left hoffset.2 _⟩

end Copy

/-! ## Lists and numbers -/

def load (memory : ℕ → Byte) (address length : ℕ) : List Byte :=
  List.ofFn (window memory address length)

def store (memory : ℕ → Byte) (address : ℕ) (bytes : List Byte) : ℕ → Byte :=
  place memory address bytes.get

@[simp]
theorem length_load : (load memory address length).length = length :=
  List.length_ofFn

@[simp]
theorem load_store (bytes : List Byte) :
    load (store memory address bytes) address bytes.length = bytes := by
  rw [load, store, window_place, List.ofFn_get]

theorem eqOn_store {bytes : List Byte} :
    Set.EqOn (store memory address bytes) memory
      (Set.Ico address (address + bytes.length))ᶜ :=
  eqOn_place

/-- The number whose little-endian bytes these are. -/
def littleEndian (source : ℕ → BitVec 8) : ℕ → ℕ
  | 0 => 0
  | count + 1 => (source 0).toNat + 2 ^ 8 * littleEndian (fun offset => source (offset + 1)) count

theorem littleEndian_congr {first second : ℕ → BitVec 8}
    (hsame : ∀ offset < count, first offset = second offset) :
    littleEndian first count = littleEndian second count := by
  induction count generalizing first second with
  | zero => rfl
  | succ count ih =>
      have hrest : littleEndian (fun offset => first (offset + 1)) count =
          littleEndian (fun offset => second (offset + 1)) count :=
        ih fun offset hoffset => hsame (offset + 1) (by omega)
      rw [littleEndian, littleEndian, hsame 0 (by omega), hrest]

/-- The bytes of a number spell the number, as far as they go. -/
theorem littleEndian_digits (value : ℕ) :
    littleEndian (fun offset => BitVec.ofNat 8 (value / 2 ^ (8 * offset))) count =
      value % 2 ^ (8 * count) := by
  induction count generalizing value with
  | zero => simp [littleEndian, Nat.mod_one]
  | succ count ih =>
      have hshift : (fun offset => BitVec.ofNat 8 (value / 2 ^ (8 * (offset + 1)))) =
          fun offset => BitVec.ofNat 8 (value / 2 ^ 8 / 2 ^ (8 * offset)) := by
        funext offset
        rw [Nat.div_div_eq_div_mul, ← pow_add, Nat.mul_add, Nat.mul_one, Nat.add_comm 8]
      calc
        littleEndian (fun offset => BitVec.ofNat 8 (value / 2 ^ (8 * offset))) (count + 1) =
            value % 2 ^ 8 + 2 ^ 8 * (value / 2 ^ 8 % 2 ^ (8 * count)) := by
          rw [littleEndian, hshift, ih]
          simp
        _ = value % (2 ^ 8 * 2 ^ (8 * count)) := (Nat.mod_mul).symm
        _ = value % 2 ^ (8 * (count + 1)) := by
          rw [← pow_add, Nat.mul_add, Nat.mul_one, Nat.add_comm 8]

end DynamicSwap.Library.ByteMemory
