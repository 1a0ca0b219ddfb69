import Mathlib

/-!
# Bump arenas

Arenas are slices of one length that do not meet, each with a mark up to which
it has been filled.  Extents that lie below the marks are apart from whatever is
placed above a mark, in the same arena or in another one.  An arena in which
nothing lies may start over.
-/

namespace DynamicSwap.Library

/-- A range of addresses. -/
structure Extent where
  start : ℕ
  length : ℕ
  deriving DecidableEq

namespace Extent

def addresses (extent : Extent) : Set ℕ :=
  Set.Ico extent.start (extent.start + extent.length)

/-- Two ranges without a common address. -/
def Apart (first second : Extent) : Prop :=
  first.start + first.length ≤ second.start ∨ second.start + second.length ≤ first.start

instance (first second : Extent) : Decidable (Apart first second) :=
  inferInstanceAs (Decidable (_ ∨ _))

theorem Apart.symm {first second : Extent} (hapart : Apart first second) :
    Apart second first :=
  Or.symm hapart

end Extent

namespace Arenas

variable {Arena : Type*} (base mark : Arena → ℕ) (length : ℕ)

/-- The extent lies in the arena, below its mark. -/
def Below (arena : Arena) (extent : Extent) : Prop :=
  base arena ≤ extent.start ∧
    extent.start + extent.length ≤ base arena + mark arena ∧
    extent.start + extent.length ≤ base arena + length

/-- The slices that begin at these addresses do not meet. -/
structure Tiled (bases : Multiset ℕ) : Prop where
  nodup : bases.Nodup
  apart : ∀ first ∈ bases, ∀ second ∈ bases, first ≠ second →
    first + length ≤ second ∨ second + length ≤ first

/-- Every extent lies below the mark of some arena. -/
def Placed (arenas : Multiset Arena) (extents : Set Extent) : Prop :=
  ∀ extent ∈ extents, ∃ arena ∈ arenas, Below base mark length arena extent

variable {base mark length} {arenas rest : Multiset Arena} {old new : Arena}
variable {extents : Set Extent} {extent other : Extent}

theorem Placed.mono {fewer : Set Extent} (hplaced : Placed base mark length arenas extents)
    (hfewer : fewer ⊆ extents) : Placed base mark length arenas fewer :=
  fun extent hextent => hplaced extent (hfewer hextent)

theorem Placed.insert (hplaced : Placed base mark length (new ::ₘ rest) extents)
    (hbelow : Below base mark length new extent) :
    Placed base mark length (new ::ₘ rest) (Insert.insert extent extents) := by
  rintro placed (rfl | hextent)
  · exact ⟨new, Multiset.mem_cons_self _ _, hbelow⟩
  · exact hplaced placed hextent

/-- Raising a mark keeps what has been placed. -/
theorem Placed.raise (hplaced : Placed base mark length (old ::ₘ rest) extents)
    (hbase : base new = base old) (hmark : mark old ≤ mark new) :
    Placed base mark length (new ::ₘ rest) extents := by
  intro placed hextent
  obtain ⟨arena, harena, hstart, hend, hfits⟩ := hplaced placed hextent
  rcases Multiset.mem_cons.mp harena with rfl | harena
  · exact ⟨new, Multiset.mem_cons_self _ _, by omega, by omega, by omega⟩
  · exact ⟨arena, Multiset.mem_cons_of_mem harena, hstart, hend, hfits⟩

/-- An arena that holds nothing can be replaced. -/
theorem Placed.replace (hplaced : Placed base mark length (old ::ₘ rest) extents)
    (hempty : ∀ extent ∈ extents, ¬Below base mark length old extent) :
    Placed base mark length (new ::ₘ rest) extents := by
  intro placed hextent
  obtain ⟨arena, harena, hbelow⟩ := hplaced placed hextent
  rcases Multiset.mem_cons.mp harena with rfl | harena
  · exact absurd hbelow (hempty placed hextent)
  · exact ⟨arena, Multiset.mem_cons_of_mem harena, hbelow⟩

/-- What lies above the mark of an arena is apart from all that has been placed. -/
theorem Placed.apart_of_above (hplaced : Placed base mark length (old ::ₘ rest) extents)
    (htiled : Tiled length ((old ::ₘ rest).map base))
    (habove : base old + mark old ≤ extent.start)
    (hfits : extent.start + extent.length ≤ base old + length) (hother : other ∈ extents) :
    extent.Apart other := by
  obtain ⟨arena, harena, hstart, hend, hwithin⟩ := hplaced other hother
  rw [Extent.Apart]
  rcases Multiset.mem_cons.mp harena with rfl | hrest
  · omega
  · have hnodup := htiled.nodup
    rw [Multiset.map_cons, Multiset.nodup_cons] at hnodup
    have hne : base old ≠ base arena := fun hsame =>
      hnodup.1 (hsame ▸ Multiset.mem_map_of_mem base hrest)
    have hslices := htiled.apart _
      (Multiset.mem_map_of_mem base (Multiset.mem_cons_self old rest)) _
      (Multiset.mem_map_of_mem base harena) hne
    omega

/-- Filling an arena further: the new extent is apart from the old ones and all
of them are placed. -/
theorem Placed.bump (hplaced : Placed base mark length (old ::ₘ rest) extents)
    (htiled : Tiled length ((old ::ₘ rest).map base)) (hbase : base new = base old)
    (habove : base old + mark old ≤ extent.start)
    (hmark : extent.start + extent.length ≤ base old + mark new)
    (hfits : extent.start + extent.length ≤ base old + length) :
    Placed base mark length (new ::ₘ rest) (Insert.insert extent extents) ∧
      ∀ other ∈ extents, extent.Apart other := by
  constructor
  · have hraised : Placed base mark length (new ::ₘ rest) extents :=
      hplaced.raise hbase (by omega)
    exact hraised.insert ⟨by omega, by omega, by omega⟩
  · exact fun other hother => hplaced.apart_of_above htiled habove hfits hother

/-- Slices of the same length at multiples of it from a start. -/
theorem tiled_range (start : ℕ) (count : ℕ) (hlength : 0 < length) :
    Tiled length ((Multiset.range count).map fun index => start + index * length) := by
  constructor
  case nodup =>
    apply Multiset.Nodup.map _ (Multiset.nodup_range count)
    intro first second hsame
    exact Nat.eq_of_mul_eq_mul_right hlength (Nat.add_left_cancel hsame)
  case apart =>
    intro first hfirst second hsecond hne
    obtain ⟨index, -, rfl⟩ := Multiset.mem_map.mp hfirst
    obtain ⟨position, -, rfl⟩ := Multiset.mem_map.mp hsecond
    have hindex : index ≠ position := by
      rintro rfl
      exact hne rfl
    rcases Nat.lt_or_gt_of_ne hindex with hlt | hlt
    · have hle := Nat.mul_le_mul_right length (Nat.succ_le_of_lt hlt)
      rw [Nat.succ_mul] at hle
      omega
    · have hle := Nat.mul_le_mul_right length (Nat.succ_le_of_lt hlt)
      rw [Nat.succ_mul] at hle
      omega

end Arenas

end DynamicSwap.Library
