import Mathlib

/-!
# What a set of places holds

Items move between slots and queues, and a move leaves an empty value behind.
The multiset of the non-empty items in a list of places does not see empty
values or the order of the places, so conservation is an equation of multisets.
-/

namespace DynamicSwap.Library

variable {Item : Type*} (isEmpty : Item → Bool)

/-- What one place holds. -/
def own (item : Item) : Multiset Item :=
  if isEmpty item then 0 else {item}

/-- What a list of places holds. -/
def held (places : List Item) : Multiset Item :=
  (places.map (own isEmpty)).sum

variable {isEmpty}

theorem own_of_empty {item : Item} (hempty : isEmpty item = true) :
    own isEmpty item = 0 := by
  rw [own, if_pos hempty]

theorem own_of_full {item : Item} (hfull : isEmpty item = false) :
    own isEmpty item = {item} := by
  rw [own, hfull, if_neg Bool.false_ne_true]

@[simp]
theorem held_nil : held isEmpty ([] : List Item) = 0 := rfl

@[simp]
theorem held_cons (item : Item) (places : List Item) :
    held isEmpty (item :: places) = own isEmpty item + held isEmpty places := by
  simp [held]

@[simp]
theorem held_append (first second : List Item) :
    held isEmpty (first ++ second) = held isEmpty first + held isEmpty second := by
  simp [held]

theorem held_of_perm {first second : List Item} (hperm : first.Perm second) :
    held isEmpty first = held isEmpty second :=
  (hperm.map (own isEmpty)).sum_eq

theorem held_eq_filter (places : List Item) :
    held isEmpty places = places.filter fun item => !isEmpty item := by
  induction places with
  | nil => rfl
  | cons item places ih =>
      rw [held_cons, ih]
      cases hempty : isEmpty item with
      | true => simp [own_of_empty hempty, hempty]
      | false => simp [own_of_full hempty, hempty]

theorem mem_held {places : List Item} {item : Item} :
    item ∈ held isEmpty places ↔ item ∈ places ∧ isEmpty item = false := by
  rw [held_eq_filter, Multiset.mem_coe, List.mem_filter, Bool.not_eq_true']

theorem held_of_all_full {places : List Item}
    (hfull : ∀ item ∈ places, isEmpty item = false) :
    held isEmpty places = places := by
  rw [held_eq_filter, List.filter_eq_self.mpr]
  simpa using hfull

theorem held_of_all_empty {places : List Item}
    (hempty : ∀ item ∈ places, isEmpty item = true) : held isEmpty places = 0 := by
  rw [held_eq_filter, List.filter_eq_nil_iff.mpr]
  · rfl
  · simpa using hempty

theorem card_held_le (places : List Item) :
    (held isEmpty places).card ≤ places.length := by
  rw [held_eq_filter, Multiset.coe_card]
  exact List.length_filter_le _ _

/-- One place and the others. -/
theorem held_getD_eraseIdx {places : List Item} {place : ℕ}
    (hplace : place < places.length) (fallback : Item) :
    held isEmpty places =
      own isEmpty (places.getD place fallback) +
        held isEmpty (places.eraseIdx place) := by
  rw [List.getD_eq_getElem _ _ hplace, ← held_cons]
  exact held_of_perm (List.getElem_cons_eraseIdx_perm hplace).symm

/-- One index changes its value: the number of indices with a property changes
by that one. -/
theorem card_filter_update {Index Value : Type*} [Fintype Index] [DecidableEq Index]
    (property : Value → Prop) [DecidablePred property] (values : Index → Value)
    (index : Index) (value : Value) :
    (Finset.univ.filter fun other =>
          property (Function.update values index value other)).card +
        (if property (values index) then 1 else 0) =
      (Finset.univ.filter fun other => property (values other)).card +
        (if property value then 1 else 0) := by
  have hothers : ∑ other ∈ Finset.univ.erase index,
        (if property (Function.update values index value other) then 1 else 0) =
      ∑ other ∈ Finset.univ.erase index, if property (values other) then 1 else 0 := by
    apply Finset.sum_congr rfl
    intro other hother
    rw [Function.update_of_ne (Finset.ne_of_mem_erase hother)]
  rw [Finset.card_filter, Finset.card_filter,
    ← Finset.add_sum_erase _ _ (Finset.mem_univ index),
    ← Finset.add_sum_erase _ (fun other => if property (values other) then 1 else 0)
      (Finset.mem_univ index), hothers, Function.update_self]
  omega

end DynamicSwap.Library
