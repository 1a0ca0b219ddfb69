import DynamicSwap.Swap.SwapOut

/-!
# The walk over a region's objects

`GCParallelMarker::slave_fn` and `GCParallelWriteBacker::slave_fn` walk the
objects of a task in the same way and differ in what they do with an object that
is not freed.
-/

namespace DynamicSwap.Walk

open SwapIn (aliasesOf)

variable {Meta : Type}

/-- `GCTask`: a boundary of a from-region. -/
structure Task where
  left : ℕ
  right : ℕ
  deriving DecidableEq

/-- Position in the loop over one task: before the loop condition, with the
object's lock taken, and past the visit. -/
inductive Pc
  | test (cur : ℕ)
  | locked (cur : ℕ)
  | advance (cur : ℕ)
  | done
  deriving DecidableEq

/-- The next position, and the object that the worker visits on the way.  The
header at `cur` is read three times: whether the object is freed, before and
under its lock, and its size.  `none` where no object starts at `cur`. -/
def next (kHeaderSize right : ℕ) (objects : ℕ → Option Object) :
    Pc → Option (Pc × Option Object)
  | .test cur =>
      if cur + kHeaderSize < right then
        match objects cur with
        | none => none
        | some obj => some (if obj.freed then .advance cur else .locked cur, none)
      else some (.done, none)
  | .locked cur =>
      match objects cur with
      | none => none
      | some obj => some (.advance cur, if obj.freed then none else some obj)
  | .advance cur =>
      match objects cur with
      | none => none
      | some obj =>
          some (.test (cur + alignTo (obj.size kHeaderSize) FarMemPtrMeta.kSize), none)
  | .done => none

section Visits

variable (pointer : FarMemPtrMeta Meta) (ring : Slot → List Slot)
variable (kHeaderSize : ℕ) (notifiers : Notifiers Meta)

/-- The marker's visit: `set_evacuation` on the pointer that the header names. -/
def mark (heap : Heap Meta) (obj : Object) : Heap Meta :=
  heap.mapMetas (aliasesOf pointer ring heap obj.ptrAddr) pointer.setEvacuation

/-- The write-backer's visit: `swap_out` through the pointer that the header
names. -/
def writeBack (choices : SwapOutChoices) (heap : Heap Meta) (obj : Object) :
    Heap Meta :=
  SwapOut.swapOut pointer ring kHeaderSize notifiers choices heap obj.ptrAddr obj

/-- A header whose pointer has lost the evacuation bit is passed over. -/
theorem writeBack_of_cleared (choices : SwapOutChoices) {heap : Heap Meta} {obj : Object}
    (hcleared : pointer.isEvacuation (heap.metas obj.ptrAddr) = false) :
    writeBack pointer ring kHeaderSize notifiers choices heap obj = heap := by
  rw [writeBack, SwapOut.swapOut, hcleared, if_neg Bool.false_ne_true]

end Visits

/-- Objects from `cur` to `right`, each with data or an id and each starting
where the previous one's size, rounded up, ends. -/
inductive Filled (kHeaderSize right : ℕ) (objects : ℕ → Option Object) :
    ℕ → List ℕ → Prop
  | done {cur : ℕ} (hend : right ≤ cur) : Filled kHeaderSize right objects cur []
  | cons {cur : ℕ} {obj : Object} {starts : List ℕ} (hobj : objects cur = some obj)
      (hsize : kHeaderSize < obj.size kHeaderSize)
      (hfits : cur + obj.size kHeaderSize ≤ right)
      (hrest : Filled kHeaderSize right objects
        (cur + alignTo (obj.size kHeaderSize) FarMemPtrMeta.kSize) starts) :
      Filled kHeaderSize right objects cur (cur :: starts)

/-- Where a walk stands: the objects behind it are `passed`, those before it
`ahead`. -/
def Standing (kHeaderSize right : ℕ) (objects : ℕ → Option Object) (starts : List ℕ)
    (passed ahead : ℕ → Prop) : Pc → Prop
  | .test cur => ∃ before rest, starts = before ++ rest ∧
      Filled kHeaderSize right objects cur rest ∧
      (∀ start ∈ before, passed start) ∧ ∀ start ∈ rest, ahead start
  | .locked cur => ∃ before rest, starts = before ++ cur :: rest ∧
      Filled kHeaderSize right objects cur (cur :: rest) ∧
      (∀ start ∈ before, passed start) ∧ ∀ start ∈ cur :: rest, ahead start
  | .advance cur => ∃ before rest, starts = before ++ cur :: rest ∧
      Filled kHeaderSize right objects cur (cur :: rest) ∧
      (∀ start ∈ before ++ [cur], passed start) ∧ ∀ start ∈ rest, ahead start
  | .done => ∀ start ∈ starts, passed start

variable {kHeaderSize right cur : ℕ} {objects after : ℕ → Option Object}
variable {starts : List ℕ} {passed ahead passed' ahead' : ℕ → Prop} {pc nextPc : Pc}

/-! ## Layout -/

namespace Filled

theorem bounds (hfilled : Filled kHeaderSize right objects cur starts) :
    ∀ start ∈ starts, cur ≤ start ∧ start < right := by
  induction hfilled with
  | done hend => simp
  | cons hobj hsize hfits hrest ih =>
      intro start hstart
      rcases List.mem_cons.mp hstart with rfl | hstart
      · omega
      · have hbounds := ih start hstart
        omega

theorem isSome (hfilled : Filled kHeaderSize right objects cur starts) :
    ∀ start ∈ starts, ∃ obj, objects start = some obj ∧
      kHeaderSize < obj.size kHeaderSize := by
  induction hfilled with
  | done hend => simp
  | cons hobj hsize hfits hrest ih =>
      intro start hstart
      rcases List.mem_cons.mp hstart with rfl | hstart
      · exact ⟨_, hobj, hsize⟩
      · exact ih start hstart

theorem nodup (hfilled : Filled kHeaderSize right objects cur starts) :
    starts.Nodup := by
  induction hfilled with
  | done hend => exact List.nodup_nil
  | @cons cur obj starts hobj hsize hfits hrest ih =>
      apply List.nodup_cons.mpr
      constructor
      · intro hmem
        have hbounds := (hrest.bounds _ hmem).1
        have halign := le_alignTo (obj.size kHeaderSize)
          (show 0 < FarMemPtrMeta.kSize by decide)
        omega
      · exact ih

/-- The layout depends on the sizes alone. -/
theorem congr (hfilled : Filled kHeaderSize right objects cur starts)
    (hsizes : ∀ start ∈ starts, ∀ obj, objects start = some obj →
      ∃ obj', after start = some obj' ∧
        obj'.size kHeaderSize = obj.size kHeaderSize) :
    Filled kHeaderSize right after cur starts := by
  induction hfilled with
  | done hend => exact .done hend
  | cons hobj hsize hfits hrest ih =>
      obtain ⟨obj, hafter, hsame⟩ := hsizes _ List.mem_cons_self _ hobj
      apply Filled.cons hafter
      · rw [hsame]
        exact hsize
      · rw [hsame]
        exact hfits
      · rw [hsame]
        exact ih fun start hstart => hsizes start (List.mem_cons_of_mem _ hstart)

end Filled

namespace Standing

theorem passed_concat {before : List ℕ} (hbefore : ∀ start ∈ before, passed start)
    (hcur : passed cur) : ∀ start ∈ before ++ [cur], passed start := by
  rw [List.forall_mem_append, List.forall_mem_singleton]
  exact ⟨hbefore, hcur⟩

theorem start (hfilled : Filled kHeaderSize right objects cur starts)
    (hahead : ∀ start ∈ starts, ahead start) :
    Standing kHeaderSize right objects starts passed ahead (.test cur) :=
  ⟨[], starts, rfl, hfilled, by simp, hahead⟩

/-- What others do keeps the sizes and the two predicates. -/
theorem mono (hstanding : Standing kHeaderSize right objects starts passed ahead pc)
    (hsizes : ∀ start ∈ starts, ∀ obj, objects start = some obj →
      ∃ obj', after start = some obj' ∧ obj'.size kHeaderSize = obj.size kHeaderSize)
    (hpassed : ∀ start ∈ starts, passed start → passed' start)
    (hahead : ∀ start ∈ starts, ahead start → ahead' start) :
    Standing kHeaderSize right after starts passed' ahead' pc := by
  cases pc with
  | test cur | locked cur =>
      obtain ⟨before, rest, rfl, hfilled, hbefore, hrest⟩ := hstanding
      refine ⟨before, rest, rfl, hfilled.congr ?_, ?_, ?_⟩
      · exact fun start hstart => hsizes start (List.mem_append_right _ hstart)
      · exact fun start hstart =>
          hpassed start (List.mem_append_left _ hstart) (hbefore start hstart)
      · exact fun start hstart =>
          hahead start (List.mem_append_right _ hstart) (hrest start hstart)
  | advance cur =>
      obtain ⟨before, rest, rfl, hfilled, hbefore, hrest⟩ := hstanding
      refine ⟨before, rest, rfl, hfilled.congr ?_, ?_, ?_⟩
      · exact fun start hstart => hsizes start (List.mem_append_right _ hstart)
      · exact fun start hstart => hpassed start (by grind) (hbefore start hstart)
      · exact fun start hstart => hahead start (by grind) (hrest start hstart)
  | done => exact fun start hstart => hpassed start hstart (hstanding start hstart)

/-- A step that visits no object. -/
theorem next (hstanding : Standing kHeaderSize right objects starts passed ahead pc)
    (hfreed : ∀ start ∈ starts, ahead start → ∀ obj, objects start = some obj →
      obj.freed = true → passed start)
    (hnext : Walk.next kHeaderSize right objects pc = some (nextPc, none)) :
    Standing kHeaderSize right objects starts passed ahead nextPc := by
  cases pc with
  | test cur =>
      obtain ⟨before, rest, rfl, hfilled, hbefore, hrest⟩ := hstanding
      cases hfilled with
      | done hend =>
          rw [Walk.next, if_neg (by omega), Option.some.injEq, Prod.mk.injEq] at hnext
          rw [← hnext.1]
          simpa [Standing] using hbefore
      | cons hobj hsize hfits htail =>
          rename_i obj tail
          rw [Walk.next, if_pos (by omega), hobj] at hnext
          dsimp only at hnext
          rw [Option.some.injEq, Prod.mk.injEq] at hnext
          rw [← hnext.1]
          split
          · rename_i hfree
            have hcur : passed cur :=
              hfreed cur (by simp) (hrest cur List.mem_cons_self) obj hobj hfree
            exact ⟨before, tail, rfl, .cons hobj hsize hfits htail,
              passed_concat hbefore hcur,
              fun start hstart => hrest start (List.mem_cons_of_mem _ hstart)⟩
          · exact ⟨before, tail, rfl, .cons hobj hsize hfits htail, hbefore, hrest⟩
  | locked cur =>
      obtain ⟨before, rest, rfl, hfilled, hbefore, hrest⟩ := hstanding
      cases hfilled with
      | cons hobj hsize hfits htail =>
          rename_i obj
          rw [Walk.next, hobj] at hnext
          dsimp only at hnext
          rw [Option.some.injEq, Prod.mk.injEq] at hnext
          have hfree : obj.freed = true := by
            by_contra hlive
            rw [if_neg hlive] at hnext
            cases hnext.2
          have hcur : passed cur :=
            hfreed cur (by simp) (hrest cur List.mem_cons_self) obj hobj hfree
          rw [← hnext.1]
          exact ⟨before, rest, rfl, .cons hobj hsize hfits htail,
            passed_concat hbefore hcur,
            fun start hstart => hrest start (List.mem_cons_of_mem _ hstart)⟩
  | advance cur =>
      obtain ⟨before, rest, rfl, hfilled, hbefore, hrest⟩ := hstanding
      cases hfilled with
      | cons hobj hsize hfits htail =>
          rw [Walk.next, hobj] at hnext
          dsimp only at hnext
          rw [Option.some.injEq, Prod.mk.injEq] at hnext
          rw [← hnext.1]
          exact ⟨before ++ [cur], rest, by simp, htail, hbefore, hrest⟩
  | done => cases hnext

/-- A visit happens under the lock, to an object that is not freed and that the
walk has not passed. -/
theorem visits {obj : Object}
    (hstanding : Standing kHeaderSize right objects starts passed ahead pc)
    (hnext : Walk.next kHeaderSize right objects pc = some (nextPc, some obj)) :
    ∃ cur, pc = .locked cur ∧ nextPc = .advance cur ∧ cur ∈ starts ∧ ahead cur ∧
      objects cur = some obj ∧ obj.freed = false := by
  cases pc with
  | test cur =>
      rw [Walk.next] at hnext
      split at hnext
      · split at hnext <;> simp at hnext
      · simp at hnext
  | locked cur =>
      obtain ⟨before, rest, rfl, hfilled, hbefore, hrest⟩ := hstanding
      rw [Walk.next] at hnext
      split at hnext
      · cases hnext
      · rename_i stored hobj
        rw [Option.some.injEq, Prod.mk.injEq] at hnext
        obtain ⟨rfl, hvisit⟩ := hnext
        rw [Option.ite_none_left_eq_some, Option.some.injEq] at hvisit
        obtain ⟨hlive, rfl⟩ := hvisit
        exact ⟨cur, rfl, rfl, by simp, hrest cur List.mem_cons_self, hobj,
          Bool.eq_false_iff.mpr hlive⟩
  | advance cur =>
      rw [Walk.next] at hnext
      split at hnext <;> simp at hnext
  | done => cases hnext

/-- The visit of the object at `cur` lets the walk pass it. -/
theorem visit
    (hstanding : Standing kHeaderSize right objects starts passed ahead (.locked cur))
    (hnodup : starts.Nodup)
    (hsizes : ∀ start ∈ starts, ∀ obj, objects start = some obj →
      ∃ obj', after start = some obj' ∧ obj'.size kHeaderSize = obj.size kHeaderSize)
    (hself : passed' cur)
    (hpassed : ∀ start ∈ starts, start ≠ cur → passed start → passed' start)
    (hahead : ∀ start ∈ starts, start ≠ cur → ahead start → ahead' start) :
    Standing kHeaderSize right after starts passed' ahead' (.advance cur) := by
  obtain ⟨before, rest, rfl, hfilled, hbefore, hrest⟩ := hstanding
  rw [List.nodup_append, List.nodup_cons] at hnodup
  obtain ⟨-, ⟨hfresh, -⟩, hapart⟩ := hnodup
  refine ⟨before, rest, rfl, hfilled.congr ?_, passed_concat ?_ hself, ?_⟩
  · exact fun start hstart => hsizes start (List.mem_append_right _ hstart)
  · exact fun start hstart => hpassed start (List.mem_append_left _ hstart)
      (hapart start hstart cur List.mem_cons_self) (hbefore start hstart)
  · intro start hstart
    have hne : start ≠ cur := by
      rintro rfl
      exact hfresh hstart
    exact hahead start (by simp [hstart]) hne (hrest start (List.mem_cons_of_mem _ hstart))

end Standing

end DynamicSwap.Walk
