import DynamicSwap.Collector.Evacuation

/-!
# Whole walks

The loops of `GCParallelMarker::slave_fn` and `GCParallelWriteBacker::slave_fn`
over one task, from its left boundary to its end.  The sizes in the headers lead
from object to object, and no visit changes them, so both loops pass through the
starts of the layout and act on the objects that are not freed.
-/

namespace DynamicSwap.SlaveFn

open Walk (Pc Filled)

variable {Meta : Type}

/-- The state of the loop, with the addresses at which it has read a header, the
objects whose iteration has ended and those it has acted on. -/
structure Progress (Meta : Type) where
  pc : Pc
  heap : Heap Meta
  reads : List ℕ
  visited : List ℕ
  acted : List ℕ

def start (left : ℕ) (heap : Heap Meta) : Progress Meta where
  pc := .test left
  heap := heap
  reads := []
  visited := []
  acted := []

/-- What a worker does with the object at an address. -/
abbrev Act (Meta : Type) := ℕ → Heap Meta → Object → Heap Meta

/-- The header that is read at a position. -/
def readAt (kHeaderSize right : ℕ) : Pc → List ℕ
  | .test cur => if cur + kHeaderSize < right then [cur] else []
  | .locked cur => [cur]
  | .advance cur => [cur]
  | .done => []

/-- The object whose iteration ends with a position. -/
def endsAt : Pc → List ℕ
  | .advance cur => [cur]
  | _ => []

/-- The value of `cur`. -/
def position : Pc → ℕ
  | .test cur => cur
  | .locked cur => cur
  | .advance cur => cur
  | .done => 0

/-- One step of the loop; the object that it may act on is the one at `cur`.
`none` where no object starts. -/
def step (kHeaderSize right : ℕ) (act : Act Meta) (progress : Progress Meta) :
    Option (Progress Meta) :=
  (Walk.next kHeaderSize right progress.heap.objects progress.pc).map
    fun (pc, object) =>
      { pc := pc
        heap := object.elim progress.heap (act (position progress.pc) progress.heap)
        reads := progress.reads ++ readAt kHeaderSize right progress.pc
        visited := progress.visited ++ endsAt progress.pc
        acted := progress.acted ++ object.elim [] fun _ => [position progress.pc] }

/-- The `while` loop over one task, for a bounded number of steps. -/
def taskLoop (kHeaderSize right : ℕ) (act : Act Meta) :
    ℕ → Progress Meta → Option (Progress Meta)
  | 0, progress => if progress.pc = .done then some progress else none
  | steps + 1, progress =>
      if progress.pc = .done then some progress
      else
        match step kHeaderSize right act progress with
        | none => none
        | some progress => taskLoop kHeaderSize right act steps progress

section Loops

variable (pointer : FarMemPtrMeta Meta) (ring : Slot → List Slot)
variable (kHeaderSize : ℕ) (notifiers : Notifiers Meta)

/-- What the marker does with an object. -/
def markAct : Act Meta :=
  fun _ heap object => Walk.mark pointer ring heap object

/-- What the write-backer does with an object.  `choices` is what the visit of
each object meets outside the heap. -/
def writeBackAct (choices : ℕ → SwapOutChoices) : Act Meta :=
  fun cur heap object =>
    Walk.writeBack pointer ring kHeaderSize notifiers (choices cur) heap object

/-- The loop of `GCParallelMarker::slave_fn`. -/
def gcParallelMarker (right : ℕ) : ℕ → Progress Meta → Option (Progress Meta) :=
  taskLoop kHeaderSize right (markAct pointer ring)

/-- The loop of `GCParallelWriteBacker::slave_fn`. -/
def gcParallelWriteBacker (choices : ℕ → SwapOutChoices) (right : ℕ) :
    ℕ → Progress Meta → Option (Progress Meta) :=
  taskLoop kHeaderSize right (writeBackAct pointer ring kHeaderSize notifiers choices)

/-- What the loops read of an object: its size and whether it is freed. -/
def layout (object : Object) : ℕ × Bool :=
  (object.size kHeaderSize, object.freed)

/-- Evacuation notifiers leave the layout of local objects as it is. -/
def KeepLayouts : Prop :=
  ∀ dsId notifier, notifiers.evac dsId = some notifier → ∀ obj dirty heap addr,
    ((notifier (SwapOut.writeObjectFn obj dirty) obj heap).1.objects addr).map
        (layout kHeaderSize) =
      (heap.objects addr).map (layout kHeaderSize)

/-- The copy of a hot object is allocated outside the range. -/
def CopiesOutside (choices : ℕ → SwapOutChoices) (left right : ℕ) : Prop :=
  ∀ cur, ∀ addr ∈ (choices cur).newLocalObjectAddr, addr < left ∨ right ≤ addr

end Loops

/-- The starts of the objects that are not freed. -/
def unfreed (objects : ℕ → Option Object) (starts : List ℕ) : List ℕ :=
  starts.filter fun start => (objects start).any fun object => !object.freed

/-- The heap behind acts on the objects at these addresses, one after another. -/
def actAll (act : Act Meta) : Heap Meta → List ℕ → Heap Meta :=
  List.foldl fun heap start => (heap.objects start).elim heap (act start heap)

/-- The loop ends, after at most three steps for each object and one more, with
every start visited once and in order, no header read outside the range and
exactly the objects acted on that are not freed: the heap is what these acts have
made of it. -/
def WalksRange (kHeaderSize left right : ℕ) (heap : Heap Meta) (starts : List ℕ)
    (act : Act Meta) (loop : ℕ → Progress Meta → Option (Progress Meta)) : Prop :=
  starts.Pairwise (· < ·) ∧
    ∃ final, loop (3 * starts.length + 1) (start left heap) = some final ∧
      final.visited = starts ∧
        final.acted = unfreed heap.objects starts ∧
          final.heap = actAll act heap final.acted ∧
            ∀ read ∈ final.reads, left ≤ read ∧ read + kHeaderSize ≤ right

variable {kHeaderSize left right cur steps : ℕ} {act : Act Meta} {heap : Heap Meta}
variable {progress next final : Progress Meta} {object : Object} {starts : List ℕ}

/-! ## Steps -/

section Steps

variable (reads visited acted : List ℕ)

theorem step_test_end (hend : right ≤ cur) :
    step kHeaderSize right act ⟨.test cur, heap, reads, visited, acted⟩ =
      some ⟨.done, heap, reads, visited, acted⟩ := by
  simp [step, Walk.next, readAt, endsAt, show ¬ cur + kHeaderSize < right by omega]

theorem step_test (hlt : cur + kHeaderSize < right) (hobject : heap.objects cur = some object) :
    step kHeaderSize right act ⟨.test cur, heap, reads, visited, acted⟩ =
      some ⟨if object.freed then .advance cur else .locked cur, heap, reads ++ [cur],
        visited, acted⟩ := by
  simp [step, Walk.next, readAt, endsAt, hlt, hobject]

theorem step_locked (hobject : heap.objects cur = some object) (hlive : object.freed = false) :
    step kHeaderSize right act ⟨.locked cur, heap, reads, visited, acted⟩ =
      some ⟨.advance cur, act cur heap object, reads ++ [cur], visited, acted ++ [cur]⟩ := by
  simp [step, Walk.next, readAt, endsAt, position, hobject, hlive]

theorem step_advance (hobject : heap.objects cur = some object) :
    step kHeaderSize right act ⟨.advance cur, heap, reads, visited, acted⟩ =
      some ⟨.test (cur + alignTo (object.size kHeaderSize) FarMemPtrMeta.kSize), heap,
        reads ++ [cur], visited ++ [cur], acted⟩ := by
  simp [step, Walk.next, readAt, endsAt, hobject]

end Steps

theorem taskLoop_step (hpc : progress.pc ≠ .done)
    (hstep : step kHeaderSize right act progress = some next) :
    taskLoop kHeaderSize right act (steps + 1) progress =
      taskLoop kHeaderSize right act steps next := by
  rw [taskLoop, if_neg hpc, hstep]

/-- More steps than enough make no difference. -/
theorem taskLoop_succ (hloop : taskLoop kHeaderSize right act steps progress = some final) :
    taskLoop kHeaderSize right act (steps + 1) progress = some final := by
  induction steps generalizing progress with
  | zero =>
      rw [taskLoop, Option.ite_none_right_eq_some] at hloop
      rw [taskLoop, if_pos hloop.1, hloop.2]
  | succ steps ih =>
      rw [taskLoop] at hloop ⊢
      split
      · rename_i hdone
        rwa [if_pos hdone] at hloop
      · rename_i hdone
        rw [if_neg hdone] at hloop
        split at hloop
        · cases hloop
        · exact ih hloop

/-! ## The walk -/

/-- Acting on an object leaves the layout of those at the starts as it is. -/
def KeepsStarts (kHeaderSize : ℕ) (act : Act Meta) (starts : List ℕ) : Prop :=
  ∀ cur heap object, ∀ start ∈ starts,
    ((act cur heap object).objects start).map (layout kHeaderSize) =
      (heap.objects start).map (layout kHeaderSize)

theorem layout_of_map_eq {after : Heap Meta} {addr : ℕ}
    (hsame : (after.objects addr).map (layout kHeaderSize) =
      (heap.objects addr).map (layout kHeaderSize))
    (hobject : heap.objects addr = some object) :
    ∃ object', after.objects addr = some object' ∧
      object'.size kHeaderSize = object.size kHeaderSize ∧ object'.freed = object.freed := by
  rw [hobject, Option.map_some, Option.map_eq_some_iff] at hsame
  obtain ⟨object', hafter, hlayout⟩ := hsame
  exact ⟨object', hafter, congrArg Prod.fst hlayout, congrArg Prod.snd hlayout⟩

theorem unfreed_congr {after : Heap Meta}
    (hsame : ∀ start ∈ starts, (after.objects start).map (layout kHeaderSize) =
      (heap.objects start).map (layout kHeaderSize)) :
    unfreed after.objects starts = unfreed heap.objects starts := by
  apply List.filter_congr
  intro start hstart
  have hany : ∀ objects : ℕ → Option Object,
      ((objects start).any fun object => !object.freed) =
        ((objects start).map (layout kHeaderSize)).any fun layout => !layout.2 := by
    intro objects
    cases objects start <;> rfl
  rw [hany, hany, hsame start hstart]

/-- The heap behind the iteration for an object. -/
def passHeap (act : Act Meta) (cur : ℕ) (heap : Heap Meta) (object : Object) : Heap Meta :=
  if object.freed then heap else act cur heap object

theorem layout_passHeap (hkeeps : KeepsStarts kHeaderSize act starts) (cur : ℕ)
    (heap : Heap Meta) (object : Object) :
    ∀ start ∈ starts, ((passHeap act cur heap object).objects start).map (layout kHeaderSize) =
      (heap.objects start).map (layout kHeaderSize) := by
  intro start hstart
  rw [passHeap]
  split
  · rfl
  · exact hkeeps cur heap object start hstart

/-- The iteration for the object at `cur` takes two steps or three. -/
theorem taskLoop_iteration (hlt : cur + kHeaderSize < right)
    (hobject : heap.objects cur = some object)
    (hkeeps : ((act cur heap object).objects cur).map (layout kHeaderSize) =
      (heap.objects cur).map (layout kHeaderSize))
    {reads visited acted : List ℕ}
    (hloop : taskLoop kHeaderSize right act steps
      ⟨.test (cur + alignTo (object.size kHeaderSize) FarMemPtrMeta.kSize),
        passHeap act cur heap object,
        reads ++ List.replicate (if object.freed then 2 else 3) cur, visited ++ [cur],
        acted ++ if object.freed then [] else [cur]⟩ = some final) :
    taskLoop kHeaderSize right act (steps + 3) ⟨.test cur, heap, reads, visited, acted⟩ =
      some final := by
  rw [taskLoop_step (by simp) (step_test reads visited acted hlt hobject)]
  by_cases hfreed : object.freed = true
  · rw [passHeap, if_pos hfreed, if_pos hfreed, if_pos hfreed, List.append_nil] at hloop
    have hreads : reads ++ [cur] ++ [cur] = reads ++ List.replicate 2 cur := by simp
    rw [if_pos hfreed,
      taskLoop_step (by simp) (step_advance (reads ++ [cur]) visited acted hobject), hreads]
    exact taskLoop_succ hloop
  · rw [passHeap, if_neg hfreed, if_neg hfreed, if_neg hfreed] at hloop
    have hlive : object.freed = false := Bool.eq_false_iff.mpr hfreed
    obtain ⟨object', hafter, hsize, _⟩ := layout_of_map_eq hkeeps hobject
    have hreads : reads ++ [cur] ++ [cur] ++ [cur] = reads ++ List.replicate 3 cur := by simp
    rw [if_neg hfreed,
      taskLoop_step (by simp) (step_locked (reads ++ [cur]) visited acted hobject hlive),
      taskLoop_step (by simp)
        (step_advance (reads ++ [cur] ++ [cur]) visited (acted ++ [cur]) hafter),
      hsize, hreads]
    exact hloop

theorem unfreed_cons (hobject : heap.objects cur = some object) :
    unfreed heap.objects (cur :: starts) =
      (if object.freed then [] else [cur]) ++ unfreed heap.objects starts := by
  rw [unfreed, List.filter_cons, hobject, Option.any_some]
  cases object.freed <;> rfl

/-- The iteration for an object acts on it unless it is freed. -/
theorem actAll_append (hobject : heap.objects cur = some object) (starts : List ℕ) :
    actAll act heap ((if object.freed then [] else [cur]) ++ starts) =
      actAll act (passHeap act cur heap object) starts := by
  rw [passHeap]
  split
  · rfl
  · rw [List.singleton_append, actAll, List.foldl_cons, hobject]
    rfl

/-- From a start on the loop passes through the rest of the layout, by induction
on it. -/
theorem taskLoop_of_filled (hkeeps : KeepsStarts kHeaderSize act starts)
    (hfilled : Filled kHeaderSize right heap.objects cur starts)
    (reads visited acted : List ℕ) :
    ∃ final, taskLoop kHeaderSize right act (3 * starts.length + 1)
        ⟨.test cur, heap, reads, visited, acted⟩ = some final ∧
      final.visited = visited ++ starts ∧
        final.acted = acted ++ unfreed heap.objects starts ∧
          final.heap = actAll act heap (unfreed heap.objects starts) ∧
            ∀ read ∈ final.reads, read ∈ reads ∨ read ∈ starts := by
  induction starts generalizing cur heap reads visited acted with
  | nil =>
      cases hfilled with
      | done hend =>
          refine ⟨⟨.done, heap, reads, visited, acted⟩, ?_, by simp, by simp [unfreed], rfl,
            fun read hread => .inl hread⟩
          rw [taskLoop_step (by simp) (step_test_end reads visited acted hend)]
          rfl
  | cons first starts ih =>
      cases hfilled with
      | @cons cur object _ hobject hsize hfits hrest =>
          have hkeepsRest : KeepsStarts kHeaderSize act starts :=
            fun addr heap object start hstart =>
              hkeeps addr heap object start (List.mem_cons_of_mem _ hstart)
          have hlayout := layout_passHeap hkeepsRest first heap object
          have hrestAfter : Filled kHeaderSize right (passHeap act first heap object).objects
              (first + alignTo (object.size kHeaderSize) FarMemPtrMeta.kSize) starts := by
            apply hrest.congr
            intro start hstart stored hstored
            obtain ⟨stored', hstored', hsize', _⟩ :=
              layout_of_map_eq (hlayout start hstart) hstored
            exact ⟨stored', hstored', hsize'⟩
          obtain ⟨final, hloop, hvisited, hacted, hheap, hreads⟩ := ih hkeepsRest hrestAfter
            (reads ++ List.replicate (if object.freed then 2 else 3) first)
            (visited ++ [first]) (acted ++ if object.freed then [] else [first])
          have hkeepsFirst := hkeeps first heap object first List.mem_cons_self
          refine ⟨final, taskLoop_iteration (by omega) hobject hkeepsFirst hloop, ?_, ?_, ?_, ?_⟩
          · rw [hvisited, List.append_assoc, List.singleton_append]
          · rw [hacted, unfreed_congr hlayout, unfreed_cons hobject, List.append_assoc]
          · rw [hheap, unfreed_congr hlayout, unfreed_cons hobject, actAll_append hobject]
          · intro read hread
            have hmem := hreads read hread
            rw [List.mem_append] at hmem
            rcases hmem with (hmem | hmem) | hmem
            · exact .inl hmem
            · exact .inr (List.eq_of_mem_replicate hmem ▸ List.mem_cons_self)
            · exact .inr (List.mem_cons_of_mem _ hmem)

theorem pairwise_of_filled {objects : ℕ → Option Object}
    (hfilled : Filled kHeaderSize right objects cur starts) : starts.Pairwise (· < ·) := by
  induction hfilled with
  | done hend => exact List.Pairwise.nil
  | @cons cur object starts hobject hsize hfits hrest ih =>
      apply List.Pairwise.cons _ ih
      intro start hstart
      have hbounds := (hrest.bounds start hstart).1
      have halign := le_alignTo (object.size kHeaderSize)
        (show 0 < FarMemPtrMeta.kSize by decide)
      omega

/-- The header of every object of the layout is inside the range. -/
theorem header_of_filled {objects : ℕ → Option Object}
    (hfilled : Filled kHeaderSize right objects cur starts) :
    ∀ start ∈ starts, cur ≤ start ∧ start + kHeaderSize ≤ right := by
  induction hfilled with
  | done hend => simp
  | @cons cur object starts hobject hsize hfits hrest ih =>
      intro start hstart
      rcases List.mem_cons.mp hstart with rfl | hstart
      · omega
      · have hbounds := ih start hstart
        omega

/-- A loop whose visits keep the layout walks the range. -/
theorem walksRange_taskLoop (hkeeps : KeepsStarts kHeaderSize act starts)
    (hfilled : Filled kHeaderSize right heap.objects left starts) :
    WalksRange kHeaderSize left right heap starts act (taskLoop kHeaderSize right act) := by
  obtain ⟨final, hloop, hvisited, hacted, hheap, hreads⟩ :=
    taskLoop_of_filled hkeeps hfilled [] [] []
  rw [List.nil_append] at hacted
  refine ⟨pairwise_of_filled hfilled, final, hloop, hvisited, hacted, hacted ▸ hheap,
    fun read hread => ?_⟩
  exact header_of_filled hfilled read ((hreads read hread).resolve_left List.not_mem_nil)

/-! ## The two loops -/

section Loops

variable {pointer : FarMemPtrMeta Meta} {ring : Slot → List Slot} {notifiers : Notifiers Meta}
variable {choices : ℕ → SwapOutChoices}

theorem keepsStarts_mark : KeepsStarts kHeaderSize (markAct pointer ring) starts := by
  intro cur heap object start _
  rw [markAct, Walk.mark, Heap.objects_mapMetas]

/-- Writing an object back changes no layout. -/
theorem layout_writeBack (hnotifiers : KeepLayouts kHeaderSize notifiers) (heap : Heap Meta)
    (ptr : Slot) (object : Object) (dirty : Bool) (addr : ℕ) :
    ((SwapOut.writeBack pointer ring kHeaderSize notifiers heap ptr object dirty).objects
        addr).map (layout kHeaderSize) =
      (heap.objects addr).map (layout kHeaderSize) := by
  unfold SwapOut.writeBack
  cases hevac : notifiers.evac object.dsId with
  | none =>
      dsimp only
      rw [SwapOut.objects_gcWbAll, SwapOut.objects_writeObjectFn]
  | some notifier =>
      have hkept := hnotifiers _ _ hevac object dirty heap addr
      dsimp only
      generalize notifier (SwapOut.writeObjectFn object dirty) object heap = result at hkept
      obtain ⟨after, removed⟩ := result
      cases removed with
      | true => exact hkept
      | false =>
          dsimp only
          rw [SwapOut.objects_gcWbAll]
          exact hkept

theorem keepsStarts_writeBack (hnotifiers : KeepLayouts kHeaderSize notifiers)
    (hcopies : CopiesOutside choices left right)
    (hstarts : ∀ start ∈ starts, left ≤ start ∧ start < right) :
    KeepsStarts kHeaderSize (writeBackAct pointer ring kHeaderSize notifiers choices)
      starts := by
  intro cur heap object start hstart
  rw [writeBackAct]
  rcases SwapOut.swapOut_cases pointer ring kHeaderSize notifiers (choices cur) heap
    object.ptrAddr object with hkept | ⟨addr, haddr, hcopied⟩ | hwritten
  · rw [Walk.writeBack, hkept]
  · have hne : start ≠ addr := by
      rintro rfl
      have hinside := hstarts start hstart
      have houtside := hcopies cur start haddr
      omega
    rw [Walk.writeBack, hcopied, SwapOut.hotCopy, Heap.objects_atomicIncRefCnt,
      Heap.objects_mapMetas, Heap.objects_putObject_of_ne _ _ hne,
      Heap.objects_atomicIncRefCnt]
  · rw [Walk.writeBack, hwritten, layout_writeBack hnotifiers]

/-- The marker and the write-backer walk the same objects of a range. -/
theorem slaves_walkRange (hfilled : Filled kHeaderSize right heap.objects left starts)
    (hnotifiers : KeepLayouts kHeaderSize notifiers)
    (hcopies : CopiesOutside choices left right) :
    WalksRange kHeaderSize left right heap starts (markAct pointer ring)
        (gcParallelMarker pointer ring kHeaderSize right) ∧
      WalksRange kHeaderSize left right heap starts
        (writeBackAct pointer ring kHeaderSize notifiers choices)
        (gcParallelWriteBacker pointer ring kHeaderSize notifiers choices right) :=
  ⟨walksRange_taskLoop keepsStarts_mark hfilled,
    walksRange_taskLoop (keepsStarts_writeBack hnotifiers hcopies hfilled.bounds) hfilled⟩

/-- Three objects of 32 bytes from address 6 on, of which the second is freed. -/
def threeObjects : Heap ℕ where
  metas _ := 2 ^ 8
  objects addr :=
    if addr = 6 ∨ addr = 38 ∨ addr = 70 then
      some
        { ptrAddr := 4096
          dsId := 1
          objId := addr
          objIdLen := 8
          data := List.replicate 8 7
          freed := addr = 38 }
    else none
  device _ _ := []
  refCnt _ := 0

/-- The copy of a hot object is at 1030. -/
def copiesAt1030 (_cur : ℕ) : SwapOutChoices where
  isNt _ := false
  almostEmpty := false
  newLocalObjectAddr := some 1030

theorem slaves_walkRange_threeObjects :
    WalksRange 16 6 102 threeObjects [6, 38, 70]
        (markAct (.pointerHpp 16) fun slot => [slot])
        (gcParallelMarker (.pointerHpp 16) (fun slot => [slot]) 16 102) ∧
      WalksRange 16 6 102 threeObjects [6, 38, 70]
        (writeBackAct (.pointerHpp 16) (fun slot => [slot]) 16
          ⟨fun _ => none, fun _ => none⟩ copiesAt1030)
        (gcParallelWriteBacker (.pointerHpp 16) (fun slot => [slot]) 16
          ⟨fun _ => none, fun _ => none⟩ copiesAt1030 102) :=
  slaves_walkRange
    (.cons rfl (by decide) (by decide) (.cons rfl (by decide) (by decide)
      (.cons rfl (by decide) (by decide) (.done (by decide)))))
    nofun (by rintro cur addr ⟨⟩; decide)

end Loops

end DynamicSwap.SlaveFn
