import DynamicSwap.Swap.SwapIn

/-!
# `swap_out` and whole calls of `swap_in`

`FarMemManager::swap_out` as a function of the heap.  The GC worker that calls
it holds the object's lock, so the metadata and the object stand still during
the call.  `swapIn` is the effect of a `swap_in` that runs alone.
-/

namespace DynamicSwap

variable {Meta : Type}

/-- The notifiers that data structures register by ds id.  A copy notifier gets
the destination and the source object.  An evacuation notifier gets
`write_object_fn` and tells whether the pointer was removed. -/
structure Notifiers (Meta : Type) where
  copy : ℕ → Option (Object → Object → Object)
  evac : ℕ → Option ((ℕ → Heap Meta → Heap Meta) → Object → Heap Meta →
    Heap Meta × Bool)

/-- What a call of `swap_out` meets outside the heap: the `is_nt` bits,
`almost_empty` and the answer of `allocate_local_object_nb`. -/
structure SwapOutChoices where
  isNt : Slot → Bool
  almostEmpty : Bool
  newLocalObjectAddr : Option ℕ

namespace SwapOut

open SwapIn (aliasesOf)

variable (pointer : FarMemPtrMeta Meta) (ring : Slot → List Slot)
variable (kHeaderSize : ℕ) (notifiers : Notifiers Meta)

/-- The locals `hot`, `nt` and `dirty`. -/
structure Flags where
  hot : Bool
  nt : Bool
  dirty : Bool

/-- A unique pointer's own bits; for a shared one the traversal's `|=`, `&=`. -/
def flagsOf (choices : SwapOutChoices) (heap : Heap Meta) (ptr : Slot) : Flags :=
  if pointer.isShared (heap.metas ptr) then
    (aliasesOf pointer ring heap ptr).foldl
      (fun flags slot =>
        { hot := flags.hot || pointer.isHot (heap.metas slot)
          nt := flags.nt && choices.isNt slot
          dirty := flags.dirty || pointer.isDirty (heap.metas slot) })
      ⟨false, true, false⟩
  else
    { hot := pointer.isHot (heap.metas ptr)
      nt := choices.isNt ptr
      dirty := pointer.isDirty (heap.metas ptr) }

/-- The bytes at the new address: a copy notifier fills in the data behind a
copied header and id, otherwise the object is copied whole. -/
def copyObject (obj : Object) : Object :=
  match notifiers.copy obj.dsId with
  | some notifier =>
      notifier { obj with data := List.replicate obj.data.length 0 } obj
  | none => obj

/-- The hot branch: the object moves and every alias follows by `gc_copy`. -/
def hotCopy (heap : Heap Meta) (ptr : Slot) (obj : Object)
    (newLocalObjectAddr : ℕ) : Heap Meta :=
  (((heap.atomicIncRefCnt newLocalObjectAddr 1).putObject newLocalObjectAddr
      (some (copyObject notifiers obj))).mapMetas
        (aliasesOf pointer ring heap ptr)
        fun word => pointer.gcCopy word newLocalObjectAddr).atomicIncRefCnt
          newLocalObjectAddr (-1)

/-- `write_object_fn(data_len)`. -/
def writeObjectFn (obj : Object) (dirty : Bool) (dataLen : ℕ) (heap : Heap Meta) :
    Heap Meta :=
  if dirty then heap.writeObject obj.dsId obj.objId (obj.data.take dataLen)
  else heap

/-- Every alias gets the remote word of the object. -/
def gcWbAll (heap : Heap Meta) (ptr : Slot) (obj : Object) : Heap Meta :=
  heap.mapMetas (aliasesOf pointer ring heap ptr) fun word =>
    pointer.gcWb word obj.dsId (obj.size kHeaderSize) obj.objId

/-- The branch that writes back: unless an evacuation notifier removed the
pointer, the aliases become remote. -/
def writeBack (heap : Heap Meta) (ptr : Slot) (obj : Object) (dirty : Bool) :
    Heap Meta :=
  match notifiers.evac obj.dsId with
  | some notifier =>
      match notifier (writeObjectFn obj dirty) obj heap with
      | (heap, true) => heap
      | (heap, false) => gcWbAll pointer ring kHeaderSize heap ptr obj
  | none =>
      gcWbAll pointer ring kHeaderSize
        (writeObjectFn obj dirty obj.data.length heap) ptr obj

/-- `swap_out(ptr, obj)` without `STW_GC`. -/
def swapOut (choices : SwapOutChoices) (heap : Heap Meta) (ptr : Slot)
    (obj : Object) : Heap Meta :=
  if pointer.isEvacuation (heap.metas ptr) then
    let flags := flagsOf pointer ring choices heap ptr
    if flags.hot && !flags.nt && !choices.almostEmpty then
      match choices.newLocalObjectAddr with
      | some addr => hotCopy pointer ring notifiers heap ptr obj addr
      | none => writeBack pointer ring kHeaderSize notifiers heap ptr obj flags.dirty
    else writeBack pointer ring kHeaderSize notifiers heap ptr obj flags.dirty
  else heap

/-- The five exits of `swap_out`, of which two change the heap the same way. -/
theorem swapOut_cases (choices : SwapOutChoices) (heap : Heap Meta) (ptr : Slot)
    (obj : Object) :
    swapOut pointer ring kHeaderSize notifiers choices heap ptr obj = heap ∨
      (∃ addr, choices.newLocalObjectAddr = some addr ∧
        swapOut pointer ring kHeaderSize notifiers choices heap ptr obj =
          hotCopy pointer ring notifiers heap ptr obj addr) ∨
      swapOut pointer ring kHeaderSize notifiers choices heap ptr obj =
        writeBack pointer ring kHeaderSize notifiers heap ptr obj
          (flagsOf pointer ring choices heap ptr).dirty := by
  unfold swapOut
  split
  · dsimp only
    split
    · cases hchoice : choices.newLocalObjectAddr with
      | some addr => exact .inr (.inl ⟨addr, rfl, rfl⟩)
      | none => exact .inr (.inr rfl)
    · exact .inr (.inr rfl)
  · exact .inl rfl

/-- The dirty bit that `swap_out` acts on: some alias is dirty. -/
theorem dirty_flagsOf (choices : SwapOutChoices) (heap : Heap Meta) (ptr : Slot) :
    (flagsOf pointer ring choices heap ptr).dirty =
      (aliasesOf pointer ring heap ptr).any fun slot =>
        pointer.isDirty (heap.metas slot) := by
  have hfold : ∀ (aliases : List Slot) (flags : Flags),
      (aliases.foldl (fun flags slot =>
        { hot := flags.hot || pointer.isHot (heap.metas slot)
          nt := flags.nt && choices.isNt slot
          dirty := flags.dirty || pointer.isDirty (heap.metas slot) })
        flags).dirty =
          (flags.dirty || aliases.any fun slot =>
            pointer.isDirty (heap.metas slot)) := by
    intro aliases
    induction aliases with
    | nil => simp
    | cons slot aliases ih =>
        intro flags
        rw [List.foldl_cons, ih, List.any_cons, Bool.or_assoc]
  unfold flagsOf
  split
  · rw [hfold, Bool.false_or]
  · rename_i hunique
    simp [aliasesOf, hunique]

/-! ## What a write-back changes -/

section WriteBack

variable (obj : Object) (dirty : Bool) (dataLen : ℕ) (heap : Heap Meta) (ptr : Slot)

theorem writeBack_of_no_notifier (hnone : notifiers.evac obj.dsId = none) :
    writeBack pointer ring kHeaderSize notifiers heap ptr obj dirty =
      gcWbAll pointer ring kHeaderSize
        (writeObjectFn obj dirty obj.data.length heap) ptr obj := by
  rw [writeBack, hnone]

@[simp]
theorem metas_writeObjectFn :
    (writeObjectFn obj dirty dataLen heap).metas = heap.metas := by
  cases dirty <;> rfl

@[simp]
theorem objects_writeObjectFn :
    (writeObjectFn obj dirty dataLen heap).objects = heap.objects := by
  cases dirty <;> rfl

@[simp]
theorem device_writeObjectFn_self :
    (writeObjectFn obj dirty dataLen heap).device obj.dsId obj.objId =
      if dirty then obj.data.take dataLen else heap.device obj.dsId obj.objId := by
  cases dirty with
  | true => exact Heap.device_writeObject_self ..
  | false => rfl

@[simp]
theorem device_writeObjectFn_of_ne {dsId objId : ℕ} (hne : objId ≠ obj.objId) :
    (writeObjectFn obj dirty dataLen heap).device dsId objId =
      heap.device dsId objId := by
  cases dirty with
  | true =>
      apply Heap.device_writeObject_of_ne
      intro heq
      exact hne (congrArg Prod.snd heq)
  | false => rfl

@[simp]
theorem objects_gcWbAll :
    (gcWbAll pointer ring kHeaderSize heap ptr obj).objects = heap.objects :=
  Heap.objects_mapMetas ..

@[simp]
theorem device_gcWbAll :
    (gcWbAll pointer ring kHeaderSize heap ptr obj).device = heap.device :=
  Heap.device_mapMetas ..

end WriteBack

end SwapOut

namespace SwapIn

variable (pointer : FarMemPtrMeta Meta) (ring : Slot → List Slot)

/-- The effect of a whole `swap_in` whose local object is allocated at
`objAddr`. -/
def swapIn (heap : Heap Meta) (ptr : Slot) (objAddr : ℕ) : Heap Meta :=
  let word := heap.metas ptr
  if pointer.isPresent word then heap
  else
    let objId := pointer.getObjectId word
    let dsId := pointer.getDsId word
    (((heap.atomicIncRefCnt objAddr 1).putObject objAddr (some
        { ptrAddr := ptr
          dsId := dsId
          objId := objId
          objIdLen := 8
          data := heap.device dsId objId })).mapMetas
            (aliasesOf pointer ring heap ptr)
            fun word => pointer.setPresent word objAddr).atomicIncRefCnt objAddr (-1)

/-- A step of a call of which nobody else interferes. -/
def SoloStep {Thread : Type} (thread : Thread) (ptr : Slot) (objAddr : ℕ)
    (current next : Shared Meta Thread × Pc Meta) : Prop :=
  step pointer ring thread ptr objAddr current.1 current.2 = some next

variable {pointer ring}

/-- The stores of a solo call are one traversal. -/
theorem solo_setPresent {Thread : Type} (thread : Thread) (ptr : Slot)
    (objId objAddr : ℕ) (pending : List Slot) (shared : Shared Meta Thread) :
    Relation.ReflTransGen (SoloStep pointer ring thread ptr objAddr)
      (shared, .setPresent objId objAddr pending)
      ({ shared with
          heap := shared.heap.mapMetas pending fun word =>
            pointer.setPresent word objAddr },
        .decRefCnt objId objAddr) := by
  induction pending generalizing shared with
  | nil => exact .single rfl
  | cons slot pending ih =>
      apply Relation.ReflTransGen.head
      · exact rfl
      · exact ih _

/-- A call that runs alone has the effect of `swapIn`. -/
theorem exists_solo {Thread : Type} (thread : Thread) (ptr : Slot) {objAddr : ℕ}
    (hbound : objAddr < pointer.addrBound) (shared : Shared Meta Thread)
    (hfree : shared.lockOwner (pointer.getObjectId (shared.heap.metas ptr)) = none) :
    ∃ final, Relation.ReflTransGen (SoloStep pointer ring thread ptr objAddr)
        (shared, .readId) (final, .returned) ∧
      final.heap = swapIn pointer ring shared.heap ptr objAddr ∧
      final.lockOwner = shared.lockOwner := by
  by_cases hpresent : pointer.isPresent (shared.heap.metas ptr) = true
  · refine ⟨shared, ?_, by simp [swapIn, hpresent], rfl⟩
    apply Relation.ReflTransGen.head
    · exact rfl
    · exact .single (by simp [SoloStep, step, hpresent])
  · generalize hobjId : pointer.getObjectId (shared.heap.metas ptr) = objId at hfree
    apply Exists.intro
    constructor
    · apply Relation.ReflTransGen.head
      · exact rfl
      apply Relation.ReflTransGen.head
      · simp only [SoloStep, step, hpresent, hobjId]
        rfl
      apply Relation.ReflTransGen.head
      · simp only [SoloStep, step, hfree]
        rfl
      apply Relation.ReflTransGen.head
      · simp only [SoloStep, step, hpresent]
        rfl
      apply Relation.ReflTransGen.head
      · simp only [SoloStep, step, hbound]
        rfl
      apply Relation.ReflTransGen.head
      · exact rfl
      apply Relation.ReflTransGen.head
      · exact rfl
      apply Relation.ReflTransGen.head
      · exact rfl
      apply Relation.ReflTransGen.trans
      · exact solo_setPresent thread ptr objId objAddr _ _
      apply Relation.ReflTransGen.head
      · exact rfl
      · exact .single rfl
    constructor
    · simp only [swapIn, hpresent, ← hobjId]
      rfl
    · dsimp only
      rw [Function.update_idem, ← hfree, Function.update_eq_self]

end SwapIn

end DynamicSwap
